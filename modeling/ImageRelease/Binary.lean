/-!
The binaries that ship as container images, and the selection of some of them by name. A selection
is listed in the order of the names, whatever the order and repetition in the request.
-/
namespace ImageRelease

inductive Binary where
  | controllerAcnodal
  | controllerPool
  | speakerAcnodal
  | speakerLocal
deriving DecidableEq, Repr

namespace Binary

def all : List Binary := [controllerAcnodal, controllerPool, speakerAcnodal, speakerLocal]

def name : Binary → String
  | controllerAcnodal => "controller-acnodal"
  | controllerPool => "controller-pool"
  | speakerAcnodal => "speaker-acnodal"
  | speakerLocal => "speaker-local"

def names : List String := all.map name

def ofName? (s : String) : Option Binary := all.find? (·.name == s)

def index (b : Binary) : Nat := all.idxOf b

@[simp] theorem mem_all (b : Binary) : b ∈ all := by cases b <;> decide

@[simp] theorem ofName?_name (b : Binary) : ofName? b.name = some b := by cases b <;> decide

theorem name_of_ofName? {s : String} {b : Binary} (h : ofName? s = some b) : b.name = s := by
  simpa using List.find?_some h

def everyWord : String := "all"

def ofWord? (word : String) : Option (List Binary) :=
  if word = everyWord then some all else (ofName? word).map fun b => [b]

/-- The binaries that the words of a request name; a word that names none is the error. -/
def ofWords : List String → Except String (List Binary)
  | [] => .ok []
  | word :: words =>
    match ofWord? word with
    | none => .error word
    | some chosen => (ofWords words).map (chosen ++ ·)

/-- The selection of a request. An empty request selects everything. -/
def select (request : List String) : Except String (List Binary) :=
  (ofWords request).map fun chosen =>
    if chosen.isEmpty then all else all.filter fun b => chosen.contains b

end Binary

end ImageRelease
