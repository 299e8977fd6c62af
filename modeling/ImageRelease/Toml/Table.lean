import ImageRelease.Toml.Node

/-!
Defining tables. A key is defined once. Dotted keys may extend only tables that dotted keys made, and
headers may open a table that was so far only implied; tables in braces and arrays in brackets are
closed.
-/
namespace ImageRelease.Toml

namespace Entries

def add? (key : Key) (value : Node) (entries : Entries) : Option Entries :=
  if (entries.find? key.name).isSome then none else some (entries ++ [(key, value)])

def replace (name : String) (value : Node) (entries : Entries) : Entries :=
  entries.map fun entry => if entry.1.name == name then (entry.1, value) else entry

def erase (name : String) (entries : Entries) : Entries :=
  entries.filter fun entry => entry.1.name != name

/-- Whether dotted keys or headers may go into a table of this origin. -/
def mayEnter (dotted : Bool) : Origin → Bool
  | .inline => false
  | .header => !dotted
  | .implied | .dotted => true

/-- Changes the table at the end of a path, making the tables on the way that are missing. An array
of tables stands for its last table. -/
def change? (dotted : Bool) (f : Origin → Entries → Option Entries) (origin : Origin) :
    List Key → Entries → Option Entries
  | [], entries => f origin entries
  | key :: path, entries =>
    match entries.find? key.name with
    | none => do
      let made := if dotted then Origin.dotted else Origin.implied
      let sub ← change? dotted f made path []
      return entries ++ [(key, .table key.span made sub)]
    | some (.table span inner sub) =>
      if mayEnter dotted inner then do
        let sub ← change? dotted f inner path sub
        return entries.replace key.name (.table span inner sub)
      else none
    | some (.tables span items) =>
      match items.getLast? with
      | some (.table last inner sub) => do
        let sub ← change? dotted f inner path sub
        return entries.replace key.name
          (.tables span (items.dropLast ++ [.table last inner sub]))
      | _ => none
    | some _ => none

def set? (parents : List Key) (key : Key) (value : Node) (entries : Entries) : Option Entries :=
  if parents.isEmpty then entries.add? key value
  else
    entries.change? true (fun origin sub => if origin = .dotted then sub.add? key value else none)
      .header parents

end Entries

structure Setting where
  parents : List Key
  key : Key
  value : Node

def Entries.setAll? (settings : List Setting) (entries : Entries) : Option Entries :=
  settings.foldlM (fun entries s => entries.set? s.parents s.key s.value) entries

structure Section where
  double : Bool
  span : Span
  parents : List Key
  key : Key
  settings : List Setting

/-- Puts the table of a section under its key: a new table or one that was only implied for a single
header, one more table of an array for a double one. -/
def Section.attach? (section_ : Section) (parent : Entries) : Option Entries := do
  let found := parent.find? section_.key.name
  let opened ← match found with
    | none => some []
    | some (.table _ .implied sub) => if section_.double then none else some sub
    | some (.tables _ _) => if section_.double then some [] else none
    | some _ => none
  let table := Node.table section_.span .header (← Entries.setAll? section_.settings opened)
  if section_.double then
    match found with
    | some (.tables span items) =>
      return parent.replace section_.key.name (.tables span (items ++ [table]))
    | _ => return parent ++ [(section_.key, .tables section_.span [table])]
  else return parent.erase section_.key.name ++ [(section_.key, table)]

def Entries.open? (section_ : Section) (root : Entries) : Option Entries :=
  root.change? false (fun _ parent => section_.attach? parent) .header section_.parents

end ImageRelease.Toml
