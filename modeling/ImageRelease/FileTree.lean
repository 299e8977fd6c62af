import ImageRelease.Path
import ImageRelease.Text.Utf8

/-!
Files and directories by their location, and access to them by path texts. A path is walked part by
part from the working directory, or from the root when it is absolute: every part but the last must
be entered, so it must exist and be a directory.
-/
namespace ImageRelease

/-- The names on the way from the root. -/
abbrev Location := List String

inductive FileEntry where
  | directory
  | file (content : ByteArray)

instance : DecidableEq FileEntry
  | .directory, .directory => .isTrue rfl
  | .directory, .file _ => .isFalse nofun
  | .file _, .directory => .isFalse nofun
  | .file a, .file b =>
    match ByteArray.instDecidableEq a b with
    | .isTrue h => .isTrue (by rw [h])
    | .isFalse h => .isFalse fun e => h (by injection e)

inductive FileFault where
  | notFound
  | notDirectory
  | isDirectory
  | nameTooLong
  | zeroByte
  | notText
  | notPermitted
deriving DecidableEq, Repr

def FileFault.message : FileFault → String
  | .notFound => "No such file or directory (os error 2)"
  | .notDirectory => "Not a directory (os error 20)"
  | .isDirectory => "Is a directory (os error 21)"
  | .nameTooLong => "File name too long (os error 36)"
  | .zeroByte => "file name contained an unexpected NUL byte"
  | .notText => "stream did not contain valid UTF-8"
  | .notPermitted => "Permission denied (os error 13)"

structure FileTree where
  workingDirectory : Location
  entries : List (Location × FileEntry)
  locked : List Location := []

namespace FileTree

/-- The root is always there. -/
def lookup (t : FileTree) (l : Location) : Option FileEntry :=
  if l.isEmpty then some .directory else t.entries.lookup l

/-- Puts an entry in the place of the one with the same location, or at the end. -/
def putEntry (l : Location) (e : FileEntry) :
    List (Location × FileEntry) → List (Location × FileEntry)
  | [] => [(l, e)]
  | (k, old) :: rest => if k = l then (k, e) :: rest else (k, old) :: putEntry l e rest

def put (t : FileTree) (l : Location) (e : FileEntry) : FileTree :=
  { t with entries := putEntry l e t.entries }

def remove (t : FileTree) (l : Location) : FileTree :=
  { t with entries := t.entries.filter fun entry => !l.isPrefixOf entry.1 }

theorem lookup_putEntry (l k : Location) (e : FileEntry) (es : List (Location × FileEntry)) :
    (putEntry l e es).lookup k = if k = l then some e else es.lookup k := by
  have beq_of_ne {a b : Location} (h : a ≠ b) : (a == b) = false := by simp [h]
  induction es with
  | nil => by_cases h : k = l <;> simp [putEntry, List.lookup_cons, h, beq_of_ne]
  | cons head rest ih =>
    obtain ⟨m, old⟩ := head
    by_cases hm : m = l
    · by_cases hk : k = l <;> simp [putEntry, List.lookup_cons, hm, hk, beq_of_ne]
    · by_cases hkm : k = m
      · simp [putEntry, hm, hkm]
      · simp [putEntry, List.lookup_cons, hm, beq_of_ne hkm, ih]

theorem lookup_put (t : FileTree) {l : Location} (hl : l ≠ []) (e : FileEntry) (k : Location) :
    (t.put l e).lookup k = if k = l then some e else t.lookup k := by
  unfold lookup put
  by_cases hk : k = []
  · subst hk; simp [Ne.symm hl]
  · simp [List.isEmpty_iff, hk, lookup_putEntry]

def nameLimit : Nat := 255

def pathLimit : Nat := 4096

/-- Follows the parts of a path. An empty part and `.` stay, `..` goes up. -/
def walk (t : FileTree) : Location → List String → Except FileFault Location
  | l, [] => .ok l
  | l, part :: parts =>
    match t.lookup l with
    | none => .error .notFound
    | some (.file _) => .error .notDirectory
    | some .directory =>
      if part = "" || part = "." then t.walk l parts
      else if part = ".." then t.walk l.dropLast parts
      else if nameLimit < part.utf8ByteSize then .error .nameTooLong
      else t.walk (l ++ [part]) parts

/-- The location that a path means; its last part need not exist. -/
def resolve (t : FileTree) (path : String) : Except FileFault Location :=
  if path.isEmpty then .error .notFound
  else if path.toList.contains '\x00' then .error .zeroByte
  else if pathLimit ≤ path.utf8ByteSize then .error .nameTooLong
  else t.walk (if Path.isAbsolute path then [] else t.workingDirectory) (Path.parts path)

def find (t : FileTree) (path : String) : Except FileFault FileEntry := do
  match t.lookup (← t.resolve path) with
  | some entry => return entry
  | none => throw .notFound

def pathExists (t : FileTree) (path : String) : Bool := (t.find path).isOk

def read (t : FileTree) (path : String) : Except FileFault ByteArray := do
  match ← t.find path with
  | .file content => return content
  | .directory => throw .isDirectory

def readText (t : FileTree) (path : String) : Except FileFault String := do
  match Text.decode? (← t.read path) with
  | some text => return text
  | none => throw .notText

/-- Makes the file at a path have this content; its directory must exist, and it must not be locked. -/
def write (t : FileTree) (path : String) (content : ByteArray) : Except FileFault FileTree := do
  let l ← t.resolve path
  match t.lookup l with
  | some .directory => throw .isDirectory
  | _ => if t.locked.contains l then throw .notPermitted else return t.put l (.file content)

def writeText (t : FileTree) (path text : String) : Except FileFault FileTree :=
  t.write path text.toUTF8

def putParents (t : FileTree) : Location → Location → FileTree
  | _, [] => t
  | _, [_] => t
  | above, name :: below =>
    let here := above ++ [name]
    let t := if (t.lookup here).isNone then t.put here .directory else t
    putParents t here below

def putDeep (t : FileTree) (l : Location) (e : FileEntry) : FileTree :=
  (t.putParents [] l).put l e

def files (t : FileTree) : List (Location × ByteArray) :=
  t.entries.filterMap fun
    | (l, .file content) => some (l, content)
    | (_, .directory) => none

def changes (before after : FileTree) : List (Location × Option ByteArray) :=
  let written := after.files.filterMap fun (l, content) =>
    if before.lookup l = some (.file content) then none else some (l, some content)
  let removed := before.files.filterMap fun (l, _) =>
    match after.lookup l with
    | some (.file _) => none
    | _ => some (l, none)
  written ++ removed

end FileTree

end ImageRelease
