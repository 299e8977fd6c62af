import ImageRelease.Toml.Value

/-!
Reading whole documents: line by line settings and headers, which together make one table.
-/
namespace ImageRelease.Toml

inductive Statement where
  | opens (double : Bool) (span : Span) (parents : List Key) (key : Key)
  | sets (setting : Setting)

def takeHeader (double : Bool) (start inner : List Char) : Option (Statement × List Char) := do
  let (parents, key, rest) ← takePath (inner.dropWhile isSpace)
  match double, rest.dropWhile isSpace with
  | false, ']' :: rest => return (.opens false ⟨start.length, rest.length⟩ parents key, rest)
  | true, ']' :: ']' :: rest => return (.opens true ⟨start.length, rest.length⟩ parents key, rest)
  | _, _ => none

def takeStatement (s : List Char) : Option (Statement × List Char) :=
  match s with
  | '[' :: '[' :: inner => takeHeader true s inner
  | '[' :: inner => takeHeader false s inner
  | _ => do
    let (setting, rest) ← takeSetting skipSpace (takeValue nestingLimit) s
    return (.sets setting, rest)

def atLineEnd (s : List Char) : Bool :=
  match s.dropWhile isSpace with
  | [] => true
  | '\r' :: '\n' :: _ => true
  | c :: _ => c == '\n' || c == '#'

def takeStatements (s : List Char) : Option (List Statement) := do
  match ← skipTrivia false s with
  | [] => return []
  | start =>
    let (statement, rest) ← takeStatement start
    if atLineEnd rest && rest.length < s.length then
      return statement :: (← takeStatements rest)
    else none
termination_by s.length
decreasing_by simp_all

/-- The settings before the first header, and the sections. -/
def group : List Statement → List Setting × List Section
  | [] => ([], [])
  | .sets setting :: rest =>
    let (settings, sections) := group rest
    (setting :: settings, sections)
  | .opens double span parents key :: rest =>
    let (settings, sections) := group rest
    ([], ⟨double, span, parents, key, settings⟩ :: sections)

def assemble? (statements : List Statement) : Option Entries := do
  let (settings, sections) := group statements
  let root ← Entries.setAll? settings []
  sections.foldlM (fun root section_ => root.open? section_) root

/-- A byte order mark at the front of a document is no part of it. -/
def dropByteOrderMark : List Char → List Char
  | c :: s => if c = '\uFEFF' then s else c :: s
  | [] => []

def read? (document : List Char) : Option Entries := do
  assemble? (← takeStatements (dropByteOrderMark document))

end ImageRelease.Toml
