import ImageRelease.Toml.Moment
import ImageRelease.Toml.Number
import ImageRelease.Toml.Table

/-!
Reading values. A reader takes the text from the start of a value and gives the value and what
follows it. Arrays and tables in braces may go over several lines and be nested to a fixed depth.
-/
namespace ImageRelease.Toml

/-- Skips blanks, line ends and comments; in a comment everything up to the line end. -/
def skipTrivia : (comment : Bool) → List Char → Option (List Char)
  | _, '\r' :: '\n' :: s => skipTrivia false s
  | false, c :: s =>
    if isSpace c || c == '\n' then skipTrivia false s
    else if c == '#' then skipTrivia true s
    else some (c :: s)
  | true, c :: s =>
    if c == '\n' then skipTrivia false s
    else if isControl c then none
    else skipTrivia true s
  | _, [] => some []

def isBareKeyChar (c : Char) : Bool := c.isAlphanum || c == '_' || c == '-'

def takeName : List Char → Option (List Char × List Char)
  | '"' :: s => basicBody s
  | '\'' :: s => literalBody s
  | s =>
    let name := s.takeWhile isBareKeyChar
    if name.isEmpty then none else some (name, s.dropWhile isBareKeyChar)

def takeKey (s : List Char) : Option (Key × List Char) := do
  let (name, rest) ← takeName s
  return (⟨String.ofList name, ⟨s.length, rest.length⟩⟩, rest)

/-- Keys with dots between them: those before the last, the last, and what follows. -/
def takePath (s : List Char) : Option (List Key × Key × List Char) := do
  let (key, rest) ← takeKey s
  match rest.dropWhile isSpace with
  | '.' :: more =>
    let more := more.dropWhile isSpace
    if more.length < s.length then
      let (parents, last, rest) ← takePath more
      return (key :: parents, last, rest)
    else none
  | _ => return ([], key, rest)
termination_by s.length

/-- The characters that end a word; a dot is part of it all the same. -/
def isDelimiter (c : Char) : Bool :=
  ['.', '=', ',', '[', ']', '\x7b', '\x7d', ' ', '\t', '#', '\r', '\n'].contains c

def isWordChar (c : Char) : Bool := c == '.' || !isDelimiter c

def continuesWord : List Char → Bool
  | [] => false
  | c :: _ => !isDelimiter c && c != '"' && c != '\''

/-- The word that an unquoted value is written as, and what follows it. Blanks belong to the word when
it goes on after them. -/
def takeWord : List Char → List Char × List Char
  | [] => ([], [])
  | c :: s =>
    if isWordChar c || (isSpace c && continuesWord (s.dropWhile isSpace)) then
      let (word, rest) := takeWord s
      (c :: word, rest)
    else ([], c :: s)

def ofWord? (span : Span) (word : List Char) : Option Node :=
  if word = "true".toList then some (.boolean span true)
  else if word = "false".toList then some (.boolean span false)
  else if Moment.isMoment word then some (.moment span)
  else
    match Number.integer? word with
    | some numeral => some (.integer span numeral)
    | none => (Number.float? word).map (.float span)

def takeItems (value : List Char → Option (Node × List Char)) (s : List Char) :
    Option (List Node × List Char) := do
  match ← skipTrivia false s with
  | ']' :: rest => return ([], rest)
  | start =>
    let (item, rest) ← value start
    match ← skipTrivia false rest with
    | ']' :: rest => return ([item], rest)
    | ',' :: rest =>
      if rest.length < s.length then
        let (items, rest) ← takeItems value rest
        return (item :: items, rest)
      else none
    | _ => none
termination_by s.length

def skipSpace (s : List Char) : Option (List Char) := some (s.dropWhile isSpace)

def takeSetting (skip : List Char → Option (List Char))
    (value : List Char → Option (Node × List Char)) (s : List Char) :
    Option (Setting × List Char) := do
  let (parents, key, rest) ← takePath s
  match ← skip rest with
  | '=' :: rest =>
    let (node, rest) ← value (← skip rest)
    return (⟨parents, key, node⟩, rest)
  | _ => none

/-- The settings of a table in braces, from its opening brace on. Each may go over several lines. -/
def takeSettings (value : List Char → Option (Node × List Char)) (s : List Char) :
    Option (List Setting × List Char) := do
  match ← skipTrivia false s with
  | '\x7d' :: rest => return ([], rest)
  | start =>
    let (setting, rest) ← takeSetting (skipTrivia false) value start
    match ← skipTrivia false rest with
    | '\x7d' :: rest => return ([setting], rest)
    | ',' :: rest =>
      if rest.length < s.length then
        let (settings, rest) ← takeSettings value rest
        return (setting :: settings, rest)
      else none
    | _ => none
termination_by s.length

def nestingLimit : Nat := 80

/-- A value whose arrays and tables in braces are nested at most `depth` deep. -/
def takeValue (depth : Nat) (s : List Char) : Option (Node × List Char) :=
  match s with
  | '"' :: _ | '\'' :: _ => do
    let (content, rest) ← takeText s
    return (.text ⟨s.length, rest.length⟩ (String.ofList content), rest)
  | '[' :: inner =>
    match depth with
    | 0 => none
    | depth + 1 => do
      let (items, rest) ← takeItems (takeValue depth) inner
      return (.array ⟨s.length, rest.length⟩ items, rest)
  | '\x7b' :: inner =>
    match depth with
    | 0 => none
    | depth + 1 => do
      let (settings, rest) ← takeSettings (takeValue depth) inner
      let entries ← Entries.setAll? settings []
      return (.table ⟨s.length, rest.length⟩ .inline entries, rest)
  | _ => do
    let (word, rest) := takeWord s
    let node ← ofWord? ⟨s.length, rest.length⟩ word
    return (node, rest)
termination_by depth

end ImageRelease.Toml
