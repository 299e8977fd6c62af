import ImageRelease.CommandLine.Parameter

/-!
Reading the words of one level from left to right. An option without an attached value waits for the
next word; its value is looked at when the next option or positional word is met, or at the end of the
level. Two dashes end the options.
-/
namespace ImageRelease.CommandLine

structure Reading where
  given : List (Parameter × List String)
  /-- An option that waits for its value, or whose value was not looked at yet. -/
  pending : Option (Parameter × Option String)
  version : Option String
deriving DecidableEq, Repr

namespace Reading

def empty : Reading := { given := [], pending := none, version := none }

def get? (r : Reading) (p : Parameter) : Option (List String) := r.given.lookup p

def has (r : Reading) (p : Parameter) : Bool := (r.get? p).isSome

def awaitsValue (r : Reading) : Bool :=
  match r.pending with
  | some (_, none) => true
  | _ => false

def valuesOf (p : Parameter) (value : String) : List String :=
  if p.collects then (value.toList.splitOn ',').map String.ofList else [value]

def collect (p : Parameter) (values : List String) :
    List (Parameter × List String) → List (Parameter × List String)
  | [] => [(p, values)]
  | (q, old) :: rest =>
    if q = p then (q, old ++ values) :: rest else (q, old) :: collect p values rest

def give (p : Parameter) (value : String) (r : Reading) : Except UsageFault Reading :=
  if r.has p && !p.collects then .error (.repeated p)
  else if p.isPath && value.isEmpty then .error (.emptyPath p)
  else .ok { r with given := collect p (valuesOf p value) r.given }

def settle (r : Reading) : Except UsageFault Reading :=
  match r.pending with
  | none => .ok r
  | some (p, none) => .error (.missingValue p)
  | some (p, some value) => { r with pending := none }.give p value

def raise (p : Parameter) (r : Reading) : Except UsageFault Reading := do
  let r ← r.settle
  match p with
  | .help => throw .helpRequested
  | .version => throw .versionRequested
  | _ => if r.has p then throw (.repeated p) else return { r with given := r.given ++ [(p, [])] }

def attach (p : Parameter) (value : String) (r : Reading) : Except UsageFault Reading := do
  (← r.settle).give p value

def await (p : Parameter) (r : Reading) : Except UsageFault Reading := do
  return { (← r.settle) with pending := some (p, none) }

def supply (word : String) (r : Reading) : Reading :=
  { r with pending := r.pending.map fun waiting => (waiting.1, some word) }

def misplaced (l : Level) (afterDashes : Bool) (word : String) : UsageFault :=
  let isName := (Subcommand.ofName? word).isSome || word = helpWord
  match l with
  | .top => if afterDashes && isName then .unknownArgument word else .unknownSubcommand word
  | .under _ => .unknownArgument word

def place (l : Level) (afterDashes : Bool) (word : String) (r : Reading) :
    Except UsageFault Reading :=
  if l.takesVersion && r.version.isNone then do
    return { (← r.settle) with version := some word }
  else .error (misplaced l afterDashes word)

/-- Takes an option written with two dashes; `value` is what stands after an equals sign. -/
def takeLong (l : Level) (word name : String) (value : Option String) (r : Reading) :
    Except UsageFault Reading :=
  match l.ofLong? name with
  | none => .error (.unknownArgument word)
  | some p =>
    match p.takesValue, value with
    | true, some value => r.attach p value
    | true, none => r.await p
    | false, some _ => .error (.needlessValue p)
    | false, none => r.raise p

/-- Takes the letters after one dash. A letter that takes a value has the rest of the word as its
value, an equals sign in front not counting, or else waits for the next word. -/
def takeLetters (l : Level) (word : String) : List Char → Reading → Except UsageFault Reading
  | [], r => .ok r
  | c :: letters, r =>
    match l.ofShort? c with
    | none => .error (.unknownArgument word)
    | some p =>
      if p.takesValue then
        match letters with
        | [] => r.await p
        | '=' :: value => r.attach p (String.ofList value)
        | value => r.attach p (String.ofList value)
      else do takeLetters l word letters (← r.raise p)

end Reading

inductive Word where
  | dashes
  | long (name : String) (value : Option String)
  | letters (letters : List Char)
  | plain
deriving DecidableEq, Repr

def splitValue (s : List Char) : String × Option String :=
  let name := s.takeWhile (· != '=')
  match s.dropWhile (· != '=') with
  | [] => (String.ofList name, none)
  | _ :: value => (String.ofList name, some (String.ofList value))

def Word.ofChars : List Char → Word
  | ['-', '-'] => dashes
  | '-' :: '-' :: s => long (splitValue s).1 (splitValue s).2
  | ['-'] => plain
  | '-' :: s => letters s
  | _ => plain

/-- Reads words after two dashes: none of them is an option. -/
def readPlain (l : Level) : Reading → List String → Except UsageFault Reading
  | r, [] => .ok r
  | r, word :: words => do readPlain l (← r.place l true word) words

/-- What stops a level before its last word. -/
inductive Stop where
  | subcommand (subcommand : Subcommand) (words : List String)
  | help (words : List String)

def stop? (l : Level) (r : Reading) (word : String) (words : List String) : Option Stop :=
  if l != .top || r.awaitsValue then none
  else if word = helpWord then some (.help words)
  else (Subcommand.ofName? word).map fun s => .subcommand s words

def readWords (l : Level) : Reading → List String → Except UsageFault (Reading × Option Stop)
  | r, [] => .ok (r, none)
  | r, word :: words =>
    match Word.ofChars word.toList with
    | .dashes => do return (← readPlain l r words, none)
    | .long name value => do readWords l (← r.takeLong l word name value) words
    | .letters letters => do readWords l (← r.takeLetters l word letters) words
    | .plain =>
      match stop? l r word words with
      | some stop => .ok (r, some stop)
      | none =>
        if r.awaitsValue then readWords l (r.supply word) words
        else do readWords l (← r.place l false word) words

end ImageRelease.CommandLine
