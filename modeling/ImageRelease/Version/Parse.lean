import ImageRelease.Text.Quoted
import ImageRelease.Version.Basic

/-!
Reading versions. Text is read from left to right; the first part that does not follow the grammar
is the fault reported.
-/
namespace ImageRelease.Version

inductive Part where
  | major
  | minor
  | patch
  | prerelease
  | build
deriving DecidableEq, Repr

def Part.name : Part → String
  | .major => "major version number"
  | .minor => "minor version number"
  | .patch => "patch version number"
  | .prerelease => "pre-release identifier"
  | .build => "build metadata"

inductive Fault where
  | empty
  | endsIn (part : Part)
  | unexpected (part : Part) (found : Char)
  | unexpectedAfter (part : Part) (found : Char)
  | leadingZero (part : Part)
  | tooLarge (part : Part)
  | emptyIdentifier (part : Part)
deriving DecidableEq, Repr

def Fault.message : Fault → String
  | .empty => "empty string, expected a semver version"
  | .endsIn part => "unexpected end of input while parsing " ++ part.name
  | .unexpected part c =>
    "unexpected character " ++ Text.quotedChar c ++ " while parsing " ++ part.name
  | .unexpectedAfter part c => "unexpected character " ++ Text.quotedChar c ++ " after " ++ part.name
  | .leadingZero part => "invalid leading zero in " ++ part.name
  | .tooLarge part => "value of " ++ part.name ++ " exceeds u64::MAX"
  | .emptyIdentifier part => "empty identifier segment in " ++ part.name

def numberBound : Nat := Nat.pow 2 64

def digitsValue (digits : List Char) : Nat :=
  digits.foldl (fun n c => n * 10 + (c.toNat - '0'.toNat)) 0

def isPlainNumeral : List Char → Bool
  | ['0'] => true
  | '0' :: _ => false
  | digits => !digits.isEmpty

def takeNumber (part : Part) (s : List Char) : Except Fault (Nat × List Char) :=
  let digits := s.takeWhile Char.isDigit
  let rest := s.dropWhile Char.isDigit
  if digits.isEmpty then
    match rest with
    | [] => .error (.endsIn part)
    | c :: _ => .error (.unexpected part c)
  else if !isPlainNumeral digits then .error (.leadingZero part)
  else if digitsValue digits < numberBound then .ok (digitsValue digits, rest)
  else .error (.tooLarge part)

def takeDot (part : Part) : List Char → Except Fault (List Char)
  | '.' :: rest => .ok rest
  | c :: _ => .error (.unexpectedAfter part c)
  | [] => .error (.endsIn part)

def isIdentifierChar (c : Char) : Bool := c.isAlphanum || c == '-'

def isNumeric (i : Identifier) : Bool := i.all Char.isDigit

/-- An identifier of the given part: not empty, and in a pre-release a number has no leading zero. -/
def checkIdentifier (part : Part) (i : Identifier) : Except Fault Unit :=
  if i.isEmpty then .error (.emptyIdentifier part)
  else if part = .prerelease ∧ isNumeric i ∧ !isPlainNumeral i then .error (.leadingZero part)
  else .ok ()

def takeIdentifiers (part : Part) (s : List Char) : Except Fault (List Identifier × List Char) :=
  let i := s.takeWhile isIdentifierChar
  match checkIdentifier part i, _h : s.dropWhile isIdentifierChar with
  | .error fault, _ => .error fault
  | .ok _, '.' :: rest => do
    let (more, rest) ← takeIdentifiers part rest
    return (i :: more, rest)
  | .ok _, rest => .ok ([i], rest)
termination_by s.length
decreasing_by
  have := (List.dropWhile_sublist isIdentifierChar (l := s)).length_le
  rw [_h] at this
  simp only [List.length_cons] at this
  omega

/-- The identifiers after their mark; none when the mark is absent. -/
def takeMarked (mark : Char) (part : Part) : List Char → Except Fault (List Identifier × List Char)
  | c :: rest => if c = mark then takeIdentifiers part rest else .ok ([], c :: rest)
  | [] => .ok ([], [])

def lastPart (prerelease build : List Identifier) : Part :=
  if !build.isEmpty then .build else if !prerelease.isEmpty then .prerelease else .patch

def parseChars (s : List Char) : Except Fault Version := do
  if s.isEmpty then throw .empty
  let (major, s) ← takeNumber .major s
  let s ← takeDot .major s
  let (minor, s) ← takeNumber .minor s
  let s ← takeDot .minor s
  let (patch, s) ← takeNumber .patch s
  let (prerelease, s) ← takeMarked '-' .prerelease s
  let (build, s) ← takeMarked '+' .build s
  match s with
  | [] => return { major, minor, patch, prerelease, build }
  | c :: _ => throw (.unexpectedAfter (lastPart prerelease build) c)

/-- Reads a bare version; a leading `v` is no part of it. -/
def parse (s : String) : Except Fault Version := parseChars s.toList

end ImageRelease.Version
