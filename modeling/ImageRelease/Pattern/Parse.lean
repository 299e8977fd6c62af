import ImageRelease.Pattern.Basic

/-!
The written form of patterns. A dot, anchors and escapes have a meaning, a star or plus repeats the
piece before it, and every other character stands for itself. Brackets and marks of richer pattern
languages are refused.
-/
namespace ImageRelease.Pattern

/-- Repeats a piece any number of times. A position may then be left out. -/
def starred : Piece → Piece
  | .once class_ | .many class_ | .some class_ => .many class_
  | .nothing | .start | .finish => .nothing

def plussed : Piece → Piece
  | .once class_ | .some class_ => .some class_
  | piece => piece

def isReserved (c : Char) : Bool :=
  c == '(' || c == ')' || c == '[' || c == '\x7b' || c == '?' || c == '|' || c == '\\'

def isEscapable (c : Char) : Bool :=
  0x20 < c.toNat && c.toNat < 0x7F && !c.isAlphanum && c != '<' && c != '>'

def escaped? (c : Char) : Option Piece :=
  if c = 's' then some (.once .blank)
  else if c = 'n' then some (.once (.literal '\n'))
  else if c = 'r' then some (.once (.literal '\r'))
  else if c = 't' then some (.once (.literal '\t'))
  else if isEscapable c then some (.once (.literal c))
  else none

def plain? (c : Char) : Option Piece :=
  if c = '.' then some (.once .any)
  else if c = '^' then some .start
  else if c = '$' then some .finish
  else if isReserved c then none
  else some (.once (.literal c))

/-- Repeats the last of the pieces, which are in reverse order. -/
def repeatLast? (f : Piece → Piece) : List Piece → Option (List Piece)
  | [] => none
  | piece :: before => some (f piece :: before)

def read? : List Piece → List Char → Option Pattern
  | done, [] => some done.reverse
  | done, '*' :: s => (repeatLast? starred done).bind fun done => read? done s
  | done, '+' :: s => (repeatLast? plussed done).bind fun done => read? done s
  | done, '\\' :: c :: s => (escaped? c).bind fun piece => read? (piece :: done) s
  | done, c :: s => (plain? c).bind fun piece => read? (piece :: done) s

def parse? (s : String) : Option Pattern := read? [] s.toList

end ImageRelease.Pattern
