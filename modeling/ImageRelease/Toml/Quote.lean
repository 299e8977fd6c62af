/-!
Quoted texts of documents. Basic texts have escapes, literal ones have none; both exist on one line
and over several lines. A reader takes the text after the opening quotes and gives its content and
what follows the closing quotes.
-/
namespace ImageRelease.Toml

/-- Characters that may not be written as themselves; the line feed is dealt with by each reader. -/
def isControl (c : Char) : Bool := (c.toNat < 0x20 && c != '\t') || c.toNat == 0x7F

def isSpace (c : Char) : Bool := c == ' ' || c == '\t'

def shortEscape? : Char → Option Char
  | 'b' => some '\x08'
  | 't' => some '\t'
  | 'n' => some '\n'
  | 'f' => some '\x0c'
  | 'r' => some '\r'
  | 'e' => some '\x1b'
  | '"' => some '"'
  | '\\' => some '\\'
  | _ => none

def hexDigit? (c : Char) : Option Nat :=
  if c.isDigit then some (c.toNat - '0'.toNat)
  else if 'a' ≤ c && c ≤ 'f' then some (c.toNat - 'a'.toNat + 10)
  else if 'A' ≤ c && c ≤ 'F' then some (c.toNat - 'A'.toNat + 10)
  else none

def hexValue? : Nat → List Char → Option Nat
  | n, [] => some n
  | n, c :: cs => (hexDigit? c).bind fun d => hexValue? (n * 16 + d) cs

/-- The character with these hexadecimal digits; surrogates are none. -/
def codePoint? (digits : List Char) : Option Char := do
  let n ← hexValue? 0 digits
  if n.isValidChar then some (Char.ofNat n) else none

def addChar (c? : Option Char) (more : Option (List Char × List Char)) :
    Option (List Char × List Char) :=
  match c?, more with
  | some c, some (content, rest) => some (c :: content, rest)
  | _, _ => none

def basicBody : List Char → Option (List Char × List Char)
  | '"' :: s => some ([], s)
  | '\\' :: 'x' :: a :: b :: s => addChar (codePoint? [a, b]) (basicBody s)
  | '\\' :: 'u' :: a :: b :: c :: d :: s => addChar (codePoint? [a, b, c, d]) (basicBody s)
  | '\\' :: 'U' :: a :: b :: c :: d :: e :: f :: g :: h :: s =>
    addChar (codePoint? [a, b, c, d, e, f, g, h]) (basicBody s)
  | '\\' :: c :: s => addChar (shortEscape? c) (basicBody s)
  | c :: s => if isControl c then none else addChar (some c) (basicBody s)
  | [] => none

def literalBody : List Char → Option (List Char × List Char)
  | '\'' :: s => some ([], s)
  | c :: s => if isControl c then none else addChar (some c) (literalBody s)
  | [] => none

def dropLineEnd : List Char → List Char
  | '\n' :: s => s
  | '\r' :: '\n' :: s => s
  | s => s

def startsLineEnd : List Char → Bool
  | '\n' :: _ => true
  | '\r' :: '\n' :: _ => true
  | _ => false

/-- Drops the blanks and line ends that a backslash at the end of a line takes away. -/
def dropFold : List Char → List Char
  | '\r' :: '\n' :: s => dropFold s
  | c :: s => if isSpace c || c == '\n' then dropFold s else c :: s
  | [] => []

theorem length_dropFold_le (s : List Char) : (dropFold s).length ≤ s.length := by
  fun_induction dropFold s <;> simp_all <;> omega

/-- A literal text over several lines. Up to two quotes may stand before the closing ones. -/
def literalLines : List Char → Option (List Char × List Char)
  | '\'' :: '\'' :: '\'' :: '\'' :: '\'' :: s => some (['\'', '\''], s)
  | '\'' :: '\'' :: '\'' :: '\'' :: s => some (['\''], s)
  | '\'' :: '\'' :: '\'' :: s => some ([], s)
  | '\r' :: '\n' :: s => addChar (some '\r') (addChar (some '\n') (literalLines s))
  | c :: s => if isControl c && c != '\n' then none else addChar (some c) (literalLines s)
  | [] => none

/-- A basic text over several lines. A backslash at the end of a line joins it with what follows. -/
def basicLines : List Char → Option (List Char × List Char)
  | '"' :: '"' :: '"' :: '"' :: '"' :: s => some (['"', '"'], s)
  | '"' :: '"' :: '"' :: '"' :: s => some (['"'], s)
  | '"' :: '"' :: '"' :: s => some ([], s)
  | '\\' :: 'x' :: a :: b :: s => addChar (codePoint? [a, b]) (basicLines s)
  | '\\' :: 'u' :: a :: b :: c :: d :: s => addChar (codePoint? [a, b, c, d]) (basicLines s)
  | '\\' :: 'U' :: a :: b :: c :: d :: e :: f :: g :: h :: s =>
    addChar (codePoint? [a, b, c, d, e, f, g, h]) (basicLines s)
  | '\\' :: c :: s =>
    if startsLineEnd ((c :: s).dropWhile isSpace) then basicLines (dropFold (c :: s))
    else addChar (shortEscape? c) (basicLines s)
  | '\r' :: '\n' :: s => addChar (some '\r') (addChar (some '\n') (basicLines s))
  | c :: s => if isControl c && c != '\n' then none else addChar (some c) (basicLines s)
  | [] => none
termination_by s => s.length
decreasing_by
  all_goals simp_wf
  all_goals try omega
  have := length_dropFold_le (c :: s)
  simp only [List.length_cons] at this
  omega

def takeText : List Char → Option (List Char × List Char)
  | '"' :: '"' :: '"' :: s => basicLines (dropLineEnd s)
  | '"' :: s => basicBody s
  | '\'' :: '\'' :: '\'' :: s => literalLines (dropLineEnd s)
  | '\'' :: s => literalBody s
  | _ => none

end ImageRelease.Toml
