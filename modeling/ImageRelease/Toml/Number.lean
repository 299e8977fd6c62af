import ImageRelease.Toml.Node
import ImageRelease.Toml.Quote

/-!
Numbers of documents. Underscores join digits. Decimal integers and the whole part of floats have no
needless leading zero; other bases have a mark and no sign. What stands inside the parts of a decimal
integer after its first underscore is not looked at here: such an integer may turn out to have no
value.
-/
namespace ImageRelease.Toml.Number

def isDigitOf (base : Nat) (c : Char) : Bool := (hexDigit? c).any (· < base)

def value (base : Nat) (digits : List Char) : Nat :=
  digits.foldl (fun n c => n * base + (hexDigit? c).getD 0) 0

def sign : List Char → Bool × List Char
  | '-' :: s => (true, s)
  | '+' :: s => (false, s)
  | s => (false, s)

/-- Whether parts may be joined by underscores: digits stand on both sides of each. -/
def areJoined (isDigit : Char → Bool) : List (List Char) → Bool
  | a :: b :: parts =>
    a.getLast?.any isDigit && b.head?.any isDigit && areJoined isDigit (b :: parts)
  | _ => true

def joins (isDigit : Char → Bool) (s : List Char) : Bool := areJoined isDigit (s.splitOn '_')

def dropUnderscores (s : List Char) : List Char := s.filter (· != '_')

/-- Whether a number starts as it should: zero in front stands alone. -/
def isPlainStart (s : List Char) : Bool := s.head? != some '0' || s == ['0']

def isExponentMark (c : Char) : Bool := c == 'e' || c == 'E'

def isForeign (c : Char) : Bool := c == ' ' || c == '.' || isExponentMark c

/-- A decimal integer: digits, and after an underscore whatever an underscore may join. -/
def decimal? (word : List Char) : Option Numeral :=
  let s := (sign word).2
  let rest := s.dropWhile Char.isDigit
  if !s.isEmpty && isPlainStart s && (rest.isEmpty || rest.head? == some '_') &&
      !rest.any isForeign && joins (isDigitOf 16) word then
    some { base := 10, text := dropUnderscores word }
  else none

def based? (base : Nat) (s : List Char) : Option Numeral :=
  if s.all (fun c => isDigitOf base c || c == '_') && joins (isDigitOf base) s then
    some { base, text := dropUnderscores s }
  else none

def integer? : List Char → Option Numeral
  | '0' :: 'x' :: s => based? 16 s
  | '0' :: 'o' :: s => based? 8 s
  | '0' :: 'b' :: s => based? 2 s
  | s => decimal? s

/-- The number that a numeral stands for; none unless it has digits, all of its base. -/
def integerValue? (n : Numeral) : Option Int :=
  let (negative, digits) := sign n.text
  if !digits.isEmpty && digits.all (isDigitOf n.base) then
    some (if negative then -(value n.base digits : Int) else value n.base digits)
  else none

def digits? (s : List Char) : Option (List Char) :=
  let digits := dropUnderscores s
  if !digits.isEmpty && digits.all Char.isDigit then some digits else none

def whole? (s : List Char) : Option (List Char) := if isPlainStart s then digits? s else none

def exponent? : List Char → Option Int
  | [] => some 0
  | _ :: s =>
    let (negative, s) := sign s
    (digits? s).map fun d => if negative then -(value 10 d : Int) else value 10 d

def fraction? : List Char → Option (List Char)
  | [] => some []
  | _ :: s => digits? s

def float? (word : List Char) : Option FloatValue :=
  let (negative, s) := sign word
  if s = ['i', 'n', 'f'] then some (.infinite negative)
  else if s = ['n', 'a', 'n'] then some .notANumber
  else
    let mantissa := s.takeWhile fun c => !isExponentMark c
    let power := s.dropWhile fun c => !isExponentMark c
    let before := mantissa.takeWhile (· != '.')
    let after := mantissa.dropWhile (· != '.')
    if power.isEmpty && after.isEmpty || !joins Char.isDigit word then none
    else do
      let before ← whole? before
      let after ← fraction? after
      let power ← exponent? power
      return .finite negative (value 10 (before ++ after)) (power - after.length)

def shown? : FloatValue → Option String
  | .infinite negative => some (if negative then "-inf" else "inf")
  | .notANumber => some "NaN"
  | .finite negative digits exponent =>
    (Decimal.ofDecimal? digits exponent).map fun b =>
      (if negative then "-" else "") ++ String.ofList (Decimal.shortest b).positional

end ImageRelease.Toml.Number
