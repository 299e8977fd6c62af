import ImageRelease.Decimal.Binary

/-!
The shortest decimal that reads back as a given binary number, and its positional text. Decimals of
1, 2, … 17 digits are tried in turn: the first grid with a point that reads back wins, and of two
such points the nearer one.
-/
namespace ImageRelease.Decimal

/-- A decimal `digits · 10 ^ exponent`. -/
structure Digits where
  digits : Nat
  exponent : Int
deriving DecidableEq, Repr

structure Quotient where
  num : Nat
  den : Nat

def Binary.toQuotient (b : Binary) : Quotient :=
  if b.exponent < 0 then ⟨b.significand, twoTo (-b.exponent).toNat⟩
  else ⟨b.significand * twoTo b.exponent.toNat, 1⟩

/-- The number of digits before the point, or minus the number of zeros after it. -/
def Quotient.magnitude (q : Quotient) : Int :=
  let whole := q.num / q.den
  if 0 < whole then (Nat.toDigits 10 whole).length
  else
    let flipped := (q.den + q.num - 1) / q.num
    let length := (Nat.toDigits 10 flipped).length
    if flipped = tenTo (length - 1) then 2 - (length : Int) else 1 - (length : Int)

/-- The two neighbours of the number among the multiples of `10 ^ exponent`, and whether the upper
one is nearer. -/
def neighbours (q : Quotient) (exponent : Int) : Nat × Nat × Bool :=
  let (n, d) :=
    if exponent < 0 then (q.num * tenTo (-exponent).toNat, q.den)
    else (q.num, q.den * tenTo exponent.toNat)
  let low := n / d
  (low, low + 1, d < 2 * (n % d))

def readsBack (b : Binary) (exponent : Int) (digits : Nat) : Bool :=
  ofDecimal? digits exponent == some b

def onGrid? (b : Binary) (exponent : Int) : Option Digits :=
  let (low, high, upper) := neighbours b.toQuotient exponent
  let near := if upper then high else low
  let far := if upper then low else high
  if readsBack b exponent near then some ⟨near, exponent⟩
  else if readsBack b exponent far then some ⟨far, exponent⟩
  else none

/-- The decimal with the fewest digits that reads back as the number. -/
def shortest (b : Binary) : Digits :=
  if b.significand = 0 then ⟨0, 0⟩
  else
    let magnitude := b.toQuotient.magnitude
    ((List.range 17).findSome? fun k : Nat => onGrid? b (magnitude - (k + 1))).getD ⟨0, 0⟩

/-- The decimal written without an exponent, with at least one digit on both sides of the point. -/
def Digits.positional (d : Digits) : List Char :=
  let written := Nat.toDigits 10 d.digits
  if 0 ≤ d.exponent then
    written ++ List.replicate (if d.digits = 0 then 0 else d.exponent.toNat) '0' ++ ['.', '0']
  else
    let places := (-d.exponent).toNat
    let padded := List.replicate (places + 1 - written.length) '0' ++ written
    let (whole, part) := padded.splitAt (padded.length - places)
    let part := (part.reverse.dropWhile (· == '0')).reverse
    whole ++ '.' :: (if part.isEmpty then ['0'] else part)

end ImageRelease.Decimal
