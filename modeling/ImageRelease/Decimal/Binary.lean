/-!
Numbers of the form `significand · 2 ^ exponent` with 53 significant bits, the least exponent being
-1074, and the number of that form nearest to a decimal; a tie goes to the even significand.
-/
namespace ImageRelease.Decimal

structure Binary where
  significand : Nat
  exponent : Int
deriving DecidableEq, Repr

def twoTo (n : Nat) : Nat := Nat.pow 2 n

def tenTo (n : Nat) : Nat := Nat.pow 10 n

/-- Significands are below this bound, and at or above half of it unless the exponent is least. -/
def significandBound : Nat := twoTo 53

def leastExponent : Int := -1074

def greatestExponent : Int := 971

/-- The quotient to the nearest integer; a tie goes to the even one. -/
def roundDiv (num den : Nat) : Nat :=
  let q := num / den
  let r := num % den
  if 2 * r < den then q
  else if 2 * r = den then q + q % 2
  else q + 1

/-- Shifts the weight `2 ^ e` into the numerator or the denominator of a quotient. -/
def scaled (num den : Nat) (e : Int) : Nat × Nat :=
  if e < 0 then (num * twoTo (-e).toNat, den) else (num, den * twoTo e.toNat)

/-- The binary number nearest to a quotient; none when that exceeds the greatest one. -/
def nearestBinary? (num den : Nat) : Option Binary :=
  if num = 0 then some ⟨0, leastExponent⟩
  else
    let guess : Int := (num.log2 : Int) - (den.log2 : Int) - 53
    let fits (e : Int) : Bool :=
      let (n, d) := scaled num den e
      n < significandBound * d
    let e := if fits guess then guess else if fits (guess + 1) then guess + 1 else guess + 2
    let e := max e leastExponent
    let (n, d) := scaled num den e
    let m := roundDiv n d
    let (m, e) := if m = significandBound then (significandBound / 2, e + 1) else (m, e)
    if greatestExponent < e then none else some ⟨m, e⟩

/-- Decimals with more digits before or after the point than this are beyond every binary number. -/
def magnitudeBound : Int := 400

def ofDecimal? (digits : Nat) (exponent : Int) : Option Binary :=
  let length : Int := (Nat.toDigits 10 digits).length
  if digits = 0 || length + exponent < -magnitudeBound then some ⟨0, leastExponent⟩
  else if magnitudeBound < length + exponent then none
  else if exponent < 0 then nearestBinary? digits (tenTo (-exponent).toNat)
  else nearestBinary? (digits * tenTo exponent.toNat) 1

end ImageRelease.Decimal
