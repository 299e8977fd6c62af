/-!
UTF-8 read leniently. A well-formed sequence becomes its character; the longest part of a sequence
that could still have become one, or else a single byte, becomes one replacement character.
-/
namespace ImageRelease.Text

/-- What a leading byte announces: the number of bytes that follow, the range of the first of them,
and the bits that the leading byte contributes. -/
structure Lead where
  tails : Nat
  low : Nat
  high : Nat
  bits : Nat

/-- The leading bytes of well-formed sequences. Overlong forms, surrogates and values past the last
code point are excluded by the range of the second byte. -/
def lead? (b : Nat) : Option Lead :=
  if b ≤ 0x7F then some ⟨0, 0x80, 0xBF, b⟩
  else if 0xC2 ≤ b && b ≤ 0xDF then some ⟨1, 0x80, 0xBF, b - 0xC0⟩
  else if b == 0xE0 then some ⟨2, 0xA0, 0xBF, 0⟩
  else if b == 0xED then some ⟨2, 0x80, 0x9F, 0xD⟩
  else if 0xE1 ≤ b && b ≤ 0xEF then some ⟨2, 0x80, 0xBF, b - 0xE0⟩
  else if b == 0xF0 then some ⟨3, 0x90, 0xBF, 0⟩
  else if 0xF1 ≤ b && b ≤ 0xF3 then some ⟨3, 0x80, 0xBF, b - 0xF0⟩
  else if b == 0xF4 then some ⟨3, 0x80, 0x8F, 4⟩
  else none

def replacement : Char := '\uFFFD'

/-- Takes the announced following bytes; the first one that does not fit ends the sequence and is
left in place. -/
def takeTails : (tails low high bits : Nat) → List UInt8 → Char × List UInt8
  | 0, _, _, bits, rest => (Char.ofNat bits, rest)
  | _ + 1, _, _, _, [] => (replacement, [])
  | tails + 1, low, high, bits, b :: rest =>
    if low ≤ b.toNat && b.toNat ≤ high then
      takeTails tails 0x80 0xBF (bits * 64 + (b.toNat - 0x80)) rest
    else (replacement, b :: rest)

theorem length_takeTails_le (tails low high bits : Nat) (bytes : List UInt8) :
    (takeTails tails low high bits bytes).2.length ≤ bytes.length := by
  fun_induction takeTails tails low high bits bytes <;> simp_all
  omega

def nextChar (b : UInt8) (rest : List UInt8) : Char × List UInt8 :=
  match lead? b.toNat with
  | some l => takeTails l.tails l.low l.high l.bits rest
  | none => (replacement, rest)

theorem length_nextChar_le (b : UInt8) (rest : List UInt8) :
    (nextChar b rest).2.length ≤ rest.length := by
  unfold nextChar
  split
  · exact length_takeTails_le ..
  · exact Nat.le_refl _

def decodeLossyBytes : List UInt8 → List Char
  | [] => []
  | b :: rest => (nextChar b rest).1 :: decodeLossyBytes (nextChar b rest).2
termination_by bytes => bytes.length
decreasing_by
  have := length_nextChar_le b rest
  simp only [List.length_cons]
  omega

def decodeLossy (bytes : ByteArray) : String := String.ofList (decodeLossyBytes bytes.toList)

def decode? (bytes : ByteArray) : Option String := String.fromUTF8? bytes

theorem decode?_toUTF8 (s : String) : decode? s.toUTF8 = some s := by
  have : s.toUTF8.IsValidUTF8 := s.isValidUTF8
  simp only [decode?, String.fromUTF8?, dif_pos this]
  rfl

end ImageRelease.Text
