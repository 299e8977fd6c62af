import Mathlib.Data.List.Basic
import ImageRelease.Proofs.Version.Grammar
import ImageRelease.Toml.Value

/-! Decimal integers of documents. Digits without a needless zero in front are no date or time and no other number, and
stand for the number that they are written for.
-/
namespace ImageRelease.Toml

variable {digits s rest : List Char} {c d : Char} {n low high : Nat}

theorem numeral_toDigits (n : Nat) : Version.Numeral (Nat.toDigits 10 n) := by
  refine ⟨Nat.toDigits_ne_nil, Version.isDigit_numeral n, ?_⟩
  induction n using Nat.strongRecOn with
  | ind n ih =>
    by_cases small : n < 10
    · rw [Nat.toDigits_of_lt_base small]
      simp
    · -- The first digit is the first one of the number without its last digit, which is not zero.
      have shorter : n / 10 < n := by omega
      have split := Nat.toDigits_append_toDigits (b := 10) (n := n / 10) (d := n % 10) (by decide) (by omega) (by omega)
      rw [Nat.div_add_mod] at split
      have same : (Nat.toDigits 10 n).head? = (Nat.toDigits 10 (n / 10)).head? := by
        rw [← split, List.head?_append]
        exact Option.or_of_isSome (List.isSome_head?.mpr Nat.toDigits_ne_nil)
      intro zero
      have value : Nat.ofDigitChars 10 (Nat.toDigits 10 (n / 10)) 0 = n / 10 :=
        Nat.ofDigitChars_toDigits (by decide) (by decide)
      rw [ih (n / 10) shorter (same.symm.trans zero)] at value
      change 0 = n / 10 at value
      omega

theorem ne_of_outside {p : Char → Bool} (inside : p c = true) (outside : p d = false) : c ≠ d := by
  rintro rfl
  exact Bool.false_ne_true (outside.symm.trans inside)

namespace Moment

theorem mark_of_digits {m : Char} (decimal : ∀ c ∈ digits, c.isDigit = true) (other : m.isDigit = false) :
    mark m digits = none := by
  cases digits with
  | nil => rfl
  | cons c digits => exact if_neg (ne_of_outside (decimal c List.mem_cons_self) other)

theorem two_suffix (taken : two low high s = some (n, rest)) : rest <:+ s := by
  unfold two at taken
  split at taken
  · next a b s =>
    simp only [Option.bind_eq_bind, Option.bind_eq_some_iff, Option.ite_none_right_eq_some] at taken
    obtain ⟨tens, -, ones, -, -, same⟩ := taken
    obtain ⟨-, rfl⟩ := Prod.mk.inj (Option.some.inj same)
    exact ⟨[a, b], rfl⟩
  · contradiction

theorem four_suffix (taken : four s = some (n, rest)) : rest <:+ s := by
  unfold four at taken
  split at taken
  · next a b c d s =>
    simp only [Option.bind_eq_bind, Option.bind_eq_some_iff] at taken
    obtain ⟨thousands, -, hundreds, -, tens, -, ones, -, same⟩ := taken
    obtain ⟨-, rfl⟩ := Prod.mk.inj (Option.some.inj same)
    exact ⟨[a, b, c, d], rfl⟩
  · contradiction

theorem isMoment_of_digits (decimal : ∀ c ∈ digits, c.isDigit = true) : isMoment digits = false := by
  have undated : afterDate? digits = none := by
    cases year : four digits with
    | none => simp [afterDate?, year]
    | some found =>
      have unmarked : mark '-' found.2 = none :=
        mark_of_digits (fun c member => decimal c ((four_suffix year).subset member)) (by decide)
      simp [afterDate?, year, unmarked]
  have untimed : afterTime? digits = none := by
    cases hour : two 0 23 digits with
    | none => simp [afterTime?, hour]
    | some found =>
      have unmarked : mark ':' found.2 = none :=
        mark_of_digits (fun c member => decimal c ((two_suffix hour).subset member)) (by decide)
      simp [afterTime?, hour, unmarked]
  simp [isMoment, undated, untimed]

end Moment

namespace Number

theorem hexDigit?_of_digit (digit : c.isDigit = true) : hexDigit? c = some (c.toNat - '0'.toNat) := if_pos digit

theorem isDigitOf_ten (digit : c.isDigit = true) : isDigitOf 10 c = true := by
  obtain ⟨small, -⟩ := Version.digitChar_of_isDigit digit
  rw [isDigitOf, hexDigit?_of_digit digit]
  exact decide_eq_true small

theorem sign_of_numeral (numeral : Version.Numeral digits) : sign digits = (false, digits) := by
  unfold sign
  split
  · exact absurd (numeral.decimal '-' List.mem_cons_self) (by decide)
  · exact absurd (numeral.decimal '+' List.mem_cons_self) (by decide)
  · rfl

theorem integer?_of_numeral (numeral : Version.Numeral digits) :
    integer? digits = some { base := 10, text := digits } := by
  have joined : '_' ∉ digits := fun member => absurd (numeral.decimal '_' member) (by decide)
  have plain : isPlainStart digits = true := by
    by_cases zero : digits.head? = some '0'
    · rw [numeral.plain zero]
      rfl
    · simp [isPlainStart, zero]
  have all : digits.dropWhile Char.isDigit = [] := List.dropWhile_eq_nil_iff.mpr numeral.decimal
  have decimal : decimal? digits = some { base := 10, text := digits } := by
    have kept : dropUnderscores digits = digits := by
      rw [dropUnderscores, List.filter_eq_self]
      intro c member
      exact bne_iff_ne.mpr (ne_of_outside (numeral.decimal c member) (by decide))
    have joins : joins (isDigitOf 16) digits = true := by
      rw [joins, List.splitOn_eq_singleton joined]
      rfl
    simp [decimal?, sign_of_numeral numeral, all, plain, joins, kept, numeral.present]
  unfold integer?
  split
  · exact absurd (numeral.decimal 'x' (by simp)) (by decide)
  · exact absurd (numeral.decimal 'o' (by simp)) (by decide)
  · exact absurd (numeral.decimal 'b' (by simp)) (by decide)
  · exact decimal

theorem value_of_digits (decimal : ∀ c ∈ digits, c.isDigit = true) :
    value 10 digits = Nat.ofDigitChars 10 digits 0 := by
  rw [value, Nat.ofDigitChars_eq_foldl]
  refine List.foldl_ext _ _ _ fun n c member => ?_
  rw [hexDigit?_of_digit (decimal c member), Option.getD_some, Nat.mul_comm]

theorem integerValue?_of_numeral (numeral : Version.Numeral digits) :
    integerValue? { base := 10, text := digits } = some (Nat.ofDigitChars 10 digits 0 : Int) := by
  have all : digits.all (isDigitOf 10) = true :=
    List.all_eq_true.mpr fun c member => isDigitOf_ten (numeral.decimal c member)
  simp [integerValue?, sign_of_numeral numeral, all, numeral.present, value_of_digits numeral.decimal]

end Number

theorem isWordChar_of_digit (digit : c.isDigit = true) : isWordChar c = true := by
  have letterless : ['.', '=', ',', '[', ']', '\x7b', '\x7d', ' ', '\t', '#', '\r', '\n'].all (!·.isDigit) = true := by
    decide
  have outside : ¬isDelimiter c = true := by
    intro delimits
    have letter := List.all_eq_true.mp letterless c (List.contains_iff_mem.mp delimits)
    simp [digit] at letter
  simp [isWordChar, outside]

theorem takeWord_of_digits (decimal : ∀ c ∈ digits, c.isDigit = true) (rest : List Char) :
    takeWord (digits ++ '\n' :: rest) = (digits, '\n' :: rest) := by
  induction digits with
  | nil => rfl
  | cons c digits ih =>
    obtain ⟨digit, later⟩ := List.forall_mem_cons.mp decimal
    rw [List.cons_append, takeWord, isWordChar_of_digit digit, ih later]
    rfl

theorem ofWord?_of_numeral (numeral : Version.Numeral digits) (span : Span) :
    ofWord? span digits = some (.integer span { base := 10, text := digits }) := by
  have letterless : ∀ {word : List Char}, (word.any fun c => !c.isDigit) = true → digits ≠ word := by
    rintro word other rfl
    obtain ⟨c, member, letter⟩ := List.any_eq_true.mp other
    simp [numeral.decimal c member] at letter
  rw [ofWord?, if_neg (letterless (by decide +kernel)), if_neg (letterless (by decide +kernel)),
    Moment.isMoment_of_digits numeral.decimal, Number.integer?_of_numeral numeral]
  rfl

end ImageRelease.Toml
