import Mathlib.Data.Char
import Mathlib.Data.List.Lex
import Mathlib.Tactic.Ring
import ImageRelease.Proofs.Version.Grammar
import ImageRelease.Version.Order

/-! The order of versions is linear, and it refines the precedence of Semantic Versioning. The precedence is given by
its rules, with numbers compared by their values, and build metadata takes no part in it.
-/
namespace ImageRelease.Version

open Std

variable {α β : Type} {a b : Identifier} {as bs : List Identifier} {v w : Version}

/-! ### Linear comparisons -/

theorem transCmp_on (f : α → β) (cmp : β → β → Ordering) [TransCmp cmp] :
    TransCmp fun a b => cmp (f a) (f b) where
  eq_swap {a b} :=
    have swap : cmp (f a) (f b) = (cmp (f b) (f a)).swap := OrientedCmp.eq_swap
    swap
  isLE_trans {a _ c} below above :=
    have trans : (cmp (f a) (f c)).isLE := TransCmp.isLE_trans below above
    trans

instance : TransCmp compareNumerals :=
  inferInstanceAs (TransCmp (compareLex (compareOn List.length) Ord.compare))

instance : LawfulEqCmp compareNumerals where
  eq_of_compare same := LawfulEqOrd.eq_of_compare (Ordering.then_eq_eq.mp same).2

/-- Numeric identifiers by a comparison of their own, others by text, numeric ones lower. -/
def compareKinds (numeric : Identifier → Identifier → Ordering) (a b : Identifier) : Ordering :=
  match isNumeric a, isNumeric b with
  | true, true => numeric a b
  | true, false => .lt
  | false, true => .gt
  | false, false => Ord.compare a b

section

variable {numeric : Identifier → Identifier → Ordering}

instance [TransCmp numeric] : TransCmp (compareKinds numeric) where
  eq_swap {a b} := by
    cases first : isNumeric a <;> cases second : isNumeric b <;> simp only [compareKinds, first, second]
    · exact OrientedOrd.eq_swap
    · rfl
    · rfl
    · have swap : numeric a b = (numeric b a).swap := OrientedCmp.eq_swap
      exact swap
  isLE_trans {a b c} below above := by
    cases first : isNumeric a <;> cases second : isNumeric b <;> cases third : isNumeric c <;>
      simp only [compareKinds, first, second, third] at below above ⊢ <;> try contradiction
    · exact TransOrd.isLE_trans below above
    · rfl
    · rfl
    · exact TransCmp.isLE_trans below above

instance [TransCmp numeric] [LawfulEqCmp numeric] : LawfulEqCmp (compareKinds numeric) where
  eq_of_compare {a b} same := by
    cases first : isNumeric a <;> cases second : isNumeric b <;> simp only [compareKinds, first, second] at same <;>
      try contradiction
    · exact LawfulEqOrd.eq_of_compare same
    · exact LawfulEqCmp.eq_of_compare same

end

instance : TransCmp comparePrereleaseIdentifier := inferInstanceAs (TransCmp (compareKinds compareNumerals))

instance : LawfulEqCmp comparePrereleaseIdentifier := inferInstanceAs (LawfulEqCmp (compareKinds compareNumerals))

theorem comparePrerelease_eq :
    comparePrerelease = compareLex (compareOn List.isEmpty) (List.compareLex comparePrereleaseIdentifier) := by
  funext as bs
  cases as <;> cases bs <;> rfl

instance : TransCmp comparePrerelease := by
  rw [comparePrerelease_eq]
  infer_instance

instance : LawfulEqCmp comparePrerelease where
  eq_of_compare same := by
    rw [comparePrerelease_eq] at same
    exact LawfulEqCmp.eq_of_compare (compareLex_eq_eq.mp same).2

/-- Numbers that may have leading zeros, by value and then by the number of zeros. -/
def comparePadded (a b : Identifier) : Ordering :=
  (compareNumerals (a.dropWhile (· == '0')) (b.dropWhile (· == '0'))).then (Ord.compare a.length b.length)

instance : TransCmp comparePadded :=
  have : TransCmp fun a b : Identifier => compareNumerals (a.dropWhile (· == '0')) (b.dropWhile (· == '0')) :=
    transCmp_on _ compareNumerals
  inferInstanceAs (TransCmp (compareLex _ (compareOn List.length)))

theorem replicate_append_dropWhile_zero (a : Identifier) :
    List.replicate (a.takeWhile (· == '0')).length '0' ++ a.dropWhile (· == '0') = a := by
  have zeros : a.takeWhile (· == '0') = List.replicate (a.takeWhile (· == '0')).length '0' := by
    refine List.eq_replicate_iff.mpr ⟨rfl, fun c member => ?_⟩
    simpa using List.mem_takeWhile_imp member
  rw [← zeros, List.takeWhile_append_dropWhile]

instance : LawfulEqCmp comparePadded where
  eq_of_compare {a b} same := by
    obtain ⟨values, lengths⟩ := Ordering.then_eq_eq.mp same
    have digits : a.dropWhile (· == '0') = b.dropWhile (· == '0') := LawfulEqCmp.eq_of_compare values
    have longAs : a.length = b.length := LawfulEqOrd.eq_of_compare lengths
    have zerosA := replicate_append_dropWhile_zero a
    have zerosB := replicate_append_dropWhile_zero b
    have count : (a.takeWhile (· == '0')).length = (b.takeWhile (· == '0')).length := by
      have lengthA := congrArg List.length zerosA
      have lengthB := congrArg List.length zerosB
      rw [List.length_append, List.length_replicate] at lengthA lengthB
      rw [digits] at lengthA
      omega
    rw [← zerosA, ← zerosB, count, digits]

instance : TransCmp compareBuildIdentifier := inferInstanceAs (TransCmp (compareKinds comparePadded))

instance : LawfulEqCmp compareBuildIdentifier := inferInstanceAs (LawfulEqCmp (compareKinds comparePadded))

instance : TransCmp compareBuild := inferInstanceAs (TransCmp (List.compareLex compareBuildIdentifier))

instance : LawfulEqCmp compareBuild := inferInstanceAs (LawfulEqCmp (List.compareLex compareBuildIdentifier))

instance : TransCmp comparePrecedence :=
  have : TransCmp fun v w : Version => comparePrerelease v.prerelease w.prerelease := transCmp_on _ comparePrerelease
  inferInstanceAs (TransCmp (compareLex (compareOn Version.major)
    (compareLex (compareOn Version.minor) (compareLex (compareOn Version.patch) _))))

instance : TransCmp Version.compare :=
  have : TransCmp fun v w : Version => compareBuild v.build w.build := transCmp_on _ compareBuild
  inferInstanceAs (TransCmp (compareLex comparePrecedence _))

theorem comparePrecedence_eq_eq_iff :
    comparePrecedence v w = .eq ↔
      v.major = w.major ∧ v.minor = w.minor ∧ v.patch = w.patch ∧ v.prerelease = w.prerelease := by
  simp [comparePrecedence]

instance : LawfulEqCmp Version.compare where
  eq_of_compare {v w} same := by
    obtain ⟨precedence, build⟩ := Ordering.then_eq_eq.mp same
    obtain ⟨major, minor, patch, prerelease⟩ := comparePrecedence_eq_eq_iff.mp precedence
    have build : v.build = w.build := LawfulEqCmp.eq_of_compare build
    cases v
    cases w
    simp_all

/-! ### Precedence -/

/-- Identifiers that are digits are lower by value, the others by text, and numbers are lower than all others. -/
inductive IdentifierPrecedes (a b : Identifier) : Prop where
  | numbers (first : ∀ c ∈ a, c.isDigit = true) (second : ∀ c ∈ b, c.isDigit = true)
      (less : Nat.ofDigitChars 10 a 0 < Nat.ofDigitChars 10 b 0)
  | number (first : ∀ c ∈ a, c.isDigit = true) (second : ¬∀ c ∈ b, c.isDigit = true)
  | texts (first : ¬∀ c ∈ a, c.isDigit = true) (second : ¬∀ c ∈ b, c.isDigit = true) (less : List.Lex (· < ·) a b)

/-- A pre-release is lower than its release. Of two pre-releases the first identifiers that differ decide, and where
there are none the longer one is higher. -/
inductive PrereleasePrecedes (as bs : List Identifier) : Prop where
  | release (present : as ≠ []) (absent : bs = [])
  | identifiers (present : as ≠ []) (less : List.Lex IdentifierPrecedes as bs)

/-- The precedence of Semantic Versioning: the first difference decides, and build metadata is none. -/
inductive Precedes (v w : Version) : Prop where
  | major (less : v.major < w.major)
  | minor (major : v.major = w.major) (less : v.minor < w.minor)
  | patch (major : v.major = w.major) (minor : v.minor = w.minor) (less : v.patch < w.patch)
  | prerelease (major : v.major = w.major) (minor : v.minor = w.minor) (patch : v.patch = w.patch)
      (less : PrereleasePrecedes v.prerelease w.prerelease)

/-! ### Numbers and texts -/

theorem compareLex_eq_lt_iff {cmp : α → α → Ordering} [LawfulEqCmp cmp] {below : α → α → Prop} {xs ys : List α}
    (agrees : ∀ x ∈ xs, ∀ y ∈ ys, cmp x y = .lt ↔ below x y) :
    List.compareLex cmp xs ys = .lt ↔ List.Lex below xs ys := by
  induction xs generalizing ys with
  | nil =>
    cases ys with
    | nil => simp [List.compareLex_nil_nil]
    | cons y ys => simp [List.compareLex_nil_cons]
  | cons x xs ih =>
    cases ys with
    | nil => simp [List.compareLex_cons_nil]
    | cons y ys =>
      have first := agrees x List.mem_cons_self y List.mem_cons_self
      have later := ih fun x inside y there => agrees x (List.mem_cons_of_mem _ inside) y (List.mem_cons_of_mem _ there)
      rw [List.compareLex_cons_cons, Ordering.then_eq_lt, List.cons_lex_cons_iff, first, later,
        LawfulEqCmp.compare_eq_iff_eq]

theorem compare_text_eq_lt_iff : Ord.compare a b = .lt ↔ List.Lex (· < ·) a b :=
  compareLex_eq_lt_iff fun _ _ _ _ => compare_lt_iff_lt

/-- Digits behind a number keep it between two multiples of a power of ten. -/
theorem ofDigitChars_bounds (decimal : ∀ c ∈ a, c.isDigit = true) (n : Nat) :
    n * 10 ^ a.length ≤ Nat.ofDigitChars 10 a n ∧ Nat.ofDigitChars 10 a n < (n + 1) * 10 ^ a.length := by
  induction a generalizing n with
  | nil => simp
  | cons c a ih =>
    obtain ⟨digit, later⟩ := List.forall_mem_cons.mp decimal
    obtain ⟨small, -⟩ := digitChar_of_isDigit digit
    obtain ⟨low, high⟩ := ih later (10 * n + (c.toNat - '0'.toNat))
    have power : 10 ^ (c :: a).length = 10 * 10 ^ a.length := by rw [List.length_cons, Nat.pow_succ, Nat.mul_comm]
    rw [Nat.ofDigitChars_cons, power]
    constructor
    · calc
        n * (10 * 10 ^ a.length) = 10 * n * 10 ^ a.length := by ring
        _ ≤ (10 * n + (c.toNat - '0'.toNat)) * 10 ^ a.length := Nat.mul_le_mul_right _ (Nat.le_add_right _ _)
        _ ≤ _ := low
    · calc
        _ < (10 * n + (c.toNat - '0'.toNat) + 1) * 10 ^ a.length := high
        _ ≤ (10 * n + 10) * 10 ^ a.length := Nat.mul_le_mul_right _ (by omega)
        _ = (n + 1) * (10 * 10 ^ a.length) := by ring

theorem ofDigitChars_lt_of_lt (decimalA : ∀ c ∈ a, c.isDigit = true) (decimalB : ∀ c ∈ b, c.isDigit = true)
    (long : a.length = b.length) {m n : Nat} (less : m < n) : Nat.ofDigitChars 10 a m < Nat.ofDigitChars 10 b n := by
  calc
    Nat.ofDigitChars 10 a m < (m + 1) * 10 ^ a.length := (ofDigitChars_bounds decimalA m).2
    _ ≤ n * 10 ^ b.length := by rw [long]; exact Nat.mul_le_mul_right _ less
    _ ≤ Nat.ofDigitChars 10 b n := (ofDigitChars_bounds decimalB n).1

/-- Of digits that are as many, those that come first as a text have the lower value. -/
theorem ofDigitChars_lt_of_lex (decimalA : ∀ c ∈ a, c.isDigit = true) (decimalB : ∀ c ∈ b, c.isDigit = true)
    (long : a.length = b.length) (less : List.Lex (· < ·) a b) (n : Nat) :
    Nat.ofDigitChars 10 a n < Nat.ofDigitChars 10 b n := by
  induction less generalizing n with
  | nil => simp at long
  | cons less ih =>
    rw [Nat.ofDigitChars_cons, Nat.ofDigitChars_cons]
    exact ih (List.forall_mem_cons.mp decimalA).2 (List.forall_mem_cons.mp decimalB).2 (Nat.succ.inj long) _
  | @rel c a d b less =>
    obtain ⟨digitA, laterA⟩ := List.forall_mem_cons.mp decimalA
    obtain ⟨digitB, laterB⟩ := List.forall_mem_cons.mp decimalB
    have zero : '0'.toNat ≤ c.toNat := by
      have bounds : 48 ≤ c.toNat ∧ c.toNat ≤ 57 := by simpa [Char.isDigit, UInt32.le_iff_toNat_le] using digitA
      exact bounds.1
    have heads : c.toNat < d.toNat := less
    rw [Nat.ofDigitChars_cons, Nat.ofDigitChars_cons]
    exact ofDigitChars_lt_of_lt laterA laterB (Nat.succ.inj long) (by omega)

theorem lt_of_compareNumerals (first : Numeral a) (second : Numeral b) (less : compareNumerals a b = .lt) :
    Nat.ofDigitChars 10 a 0 < Nat.ofDigitChars 10 b 0 := by
  rcases Ordering.then_eq_lt.mp less with shorter | ⟨long, less⟩
  · -- The longer number has a first digit that is not zero, so it is at least a power of ten.
    have shorter : a.length < b.length := Nat.compare_eq_lt.mp shorter
    have positive : 0 < a.length := List.length_pos_iff.mpr first.present
    have high : Nat.ofDigitChars 10 a 0 < 10 ^ a.length := by simpa using (ofDigitChars_bounds first.decimal 0).2
    have low : 10 ^ a.length ≤ Nat.ofDigitChars 10 b 0 := by
      rw [← Nat.not_lt, ← Nat.length_toDigits_le_iff (by decide) positive]
      have written : Nat.toDigits 10 (Nat.ofDigitChars 10 b 0) = b := second.numeral_ofDigitChars
      rw [written]
      omega
    omega
  · exact ofDigitChars_lt_of_lex first.decimal second.decimal (LawfulEqOrd.eq_of_compare long)
      (compare_text_eq_lt_iff.mp less) 0

theorem compareNumerals_eq_lt_iff (first : Numeral a) (second : Numeral b) :
    compareNumerals a b = .lt ↔ Nat.ofDigitChars 10 a 0 < Nat.ofDigitChars 10 b 0 := by
  refine ⟨lt_of_compareNumerals first second, fun less => ?_⟩
  cases compared : compareNumerals a b with
  | lt => rfl
  | eq =>
    obtain rfl := LawfulEqCmp.eq_of_compare compared
    exact absurd less (Nat.lt_irrefl _)
  | gt =>
    have above := lt_of_compareNumerals second first (OrientedCmp.lt_of_gt compared)
    omega

/-! ### The order and precedence -/

theorem comparePrereleaseIdentifier_eq_lt_iff (first : Identifies .prerelease a) (second : Identifies .prerelease b) :
    comparePrereleaseIdentifier a b = .lt ↔ IdentifierPrecedes a b := by
  have digits (i : Identifier) : isNumeric i = true ↔ ∀ c ∈ i, c.isDigit = true := by simp [isNumeric]
  constructor
  · intro less
    cases kindA : isNumeric a <;> cases kindB : isNumeric b <;>
      simp only [comparePrereleaseIdentifier, kindA, kindB] at less <;> try contradiction
    all_goals
      have kindA' := digits a
      have kindB' := digits b
      simp only [kindA, kindB, Bool.false_eq_true, false_iff, true_iff] at kindA' kindB'
    · exact .texts kindA' kindB' (compare_text_eq_lt_iff.mp less)
    · exact .number kindA' kindB'
    · exact .numbers kindA' kindB'
        ((compareNumerals_eq_lt_iff (first.plain rfl kindA') (second.plain rfl kindB')).mp less)
  · rintro (⟨kindA, kindB, less⟩ | ⟨kindA, kindB⟩ | ⟨kindA, kindB, less⟩)
    · have compared := (compareNumerals_eq_lt_iff (first.plain rfl kindA) (second.plain rfl kindB)).mpr less
      rw [← digits] at kindA kindB
      simp only [comparePrereleaseIdentifier, kindA, kindB, compared]
    · rw [← digits] at kindA kindB
      simp [comparePrereleaseIdentifier, kindA, kindB]
    · rw [← digits] at kindA kindB
      simp [comparePrereleaseIdentifier, kindA, kindB, compare_text_eq_lt_iff.mpr less]

theorem comparePrerelease_eq_lt_iff (first : ∀ i ∈ as, Identifies .prerelease i)
    (second : ∀ i ∈ bs, Identifies .prerelease i) : comparePrerelease as bs = .lt ↔ PrereleasePrecedes as bs := by
  have lists : List.compareLex comparePrereleaseIdentifier as bs = .lt ↔ List.Lex IdentifierPrecedes as bs :=
    compareLex_eq_lt_iff fun i inside j there =>
      comparePrereleaseIdentifier_eq_lt_iff (first i inside) (second j there)
  cases as with
  | nil =>
    refine ⟨fun less => ?_, fun precedes => ?_⟩
    · cases bs <;> contradiction
    · rcases precedes with ⟨present, -⟩ | ⟨present, -⟩ <;> contradiction
  | cons i as =>
    cases bs with
    | nil => exact ⟨fun _ => .release (List.cons_ne_nil _ _) rfl, fun _ => rfl⟩
    | cons j bs =>
      have unmarked : comparePrerelease (i :: as) (j :: bs) =
          List.compareLex comparePrereleaseIdentifier (i :: as) (j :: bs) := rfl
      rw [unmarked, lists]
      refine ⟨.identifiers (List.cons_ne_nil _ _), fun precedes => ?_⟩
      rcases precedes with ⟨-, absent⟩ | ⟨-, less⟩
      · contradiction
      · exact less

theorem prerelease_of_parse {text : String} (parsed : parse text = .ok v) :
    ∀ i ∈ v.prerelease, Identifies .prerelease i := by
  obtain ⟨p, lawful, -, rfl⟩ := parse_ok_iff.mp parsed
  exact lawful.prerelease

theorem comparePrecedence_eq_lt_iff (first : ∀ i ∈ v.prerelease, Identifies .prerelease i)
    (second : ∀ i ∈ w.prerelease, Identifies .prerelease i) : comparePrecedence v w = .lt ↔ Precedes v w := by
  simp only [comparePrecedence, Ordering.then_eq_lt, Nat.compare_eq_lt, Nat.compare_eq_eq,
    comparePrerelease_eq_lt_iff first second]
  constructor
  · rintro (less | ⟨major, less | ⟨minor, less | ⟨patch, less⟩⟩⟩)
    · exact .major less
    · exact .minor major less
    · exact .patch major minor less
    · exact .prerelease major minor patch less
  · rintro (less | ⟨major, less⟩ | ⟨major, minor, less⟩ | ⟨major, minor, patch, less⟩)
    · exact .inl less
    · exact .inr ⟨major, .inl less⟩
    · exact .inr ⟨major, .inr ⟨minor, .inl less⟩⟩
    · exact .inr ⟨major, .inr ⟨minor, .inr ⟨patch, less⟩⟩⟩

theorem compare_of_precedes (first : ∀ i ∈ v.prerelease, Identifies .prerelease i)
    (second : ∀ i ∈ w.prerelease, Identifies .prerelease i) (precedes : Precedes v w) : Version.compare v w = .lt :=
  Ordering.then_eq_lt.mpr (.inl ((comparePrecedence_eq_lt_iff first second).mpr precedes))

theorem precedes_or_same (first : ∀ i ∈ v.prerelease, Identifies .prerelease i)
    (second : ∀ i ∈ w.prerelease, Identifies .prerelease i) :
    Precedes v w ∨ Precedes w v ∨ { v with build := [] } = { w with build := [] } := by
  cases compared : comparePrecedence v w with
  | lt => exact .inl ((comparePrecedence_eq_lt_iff first second).mp compared)
  | eq =>
    obtain ⟨major, minor, patch, prerelease⟩ := comparePrecedence_eq_eq_iff.mp compared
    exact .inr (.inr (by rw [major, minor, patch, prerelease]))
  | gt => exact .inr (.inl ((comparePrecedence_eq_lt_iff second first).mp (OrientedCmp.lt_of_gt compared)))

theorem text_eq_iff {s t : String} (first : parse s = .ok v) (second : parse t = .ok w) : v = w ↔ s = t := by
  constructor
  · rintro rfl
    exact String.toList_injective ((chars_of_parse first).symm.trans (chars_of_parse second))
  · rintro rfl
    exact Except.ok.inj (first.symm.trans second)

/-- Versions are in a linear order, in which they are equal if and only if their texts are. If one of two versions
precedes the other one, it is lower, whatever their build metadata, and if neither does, they differ in nothing else. -/
theorem ordered_linearly {s t : String} (first : parse s = .ok v) (second : parse t = .ok w) :
    ((Version.compare v w).isLE ∨ (Version.compare w v).isLE) ∧
    ((Version.compare v w).isLE → (Version.compare w v).isLE → v = w) ∧
    (∀ x, (Version.compare v w).isLE → (Version.compare w x).isLE → (Version.compare v x).isLE) ∧
    (Version.compare v w = .gt ↔ Version.compare w v = .lt) ∧ (Version.compare v w = .eq ↔ s = t) ∧
    (Precedes v w → Version.compare v w = .lt) ∧ (Precedes w v → Version.compare v w = .gt) ∧
    (Precedes v w ∨ Precedes w v ∨ { v with build := [] } = { w with build := [] }) := by
  have prereleaseV := prerelease_of_parse first
  have prereleaseW := prerelease_of_parse second
  refine ⟨?_, ?_, fun _ => TransCmp.isLE_trans, OrientedCmp.gt_iff_lt, ?_, compare_of_precedes prereleaseV prereleaseW, ?_,
    precedes_or_same prereleaseV prereleaseW⟩
  · cases compared : Version.compare v w with
    | lt => exact .inl rfl
    | eq => exact .inl rfl
    | gt => exact .inr (by rw [OrientedCmp.lt_of_gt compared]; rfl)
  · intro below above
    exact LawfulEqCmp.eq_of_compare (OrientedCmp.isLE_antisymm below above)
  · rw [← text_eq_iff first second]
    exact LawfulEqCmp.compare_eq_iff_eq
  · intro precedes
    exact OrientedCmp.gt_of_lt (compare_of_precedes prereleaseW prereleaseV precedes)

theorem ordered_linearly_candidates :
    ∃ v w x, parse "1.0.0-rc.2+b.07" = .ok v ∧ parse "1.0.0-rc.10+b" = .ok w ∧ parse "1.0.0" = .ok x ∧
      Precedes v w ∧ Version.compare v w = .lt ∧ Version.compare w v = .gt ∧ Version.compare w x = .lt ∧
      (Version.compare v x).isLE := by
  have first : parse "1.0.0-rc.2+b.07" = .ok ⟨1, 0, 0, ["rc".toList, "2".toList], ["b".toList, "07".toList]⟩ := by
    decide +kernel
  have second : parse "1.0.0-rc.10+b" = .ok ⟨1, 0, 0, ["rc".toList, "10".toList], ["b".toList]⟩ := by decide +kernel
  have third : parse "1.0.0" = .ok ⟨1, 0, 0, [], []⟩ := by decide +kernel
  have numbers : IdentifierPrecedes "2".toList "10".toList :=
    .numbers (List.all_eq_true.mp (by decide +kernel)) (List.all_eq_true.mp (by decide +kernel)) (by decide +kernel)
  have candidates := Precedes.prerelease (v := ⟨1, 0, 0, ["rc".toList, "2".toList], ["b".toList, "07".toList]⟩)
    (w := ⟨1, 0, 0, ["rc".toList, "10".toList], ["b".toList]⟩) rfl rfl rfl
    (.identifiers (List.cons_ne_nil _ _) (.cons (.rel numbers)))
  have release := Precedes.prerelease (v := ⟨1, 0, 0, ["rc".toList, "10".toList], ["b".toList]⟩)
    (w := ⟨1, 0, 0, [], []⟩) rfl rfl rfl (.release (List.cons_ne_nil _ _) rfl)
  obtain ⟨-, -, transitive, -, -, below, -, -⟩ := ordered_linearly first second
  obtain ⟨-, -, -, -, -, -, above, -⟩ := ordered_linearly second first
  obtain ⟨-, -, -, -, -, last, -, -⟩ := ordered_linearly second third
  have lower := below candidates
  have lowest := last release
  exact ⟨_, _, _, first, second, third, candidates, lower, above candidates, lowest,
    transitive _ (by rw [lower]; rfl) (by rw [lowest]; rfl)⟩

end ImageRelease.Version
