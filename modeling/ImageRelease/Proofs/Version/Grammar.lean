import Mathlib.Data.List.TakeWhile
import ImageRelease.Proofs.Except
import ImageRelease.Version.Parse

/-! The grammar of versions, and that reading keeps to it. A version is spelled by the digits of its three numbers and
by the identifiers of its pre-release and of its build metadata. Each part is read as far as it goes, so a text is
read if and only if it has a spelling, and the version that was read is written as that text.
-/
namespace ImageRelease.Version

variable {part : Part} {mark : Char} {s front rest : List Char} {ids : List Identifier} {i : Identifier} {n : Nat}

/-! ### Spellings -/

/-- A decimal number without leading zeros. -/
structure Numeral (digits : List Char) : Prop where
  present : digits ≠ []
  decimal : ∀ c ∈ digits, c.isDigit = true
  plain : digits.head? = some '0' → digits = ['0']

/-- An identifier is made of ASCII letters, digits and hyphens. In a pre-release a number has no leading zeros. -/
structure Identifies (part : Part) (i : Identifier) : Prop where
  present : i ≠ []
  letters : ∀ c ∈ i, c.isAlphanum = true ∨ c = '-'
  plain : part = .prerelease → (∀ c ∈ i, c.isDigit = true) → Numeral i

structure Spelling where
  major : List Char
  minor : List Char
  patch : List Char
  prerelease : List Identifier
  build : List Identifier

namespace Spelling

/-- Identifiers with dots between them, after their mark. Without identifiers there is no mark. -/
def tail (mark : Char) (ids : List Identifier) : List Char :=
  if ids = [] then [] else mark :: ['.'].intercalate ids

def chars (p : Spelling) : List Char :=
  p.major ++ '.' :: p.minor ++ '.' :: p.patch ++ tail '-' p.prerelease ++ tail '+' p.build

/-- The rules of Semantic Versioning, with numbers of at most 64 bits. -/
structure Lawful (p : Spelling) : Prop where
  numerals : ∀ digits ∈ [p.major, p.minor, p.patch], Numeral digits
  bounded : ∀ digits ∈ [p.major, p.minor, p.patch], Nat.ofDigitChars 10 digits 0 < numberBound
  prerelease : ∀ i ∈ p.prerelease, Identifies .prerelease i
  build : ∀ i ∈ p.build, Identifies .build i

def version (p : Spelling) : Version where
  major := Nat.ofDigitChars 10 p.major 0
  minor := Nat.ofDigitChars 10 p.minor 0
  patch := Nat.ofDigitChars 10 p.patch 0
  prerelease := p.prerelease
  build := p.build

end Spelling

def Grammatical (s : List Char) : Prop := ∃ p : Spelling, p.Lawful ∧ p.chars = s

/-! ### Runs of characters -/

/-- A text does not begin with such a character. -/
def Stops (p : Char → Bool) (rest : List Char) : Prop := ∀ c ∈ rest.head?, p c = false

theorem stops_nil (p : Char → Bool) : Stops p [] := by simp [Stops]

theorem stops_cons {p : Char → Bool} {c : Char} : Stops p (c :: rest) ↔ p c = false := by simp [Stops]

theorem run_iff {p : Char → Bool} :
    s.takeWhile p = front ∧ s.dropWhile p = rest ↔ (∀ c ∈ front, p c = true) ∧ Stops p rest ∧ s = front ++ rest := by
  constructor
  · rintro ⟨rfl, rfl⟩
    refine ⟨fun c member => List.mem_takeWhile_imp member, fun c head => ?_, List.takeWhile_append_dropWhile.symm⟩
    have stopped := List.head?_dropWhile_not p s
    rw [Option.mem_def.mp head] at stopped
    exact stopped
  · rintro ⟨inside, stops, rfl⟩
    rw [List.takeWhile_append_of_pos inside, List.dropWhile_append_of_pos inside]
    cases rest with
    | nil => simp
    | cons c rest => simp [stops_cons.mp stops]

/-! ### Numbers -/

theorem isDigit_numeral (n : Nat) : ∀ c ∈ numeral n, c.isDigit = true :=
  fun _ member => Nat.isDigit_of_mem_toDigits (by decide) (by decide) member

theorem digitsValue_eq (digits : List Char) : digitsValue digits = Nat.ofDigitChars 10 digits 0 := by
  rw [digitsValue, Nat.ofDigitChars_eq_foldl]
  congr 1
  funext n c
  rw [Nat.mul_comm]

theorem isPlainNumeral_iff {digits : List Char} (decimal : ∀ c ∈ digits, c.isDigit = true) :
    isPlainNumeral digits = true ↔ Numeral digits := by
  constructor
  · intro plain
    refine ⟨?_, decimal, fun zero => ?_⟩
    · rintro rfl
      exact Bool.false_ne_true plain
    · unfold isPlainNumeral at plain
      split at plain
      · rfl
      · exact absurd plain Bool.false_ne_true
      · next other =>
        cases digits with
        | nil => simp at zero
        | cons c digits =>
          obtain rfl := Option.some.inj zero
          exact absurd rfl (other digits)
  · intro numeral
    unfold isPlainNumeral
    split
    · rfl
    · next single => exact absurd (numeral.plain rfl) (by simpa using single)
    · simpa using numeral.present

theorem digitChar_of_isDigit {c : Char} (digit : c.isDigit = true) :
    c.toNat - '0'.toNat < 10 ∧ Nat.digitChar (c.toNat - '0'.toNat) = c := by
  have bounds : 48 ≤ c.toNat ∧ c.toNat ≤ 57 := by
    simpa [Char.isDigit, UInt32.le_iff_toNat_le] using digit
  have small : c.toNat - '0'.toNat < 10 := by
    change c.toNat - 48 < 10
    omega
  refine ⟨small, Char.toNat_inj.mp ?_⟩
  rw [Nat.toNat_digitChar_of_lt_ten small]
  change 48 + (c.toNat - 48) = c.toNat
  omega

theorem numeral_append {digits : List Char} (decimal : ∀ c ∈ digits, c.isDigit = true) (positive : 0 < n) :
    numeral n ++ digits = numeral (Nat.ofDigitChars 10 digits n) := by
  induction digits generalizing n with
  | nil => simp
  | cons c digits ih =>
    obtain ⟨digit, later⟩ := List.forall_mem_cons.mp decimal
    obtain ⟨small, rebuilt⟩ := digitChar_of_isDigit digit
    have pushed := Nat.toDigits_append_toDigits (b := 10) (by decide) positive small
    rw [Nat.toDigits_of_lt_base small, rebuilt] at pushed
    calc
      numeral n ++ c :: digits = numeral n ++ [c] ++ digits := by simp
      _ = numeral (10 * n + (c.toNat - '0'.toNat)) ++ digits := by rw [numeral, pushed, numeral]
      _ = numeral (Nat.ofDigitChars 10 (c :: digits) n) := by
        rw [ih later (by omega), Nat.ofDigitChars_cons]

theorem Numeral.numeral_ofDigitChars {digits : List Char} (spelled : Numeral digits) :
    numeral (Nat.ofDigitChars 10 digits 0) = digits := by
  cases digits with
  | nil => exact absurd rfl spelled.present
  | cons c digits =>
    obtain ⟨digit, later⟩ := List.forall_mem_cons.mp spelled.decimal
    obtain ⟨small, rebuilt⟩ := digitChar_of_isDigit digit
    have first : numeral (c.toNat - '0'.toNat) = [c] := by rw [numeral, Nat.toDigits_of_lt_base small, rebuilt]
    rw [Nat.ofDigitChars_cons, Nat.mul_zero, Nat.zero_add]
    by_cases zero : c = '0'
    · subst zero
      obtain ⟨-, rfl⟩ := List.cons.inj (spelled.plain rfl)
      rfl
    · have positive : 0 < c.toNat - '0'.toNat := by
        rw [Nat.pos_iff_ne_zero]
        intro nothing
        rw [nothing] at rebuilt
        exact zero rebuilt.symm
      rw [← numeral_append later positive, first]
      rfl

theorem takeNumber_ok_iff :
    takeNumber part s = .ok (n, rest) ↔ ∃ digits, Numeral digits ∧ Nat.ofDigitChars 10 digits 0 < numberBound ∧
      n = Nat.ofDigitChars 10 digits 0 ∧ Stops Char.isDigit rest ∧ s = digits ++ rest := by
  constructor
  · intro taken
    obtain ⟨decimal, stops, split⟩ := run_iff (p := Char.isDigit) (s := s) |>.mp ⟨rfl, rfl⟩
    unfold takeNumber at taken
    dsimp only at taken
    split at taken
    · split at taken <;> contradiction
    split at taken
    · contradiction
    next plain =>
    split at taken
    · next bounded =>
      obtain ⟨value, rfl⟩ := Prod.mk.inj (Except.ok.inj taken)
      rw [digitsValue_eq] at bounded value
      refine ⟨s.takeWhile Char.isDigit, (isPlainNumeral_iff decimal).mp ?_, bounded, value.symm, stops, split⟩
      simpa using plain
    · contradiction
  · rintro ⟨digits, numeral, bounded, rfl, stops, split⟩
    obtain ⟨front, back⟩ := run_iff.mpr ⟨numeral.decimal, stops, split⟩
    have plain := (isPlainNumeral_iff numeral.decimal).mpr numeral
    simp only [takeNumber, front, back, List.isEmpty_iff, numeral.present, plain, if_false, Bool.not_true,
      Bool.false_eq_true, digitsValue_eq]
    exact if_pos bounded

theorem takeDot_ok_iff : takeDot part s = .ok rest ↔ s = '.' :: rest := by
  fun_cases takeDot part s with
  | case1 => simp
  | case2 c rest other => exact ⟨nofun, fun same => absurd (List.cons.inj same).1 other⟩
  | case3 => simp

/-! ### Identifiers -/

theorem identifies_iff :
    checkIdentifier part i = .ok () ∧ (∀ c ∈ i, isIdentifierChar c = true) ↔ Identifies part i := by
  have letters : (∀ c ∈ i, isIdentifierChar c = true) ↔ ∀ c ∈ i, c.isAlphanum = true ∨ c = '-' := by
    simp [isIdentifierChar]
  have decimal : isNumeric i = true ↔ ∀ c ∈ i, c.isDigit = true := by simp [isNumeric]
  have checked : checkIdentifier part i = .ok () ↔
      i ≠ [] ∧ (part = .prerelease → isNumeric i = true → isPlainNumeral i = true) := by
    unfold checkIdentifier
    split
    · next empty => simpa using fun present => absurd (List.isEmpty_iff.mp empty) present
    · next present =>
      split
      · next padded => simp_all
      · next plain => simp_all
  rw [checked, letters]
  constructor
  · rintro ⟨⟨present, plain⟩, letters⟩
    exact ⟨present, letters, fun here digits => (isPlainNumeral_iff digits).mp (plain here (decimal.mpr digits))⟩
  · rintro ⟨present, letters, plain⟩
    refine ⟨⟨present, fun here digits => ?_⟩, letters⟩
    rw [decimal] at digits
    exact (isPlainNumeral_iff digits).mpr (plain here digits)

def isDottedChar (c : Char) : Bool := isIdentifierChar c || c == '.'

theorem stops_of_isDottedChar (stops : Stops isDottedChar rest) :
    Stops isIdentifierChar rest ∧ rest.head? ≠ some '.' := by
  cases rest with
  | nil => exact ⟨stops_nil _, by simp⟩
  | cons c rest =>
    have other := stops_cons.mp stops
    rw [isDottedChar, Bool.or_eq_false_iff] at other
    exact ⟨stops_cons.mpr other.1, by simpa using other.2⟩

theorem takeIdentifiers_ok (taken : takeIdentifiers part s = .ok (ids, rest)) :
    ids ≠ [] ∧ (∀ i ∈ ids, Identifies part i) ∧ Stops isDottedChar rest ∧ s = ['.'].intercalate ids ++ rest := by
  fun_induction takeIdentifiers part s generalizing ids rest with
  | case1 => contradiction
  | case2 s first _ later dotted accepted =>
    rename_i ih
    obtain ⟨letters, stops, split⟩ := run_iff (p := isIdentifierChar) |>.mp ⟨rfl, dotted⟩
    obtain ⟨⟨more, after⟩, found, same⟩ := except_bind_ok.mp taken
    obtain ⟨rfl, rfl⟩ := Prod.mk.inj (Except.ok.inj same)
    obtain ⟨present, identify, ended, spelled⟩ := ih found
    obtain ⟨j, more, rfl⟩ := List.exists_cons_of_ne_nil present
    refine ⟨List.cons_ne_nil _ _, List.forall_mem_cons.mpr ⟨identifies_iff.mp ⟨accepted, letters⟩, identify⟩, ended, ?_⟩
    rw [split, spelled]
    simp [first]
  | case3 s first _ accepted =>
    rename_i undotted
    obtain ⟨rfl, rfl⟩ := Prod.mk.inj (Except.ok.inj taken)
    obtain ⟨letters, stops, split⟩ := run_iff (p := isIdentifierChar) (s := s) |>.mp ⟨rfl, rfl⟩
    refine ⟨List.cons_ne_nil _ _, List.forall_mem_singleton.mpr (identifies_iff.mp ⟨accepted, letters⟩), ?_, ?_⟩
    · intro c head
      rw [isDottedChar, stops c head, Bool.false_or, beq_eq_false_iff_ne]
      rintro rfl
      obtain ⟨after, same⟩ := List.head?_eq_some_iff.mp head
      exact undotted after same
    · rw [List.intercalate_singleton]
      exact split

theorem front_of_identifies {more : List Identifier} (identify : ∀ j ∈ i :: more, Identifies part j)
    (stops : Stops isDottedChar rest) (spelled : s = ['.'].intercalate (i :: more) ++ rest) :
    s.takeWhile isIdentifierChar = i ∧ checkIdentifier part i = .ok () ∧
      s.dropWhile isIdentifierChar = if more = [] then rest else '.' :: (['.'].intercalate more ++ rest) := by
  obtain ⟨accepted, letters⟩ := identifies_iff.mpr (identify i List.mem_cons_self)
  have split : Stops isIdentifierChar (if more = [] then rest else '.' :: (['.'].intercalate more ++ rest)) ∧
      s = i ++ if more = [] then rest else '.' :: (['.'].intercalate more ++ rest) := by
    cases more with
    | nil => simpa [spelled] using (stops_of_isDottedChar stops).1
    | cons j more => exact ⟨stops_cons.mpr rfl, by simp [spelled]⟩
  obtain ⟨front, back⟩ := run_iff.mpr ⟨letters, split⟩
  exact ⟨front, accepted, back⟩

/-- Identifiers are read up to where a text does not go on with them. -/
theorem takeIdentifiers_of_identifies (present : ids ≠ []) (identify : ∀ i ∈ ids, Identifies part i)
    (stops : Stops isDottedChar rest) (spelled : s = ['.'].intercalate ids ++ rest) :
    takeIdentifiers part s = .ok (ids, rest) := by
  obtain ⟨-, undotted⟩ := stops_of_isDottedChar stops
  fun_induction takeIdentifiers part s generalizing ids with
  | case1 s first fault =>
    rename_i refused
    obtain ⟨i, more, rfl⟩ := List.exists_cons_of_ne_nil present
    obtain ⟨front, accepted, -⟩ := front_of_identifies identify stops spelled
    have refused : checkIdentifier part (s.takeWhile isIdentifierChar) = .error fault := refused
    rw [front, accepted] at refused
    contradiction
  | case2 s first _ later dotted =>
    rename_i ih
    obtain ⟨i, more, rfl⟩ := List.exists_cons_of_ne_nil present
    obtain ⟨front, -, back⟩ := front_of_identifies identify stops spelled
    rw [dotted] at back
    split at back
    · next last =>
      rw [← back] at undotted
      exact absurd rfl undotted
    · next others =>
      obtain ⟨-, later⟩ := List.cons.inj back
      rw [ih others (List.forall_mem_cons.mp identify).2 later]
      exact congrArg (fun i => Except.ok (i :: more, rest)) front
  | case3 s first =>
    rename_i open_
    obtain ⟨i, more, rfl⟩ := List.exists_cons_of_ne_nil present
    obtain ⟨front, -, back⟩ := front_of_identifies identify stops spelled
    split at back
    · next last =>
      rw [last, back]
      exact congrArg (fun i => Except.ok ([i], rest)) front
    · exact absurd back (open_ _)

/-- The text after a part does not go on with it, nor with its mark. -/
theorem takeMarked_of_identifies (identify : ∀ i ∈ ids, Identifies part i) (stops : Stops isDottedChar rest)
    (unmarked : rest.head? ≠ some mark) :
    takeMarked mark part (Spelling.tail mark ids ++ rest) = .ok (ids, rest) := by
  unfold Spelling.tail
  split
  · next none =>
    subst none
    cases rest with
    | nil => rfl
    | cons c rest =>
      have other : c ≠ mark := by simpa using unmarked
      simp [takeMarked, other]
  · next present => simpa [takeMarked] using takeIdentifiers_of_identifies present identify stops rfl

theorem takeMarked_ok (taken : takeMarked mark part s = .ok (ids, rest)) :
    (∀ i ∈ ids, Identifies part i) ∧ s = Spelling.tail mark ids ++ rest := by
  unfold takeMarked at taken
  split at taken
  · split at taken
    · next c s same =>
      subst same
      obtain ⟨present, identify, -, spelled⟩ := takeIdentifiers_ok taken
      exact ⟨identify, by simp [Spelling.tail, present, spelled]⟩
    · obtain ⟨rfl, rfl⟩ := Prod.mk.inj (Except.ok.inj taken)
      exact ⟨by simp, rfl⟩
  · obtain ⟨rfl, rfl⟩ := Prod.mk.inj (Except.ok.inj taken)
    exact ⟨by simp, rfl⟩

/-! ### Versions -/

theorem parseChars_ok {v : Version} (read : parseChars s = .ok v) :
    ∃ p : Spelling, p.Lawful ∧ p.chars = s ∧ p.version = v := by
  unfold parseChars at read
  split at read
  · contradiction
  obtain ⟨⟨_, s₁⟩, first, read⟩ := except_bind_ok.mp read
  obtain ⟨s₂, dot, read⟩ := except_bind_ok.mp read
  obtain ⟨⟨_, s₃⟩, second, read⟩ := except_bind_ok.mp read
  obtain ⟨s₄, nextDot, read⟩ := except_bind_ok.mp read
  obtain ⟨⟨_, s₅⟩, third, read⟩ := except_bind_ok.mp read
  obtain ⟨⟨prerelease, s₆⟩, fourth, read⟩ := except_bind_ok.mp read
  obtain ⟨⟨build, s₇⟩, fifth, ended⟩ := except_bind_ok.mp read
  obtain ⟨major, majorNumeral, majorBounded, rfl, -, rfl⟩ := takeNumber_ok_iff.mp first
  obtain rfl := takeDot_ok_iff.mp dot
  obtain ⟨minor, minorNumeral, minorBounded, rfl, -, rfl⟩ := takeNumber_ok_iff.mp second
  obtain rfl := takeDot_ok_iff.mp nextDot
  obtain ⟨patch, patchNumeral, patchBounded, rfl, -, rfl⟩ := takeNumber_ok_iff.mp third
  obtain ⟨identifyPrerelease, rfl⟩ := takeMarked_ok fourth
  obtain ⟨identifyBuild, rfl⟩ := takeMarked_ok fifth
  cases s₇ with
  | cons c rest => contradiction
  | nil =>
    refine ⟨⟨major, minor, patch, prerelease, build⟩, ⟨?_, ?_, identifyPrerelease, identifyBuild⟩, ?_,
      Except.ok.inj ended⟩
    · simp [majorNumeral, minorNumeral, patchNumeral]
    · simp only [List.forall_mem_cons, List.not_mem_nil, false_implies, implies_true, and_true]
      exact ⟨majorBounded, minorBounded, patchBounded⟩
    · simp [Spelling.chars]

theorem stops_tail {q : Char → Bool} (outside : q mark = false) (stops : Stops q rest) :
    Stops q (Spelling.tail mark ids ++ rest) := by
  unfold Spelling.tail
  split
  · exact stops
  · exact stops_cons.mpr outside

theorem chars_ne_nil (p : Spelling) : p.chars ≠ [] := by simp [Spelling.chars]

theorem parseChars_of_lawful {p : Spelling} (lawful : p.Lawful) : parseChars p.chars = .ok p.version := by
  obtain ⟨numerals, bounded, prerelease, build⟩ := lawful
  simp only [List.forall_mem_cons, List.not_mem_nil, false_implies, implies_true, and_true] at numerals bounded
  obtain ⟨major, minor, patch⟩ := numerals
  obtain ⟨majorBounded, minorBounded, patchBounded⟩ := bounded
  have dot (s : List Char) : Stops Char.isDigit ('.' :: s) := stops_cons.mpr rfl
  have noDigit : Stops Char.isDigit (Spelling.tail '-' p.prerelease ++ (Spelling.tail '+' p.build ++ [])) :=
    stops_tail rfl (stops_tail rfl (stops_nil _))
  have unmarked : (Spelling.tail '+' p.build ++ []).head? ≠ some '-' := by
    unfold Spelling.tail
    split <;> simp
  have written : p.chars = p.major ++ '.' :: (p.minor ++ '.' :: (p.patch ++
      (Spelling.tail '-' p.prerelease ++ (Spelling.tail '+' p.build ++ [])))) := by simp [Spelling.chars]
  unfold parseChars
  split
  · next empty => exact absurd (List.isEmpty_iff.mp empty) (chars_ne_nil p)
  rw [written]
  refine except_bind_ok.mpr ⟨_, takeNumber_ok_iff.mpr ⟨_, major, majorBounded, rfl, dot _, rfl⟩, ?_⟩
  refine except_bind_ok.mpr ⟨_, takeDot_ok_iff.mpr rfl, ?_⟩
  refine except_bind_ok.mpr ⟨_, takeNumber_ok_iff.mpr ⟨_, minor, minorBounded, rfl, dot _, rfl⟩, ?_⟩
  refine except_bind_ok.mpr ⟨_, takeDot_ok_iff.mpr rfl, ?_⟩
  refine except_bind_ok.mpr ⟨_, takeNumber_ok_iff.mpr ⟨_, patch, patchBounded, rfl, noDigit, rfl⟩, ?_⟩
  refine except_bind_ok.mpr ⟨_, takeMarked_of_identifies prerelease (stops_tail rfl (stops_nil _)) unmarked, ?_⟩
  exact except_bind_ok.mpr ⟨_, takeMarked_of_identifies build (stops_nil _) (by simp), rfl⟩

/-- A text is read as a version if and only if the version has a spelling that makes up the text. -/
theorem parse_ok_iff {text : String} {v : Version} :
    parse text = .ok v ↔ ∃ p : Spelling, p.Lawful ∧ p.chars = text.toList ∧ p.version = v := by
  constructor
  · exact parseChars_ok
  · rintro ⟨p, lawful, written, rfl⟩
    rw [parse, ← written, parseChars_of_lawful lawful]

/-! ### Writing -/

theorem dotted_eq (ids : List Identifier) : dotted ids = ['.'].intercalate ids := by
  fun_induction dotted ids with
  | case1 => rfl
  | case2 i => simp
  | case3 i more present ih =>
    obtain ⟨j, more, rfl⟩ := List.exists_cons_of_ne_nil present
    simp [ih]

theorem marked_eq (mark : Char) (ids : List Identifier) : marked mark ids = Spelling.tail mark ids := by
  cases ids with
  | nil => rfl
  | cons i more => simp [marked, Spelling.tail, dotted_eq]

theorem Spelling.Lawful.chars_version {p : Spelling} (lawful : p.Lawful) : p.version.chars = p.chars := by
  have numerals := lawful.numerals
  simp only [List.forall_mem_cons, List.not_mem_nil, false_implies, implies_true, and_true] at numerals
  obtain ⟨major, minor, patch⟩ := numerals
  simp only [Version.chars, Spelling.version, Spelling.chars, marked_eq, major.numeral_ofDigitChars,
    minor.numeral_ofDigitChars, patch.numeral_ofDigitChars]

theorem chars_of_parse {text : String} {v : Version} (parsed : parse text = .ok v) : v.chars = text.toList := by
  obtain ⟨p, lawful, written, rfl⟩ := parse_ok_iff.mp parsed
  rw [lawful.chars_version, written]

end ImageRelease.Version
