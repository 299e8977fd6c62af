import ImageRelease.Proofs.Version.Grammar

/-! The characters of a version that was read from a text. Its numbers are decimal and its identifiers keep to
their characters, so the text of a version breaks no line and has none of the marks that a manifest or a
source file puts around it.
-/
namespace ImageRelease.Version

variable {part : Part} {ids : List Identifier}

def Spelled (ids : List Identifier) : Prop := ∀ i ∈ ids, ∀ c ∈ i, isIdentifierChar c = true

theorem spelled_of_identifies (identify : ∀ i ∈ ids, Identifies part i) : Spelled ids :=
  fun i member => (identifies_iff.mpr (identify i member)).2

theorem spelled_of_parse {text : String} {v : Version} (parsed : parse text = .ok v) :
    Spelled v.prerelease ∧ Spelled v.build := by
  obtain ⟨p, lawful, -, rfl⟩ := parse_ok_iff.mp parsed
  exact ⟨spelled_of_identifies lawful.prerelease, spelled_of_identifies lawful.build⟩

def isVersionChar (c : Char) : Bool := isIdentifierChar c || c == '.' || c == '+'

theorem bounds_of_isVersionChar {c : Char} (inside : isVersionChar c = true) : 33 ≤ c.toNat ∧ c.toNat ≤ 126 := by
  delta isVersionChar isIdentifierChar Char.isAlphanum Char.isAlpha Char.isUpper Char.isLower Char.isDigit at inside
  simp only [Bool.or_eq_true, Bool.and_eq_true, decide_eq_true_eq, beq_iff_eq, GE.ge, UInt32.le_iff_toNat_le]
    at inside
  change ((((65 ≤ c.toNat ∧ c.toNat ≤ 90 ∨ 97 ≤ c.toNat ∧ c.toNat ≤ 122) ∨ 48 ≤ c.toNat ∧ c.toNat ≤ 57) ∨ _) ∨ _) ∨ _
    at inside
  rcases inside with (((letter | digit) | rfl) | rfl) | rfl
  · omega
  · omega
  all_goals decide

theorem isVersionChar_iff {c : Char} : isVersionChar c = true ↔ isDottedChar c = true ∨ c = '+' := by
  simp [isVersionChar, isDottedChar]

theorem isDottedChar_numeral (n : Nat) : ∀ c ∈ numeral n, isDottedChar c = true := by
  intro c member
  simp [isDottedChar, isIdentifierChar, Char.isAlphanum, isDigit_numeral n c member]

theorem isDottedChar_of_spelled (spelled : Spelled ids) {i : Identifier} (member : i ∈ ids) :
    ∀ c ∈ i, isDottedChar c = true := by
  intro c inside
  simp [isDottedChar, spelled i member c inside]

theorem isDottedChar_dotted (spelled : Spelled ids) : ∀ c ∈ dotted ids, isDottedChar c = true := by
  fun_induction dotted ids with
  | case1 => simp
  | case2 i => exact isDottedChar_of_spelled spelled List.mem_cons_self
  | case3 i more _ ih =>
    obtain ⟨-, later⟩ := List.forall_mem_cons.mp spelled
    rw [List.forall_mem_append, List.forall_mem_cons]
    exact ⟨isDottedChar_of_spelled spelled List.mem_cons_self, rfl, ih later⟩

theorem isDottedChar_or_eq_of_marked (spelled : Spelled ids) (mark : Char) :
    ∀ c ∈ marked mark ids, isDottedChar c = true ∨ c = mark := by
  cases ids with
  | nil => simp [marked]
  | cons i more =>
    exact List.forall_mem_cons.mpr ⟨.inr rfl, fun c member => .inl (isDottedChar_dotted spelled c member)⟩

/-- What a version is written with before its build metadata. -/
def core (v : Version) : List Char :=
  numeral v.major ++ '.' :: numeral v.minor ++ '.' :: numeral v.patch ++ marked '-' v.prerelease

theorem isDottedChar_core {v : Version} (spelled : Spelled v.prerelease) : ∀ c ∈ v.core, isDottedChar c = true := by
  have dot : isDottedChar '.' = true := rfl
  have prerelease : ∀ c ∈ marked '-' v.prerelease, isDottedChar c = true := by
    intro c member
    rcases isDottedChar_or_eq_of_marked spelled '-' c member with dotted | rfl
    · exact dotted
    · rfl
  simp only [core, List.forall_mem_append, List.forall_mem_cons]
  exact ⟨⟨⟨isDottedChar_numeral _, dot, isDottedChar_numeral _⟩, dot, isDottedChar_numeral _⟩, prerelease⟩

theorem isVersionChar_of_parse {text : String} {v : Version} (parsed : parse text = .ok v) :
    ∀ c ∈ v.chars, isVersionChar c = true := by
  obtain ⟨prerelease, build⟩ := spelled_of_parse parsed
  have split : v.chars = v.core ++ marked '+' v.build := rfl
  rw [split, List.forall_mem_append]
  constructor
  · exact fun c member => isVersionChar_iff.mpr (.inl (isDottedChar_core prerelease c member))
  · exact fun c member => isVersionChar_iff.mpr (isDottedChar_or_eq_of_marked build '+' c member)

theorem plus_mem_chars_iff {text : String} {v : Version} (parsed : parse text = .ok v) :
    '+' ∈ v.chars ↔ v.build ≠ [] := by
  obtain ⟨prerelease, -⟩ := spelled_of_parse parsed
  have absent : '+' ∉ v.core := fun member => absurd (isDottedChar_core prerelease '+' member) (by decide)
  have split : v.chars = v.core ++ marked '+' v.build := rfl
  rw [split, List.mem_append, or_iff_right absent]
  cases v.build with
  | nil => simp [marked]
  | cons i more => simp [marked]

theorem numeral_dot_inj {m n : Nat} {s t : List Char} (same : numeral m ++ '.' :: s = numeral n ++ '.' :: t) :
    numeral m = numeral n ∧ s = t := by
  have stops (s : List Char) : Stops Char.isDigit ('.' :: s) := stops_cons.mpr rfl
  obtain ⟨first, later⟩ := run_iff.mpr ⟨isDigit_numeral m, stops s, rfl⟩
  obtain ⟨front, back⟩ := run_iff.mpr ⟨isDigit_numeral n, stops t, same⟩
  exact ⟨first.symm.trans front, (List.cons.inj (later.symm.trans back)).2⟩

/-- A version whose text goes on for the text of another one is released on the same branch. -/
theorem branch_eq_of_prefix {v w : Version} (goesOn : v.chars <+: w.chars) : v.branch = w.branch := by
  obtain ⟨more, same⟩ := goesOn
  have parts : numeral v.major ++ '.' :: (numeral v.minor ++ '.' :: (numeral v.patch ++
      (marked '-' v.prerelease ++ (marked '+' v.build ++ more)))) =
      numeral w.major ++ '.' :: (numeral w.minor ++ '.' :: (numeral w.patch ++
        (marked '-' w.prerelease ++ marked '+' w.build))) := by simpa [chars] using same
  obtain ⟨major, rest⟩ := numeral_dot_inj parts
  obtain ⟨minor, -⟩ := numeral_dot_inj rest
  rw [branch, branch, major, minor]

end ImageRelease.Version
