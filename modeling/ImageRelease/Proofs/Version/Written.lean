import ImageRelease.Proofs.Release.Clearance
import ImageRelease.Proofs.Version.Grammar

/-! Versions and their texts. What is read from a text is written as that text, and so are the names that a release
makes of it. A text that does not follow the grammar is named by the failure that it ends in.
-/
namespace ImageRelease

namespace Version

variable {digits : List Char}

theorem Numeral.dot_not_mem (numeral : Numeral digits) : '.' ∉ digits := by
  intro member
  exact absurd (numeral.decimal '.' member) (by decide)

theorem Numeral.ofDigitChars_eq_zero_iff (numeral : Numeral digits) :
    Nat.ofDigitChars 10 digits 0 = 0 ↔ digits = ['0'] := by
  constructor
  · intro zero
    rw [← numeral.numeral_ofDigitChars, zero]
    rfl
  · rintro rfl
    rfl

theorem Spelling.Lawful.names {p : Spelling} (lawful : p.Lawful) :
    ∃ front rest, p.chars = front ++ '.' :: rest ∧ front.count '.' = 1 ∧
      p.version.branch.toList = 'v' :: front ∧
      (p.version.isPatch = true ↔ rest.takeWhile Char.isDigit ≠ ['0']) := by
  have numerals := lawful.numerals
  simp only [List.forall_mem_cons, List.not_mem_nil, false_implies, implies_true, and_true] at numerals
  obtain ⟨major, minor, patch⟩ := numerals
  have third : (p.patch ++ (tail '-' p.prerelease ++ (tail '+' p.build ++ []))).takeWhile Char.isDigit = p.patch :=
    (run_iff.mpr ⟨patch.decimal, stops_tail rfl (stops_tail rfl (stops_nil _)), rfl⟩).1
  refine ⟨p.major ++ '.' :: p.minor, p.patch ++ (tail '-' p.prerelease ++ (tail '+' p.build ++ [])), ?_, ?_, ?_, ?_⟩
  · simp [Spelling.chars]
  · simp [List.count_eq_zero_of_not_mem major.dot_not_mem, List.count_eq_zero_of_not_mem minor.dot_not_mem]
  · simp [branch, version, major.numeral_ofDigitChars, minor.numeral_ofDigitChars]
  · rw [third, isPatch, bne_iff_ne]
    exact not_congr patch.ofDigitChars_eq_zero_iff

end Version

namespace Plan

variable {σ : Type}

def Clean (runner : Runner σ) (s : Session σ) : Prop :=
  ∃ output, (runner Git.statusCommand s.files s.host).reply.outcome = .ok output ∧ Text.trim output.stdout = ""

theorem run_release_of_bad {text : String} {fault : Version.Fault} (bad : Version.parse text = .error fault)
    {runner : Runner σ} {s : Session σ} (clean : Clean runner s) (setup : Setup) (skip : Bool) :
    (release setup ⟨text, skip⟩).run runner s =
      (.error (.badVersion text fault), s.after Git.statusCommand (runner Git.statusCommand s.files s.host)) := by
  obtain ⟨output, answered, trimmed⟩ := clean
  have cleared : requireClean.run runner s =
      (.ok (), s.after Git.statusCommand (runner Git.statusCommand s.files s.host)) := by
    rw [run_requireClean, answered]
    simp [Except.bind, trimmed]
  rw [release, clear, run_bind, run_bind, cleared]
  simp only [run_bind, run_ofExcept, bad, Except.mapError]

end Plan

/-- A text is read as a version if and only if it follows the grammar. Then the version is written as the text, its tag
is the text after a `v`, its branch is the text before its second dot after a `v`, and it is a patch unless its third
number is written as zero. Every other text is refused by a failure with that text, and so is a release for it. -/
theorem Version.parse_written (text : String) :
    ((∃ v, parse text = .ok v) ↔ Grammatical text.toList) ∧
    (∀ v, parse text = .ok v → v.text = text ∧ v.tag = "v" ++ text ∧
      ∃ front rest, text.toList = front ++ '.' :: rest ∧ front.count '.' = 1 ∧
        v.branch.toList = 'v' :: front ∧ (v.isPatch = true ↔ rest.takeWhile Char.isDigit ≠ ['0'])) ∧
    (¬Grammatical text.toList → ∃ fault, parse text = .error fault ∧
      ∀ {σ : Type} (runner : Runner σ) (s : Session σ) (setup : Setup) (skip : Bool), Plan.Clean runner s →
        (Plan.release setup ⟨text, skip⟩).run runner s =
          (.error (.badVersion text fault),
            s.after Git.statusCommand (runner Git.statusCommand s.files s.host))) := by
  have grammatical : (∃ v, parse text = .ok v) ↔ Grammatical text.toList := by
    simp only [parse_ok_iff, Grammatical]
    exact ⟨fun ⟨_, p, lawful, written, _⟩ => ⟨p, lawful, written⟩,
      fun ⟨p, lawful, written⟩ => ⟨p.version, p, lawful, written, rfl⟩⟩
  refine ⟨grammatical, fun v parsed => ?_, fun bad => ?_⟩
  · obtain ⟨p, lawful, written, rfl⟩ := parse_ok_iff.mp parsed
    have same : p.version.text = text := by
      rw [Version.text, chars_of_parse parsed, String.ofList_toList]
    rw [tag, same, ← written]
    exact ⟨rfl, rfl, lawful.names⟩
  · cases parsed : parse text with
    | ok v => exact absurd (grammatical.mp ⟨v, parsed⟩) bad
    | error fault => exact ⟨fault, rfl, fun runner s setup skip clean => Plan.run_release_of_bad parsed clean setup skip⟩

theorem Version.parse_written_zeros :
    (∃ v, parse "1.0.10--0.a+007" = .ok v ∧ v.text = "1.0.10--0.a+007" ∧ v.tag = "v" ++ "1.0.10--0.a+007" ∧
      ∃ front rest, "1.0.10--0.a+007".toList = front ++ '.' :: rest ∧ front.count '.' = 1 ∧
        v.branch.toList = 'v' :: front ∧ (v.isPatch = true ↔ rest.takeWhile Char.isDigit ≠ ['0'])) ∧
    ¬Grammatical "1.0.10-00".toList ∧ ∃ fault, parse "1.0.10-00" = .error fault ∧
      ∀ setup : Setup, ((Plan.release setup ⟨"1.0.10-00", true⟩).run Scripted.runner (.fresh Plan.notedFiles [])).1 =
        .error (.badVersion "1.0.10-00" fault) := by
  constructor
  · have read : parse "1.0.10--0.a+007" = .ok ⟨1, 0, 10, ["-0".toList, "a".toList], ["007".toList]⟩ := by
      decide +kernel
    exact ⟨_, read, (parse_written _).2.1 _ read⟩
  · have unread : parse "1.0.10-00" = .error (.leadingZero .prerelease) := by decide +kernel
    obtain ⟨grammatical, -, refused⟩ := parse_written "1.0.10-00"
    have bad : ¬Grammatical "1.0.10-00".toList := by
      rw [← grammatical, unread]
      simp
    have clean : Plan.Clean Scripted.runner (.fresh Plan.notedFiles []) := ⟨_, rfl, rfl⟩
    obtain ⟨fault, same, ended⟩ := refused bad
    exact ⟨bad, fault, same, fun setup => congrArg Prod.fst (ended Scripted.runner _ setup true clean)⟩

end ImageRelease
