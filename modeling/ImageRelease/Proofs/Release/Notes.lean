import ImageRelease.Proofs.Edit.Marked
import ImageRelease.Proofs.Release.Clearance
import ImageRelease.Proofs.Version.Chars

/-! What release notes have to say of a version. The check looks for the beginning of its heading anywhere in a line, so
it takes a line for a heading that only has one inside, and the heading of a version whose text goes on for the one
that is looked for. In orderly notes the latter are all that it mistakes, and they are of the same release branch.
-/
namespace ImageRelease

theorem Text.isBlank_of_isVersionChar {c : Char} (inside : Version.isVersionChar c = true) : isBlank c = false := by
  obtain ⟨low, high⟩ := Version.bounds_of_isVersionChar inside
  simp [isBlank]
  omega

namespace ReleaseNotes

open Edit (lines)

variable {version noted written : String} {v w : Version} {line notes : List Char}

def headingWord : List Char := "## Version ".toList

/-- A line begins with the heading of a version, and behind the version it ends or goes on with a blank. -/
def Heads (version : String) (line : List Char) : Prop :=
  ∃ rest, line = headingWord ++ version.toList ++ rest ∧ ∀ c ∈ rest.head?, Text.isBlank c = true

instance (version : String) (line : List Char) : Decidable (Heads version line) :=
  decidable_of_iff ((Text.stripFront? (headingWord ++ version.toList) line).any fun rest =>
    rest.head?.all Text.isBlank) <| by
      simp [Heads, Option.any_eq_true, Text.stripFront?_eq_some_iff, Option.all_eq_true]

/-- A line is the heading of a version, and no other version is mentioned behind it. -/
structure HeadingOf (version : String) (line : List Char) : Prop where
  heads : Heads version line
  alone : ¬headingWord <:+: line.tail

def Orderly (notes : List Char) : Prop :=
  ∀ line ∈ lines notes, headingWord <:+: line.text →
    ∃ version v, Version.parse version = .ok v ∧ HeadingOf version line.text

def Mentions (version : String) (notes : List Char) : Prop :=
  ∃ line ∈ lines notes, headingWord ++ version.toList <:+: line.text

theorem heading_eq (parsed : Version.parse written = .ok v) : heading v = headingWord ++ written.toList := by
  have split : heading v = headingWord ++ v.chars := rfl
  rw [split, Version.chars_of_parse parsed]

theorem solid (parsed : Version.parse written = .ok v) : ∀ c ∈ written.toList, (!Text.isBlank c) = true := by
  intro c member
  rw [← Version.chars_of_parse parsed] at member
  rw [Text.isBlank_of_isVersionChar (Version.isVersionChar_of_parse parsed c member)]
  rfl

/-- The check looks through the notes line by line, since no version breaks a line. -/
theorem check_mentioned_iff (parsed : Version.parse written = .ok v) {files : FileTree} {path : String} :
    check files path v = .ok .mentioned ↔
      ∃ notes, files.readText path = .ok notes ∧ Mentions written notes.toList := by
  have unbroken : ∀ c ∈ headingWord ++ written.toList, c ≠ '\n' ∧ c ≠ '\r' := by
    have word : ∀ c ∈ "## Version ".toList, c ≠ '\n' ∧ c ≠ '\r' := by simp
    rw [← Version.chars_of_parse parsed, List.forall_mem_append]
    exact ⟨word, (Edit.quiet_version parsed).unbroken⟩
  have present : headingWord ++ written.toList ≠ [] := List.append_ne_nil_of_left_ne_nil (by decide) _
  have found (notes : String) : Text.occurs (heading v) notes.toList = true ↔ Mentions written notes.toList := by
    rw [Text.occurs_iff_infix, Mentions, heading_eq parsed,
      ← Edit.infix_join_iff (Edit.split_lines notes.toList) present unbroken, Edit.join_lines]
  cases read : files.readText path with
  | error fault => cases fault <;> simp [check, read]
  | ok notes =>
    simp only [check, read, Except.ok.injEq, exists_eq_left', ← found]
    cases Text.occurs (heading v) notes.toList <;> simp

/-- Behind a version that is headed a blank stands at once, so the text of the version is all of the first word there. -/
theorem takeWhile_headed (accepted : Version.parse noted = .ok w) {rest : List Char}
    (blank : ∀ c ∈ rest.head?, Text.isBlank c = true) :
    (noted.toList ++ rest).takeWhile (fun c => !Text.isBlank c) = noted.toList :=
  (Version.run_iff.mpr ⟨solid accepted, fun c head => by simp [blank c head], rfl⟩).1

namespace HeadingOf

/-- A heading mentions another version if and only if the text of its version goes on for the text of the other. -/
theorem mentions_iff (headed : HeadingOf noted line) (accepted : Version.parse noted = .ok w)
    (parsed : Version.parse written = .ok v) :
    headingWord ++ written.toList <:+: line ↔ written.toList <+: noted.toList := by
  obtain ⟨⟨rest, rfl, blank⟩, alone⟩ := headed
  rw [List.append_assoc] at alone ⊢
  constructor
  · intro within
    -- Anywhere but at the beginning of the line it would be another mention.
    have here : headingWord ++ written.toList <+: headingWord ++ (noted.toList ++ rest) := by
      rcases List.infix_cons_iff.mp within with here | later
      · exact here
      · exact absurd ((List.prefix_append _ _).isInfix.trans later) alone
    obtain ⟨more, same⟩ := (List.prefix_append_right_inj _).mp here
    have runs := congrArg (List.takeWhile fun c => !Text.isBlank c) same
    rw [takeWhile_headed accepted blank, List.takeWhile_append_of_pos (solid parsed)] at runs
    exact ⟨_, runs⟩
  · intro goesOn
    exact ((List.prefix_append_right_inj _).mpr (goesOn.trans (List.prefix_append _ _))).isInfix

theorem heads_iff (headed : HeadingOf noted line) (accepted : Version.parse noted = .ok w)
    (parsed : Version.parse written = .ok v) : Heads written line ↔ noted = written := by
  constructor
  · rintro ⟨other, same, blankOther⟩
    obtain ⟨⟨rest, rfl, blank⟩, -⟩ := headed
    rw [List.append_assoc, List.append_assoc] at same
    have runs := congrArg (List.takeWhile fun c => !Text.isBlank c) (List.append_cancel_left same)
    rw [takeWhile_headed accepted blank, takeWhile_headed parsed blankOther] at runs
    exact String.toList_injective runs
  · rintro rfl
    exact headed.heads

end HeadingOf

/-- A version is found in the notes if and only if the beginning of its heading stands somewhere in one of their lines.
In orderly notes this is so if and only if they have the heading of a version whose text goes on for its own. Such a
version is released on the same branch, and the heading is the one that was looked for if and only if the texts are the
same. -/
theorem mentioned_iff (parsed : Version.parse written = .ok v) (files : FileTree) (path : String) :
    (check files path v = .ok .mentioned ↔
      ∃ notes, files.readText path = .ok notes ∧ Mentions written notes.toList) ∧
    ∀ notes, Orderly notes →
      (Mentions written notes ↔ ∃ line ∈ lines notes, ∃ noted w, Version.parse noted = .ok w ∧
        HeadingOf noted line.text ∧ written.toList <+: noted.toList) ∧
      ∀ line ∈ lines notes, ∀ noted w, Version.parse noted = .ok w → HeadingOf noted line.text →
        written.toList <+: noted.toList → w.branch = v.branch ∧ (Heads written line.text ↔ noted = written) := by
  refine ⟨check_mentioned_iff parsed, fun notes orderly => ⟨⟨?_, ?_⟩, ?_⟩⟩
  · rintro ⟨line, member, within⟩
    obtain ⟨noted, w, accepted, headed⟩ := orderly line member ((List.prefix_append _ _).isInfix.trans within)
    exact ⟨line, member, noted, w, accepted, headed, (headed.mentions_iff accepted parsed).mp within⟩
  · rintro ⟨line, member, noted, w, accepted, headed, goesOn⟩
    exact ⟨line, member, (headed.mentions_iff accepted parsed).mpr goesOn⟩
  · intro line _ noted w accepted headed goesOn
    rw [← Version.chars_of_parse parsed, ← Version.chars_of_parse accepted] at goesOn
    exact ⟨(Version.branch_eq_of_prefix goesOn).symm, headed.heads_iff accepted parsed⟩

def longerNotes : String := "# Release Notes\n## Version 0.9.31 (beta)\r\n"

def longerFiles : FileTree :=
  { workingDirectory := [], entries := [(["notes"], .file longerNotes.toUTF8)] }

theorem orderly_longerNotes : Orderly longerNotes.toList := by
  have split : lines longerNotes.toList =
      [⟨"# Release Notes".toList, .lineFeed⟩, ⟨"## Version 0.9.31 (beta)".toList, .carriageReturn⟩] := by decide +kernel
  rw [Orderly, split, List.forall_mem_cons, List.forall_mem_singleton]
  refine ⟨fun within => absurd within (by decide +kernel), fun _ => ?_⟩
  exact ⟨"0.9.31", ⟨0, 9, 31, [], []⟩, by decide +kernel, by decide +kernel, by decide +kernel⟩

theorem mentioned_iff_longer :
    ∃ v, Version.parse "0.9.3" = .ok v ∧ Orderly longerNotes.toList ∧ Mentions "0.9.3" longerNotes.toList ∧
      check longerFiles "notes" v = .ok .mentioned ∧
      ∀ line ∈ lines longerNotes.toList, HeadingOf "0.9.31" line.text → ¬Heads "0.9.3" line.text := by
  have parsed : Version.parse "0.9.3" = .ok ⟨0, 9, 3, [], []⟩ := by decide +kernel
  have longer : Version.parse "0.9.31" = .ok ⟨0, 9, 31, [], []⟩ := by decide +kernel
  obtain ⟨checked, orderly⟩ := mentioned_iff parsed longerFiles "notes"
  obtain ⟨mentions, headings⟩ := orderly _ orderly_longerNotes
  have goesOn : "0.9.3".toList <+: "0.9.31".toList := by decide +kernel
  have mentioned : Mentions "0.9.3" longerNotes.toList := by
    refine mentions.mpr ⟨⟨"## Version 0.9.31 (beta)".toList, .carriageReturn⟩, by decide +kernel, ?_⟩
    exact ⟨"0.9.31", _, longer, ⟨by decide +kernel, by decide +kernel⟩, goesOn⟩
  refine ⟨_, parsed, orderly_longerNotes, mentioned, checked.mpr ⟨longerNotes, by decide +kernel, mentioned⟩, ?_⟩
  intro line member headed
  obtain ⟨-, same⟩ := headings line member "0.9.31" _ longer headed goesOn
  rw [same]
  decide

/-- A version is found in notes that do not have its heading: the text of their version only goes on for its own. -/
theorem heading_of_other_version :
    ∃ v, Version.parse "0.9.3" = .ok v ∧ check longerFiles "notes" v = .ok .mentioned ∧
      longerFiles.readText "notes" = .ok longerNotes ∧ ∀ line ∈ lines longerNotes.toList, ¬Heads "0.9.3" line.text :=
  ⟨⟨0, 9, 3, [], []⟩, by decide +kernel, by decide +kernel, by decide +kernel, by decide +kernel⟩

end ReleaseNotes

end ImageRelease
