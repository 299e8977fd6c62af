import Mathlib.Data.List.Forall2
import ImageRelease.Proofs.Edit.Pinning

/-! What setting the version of a source file does to each of its lines. The first assignment in a line decides: what
stands before it is kept, and it takes the place of everything behind. A name that blanks follow without the sign is
no assignment, and the search goes on behind it.
-/
namespace ImageRelease

/-- A run is taken to its end, since what follows does not begin inside of it. -/
theorem CharClass.run_eq_true_iff {class_ : CharClass} {follows : List Char → Bool} {s : List Char}
    (apart : ∀ c s, class_.contains c = true → follows (c :: s) = false) :
    class_.run follows s = true ↔
      ∃ front rest, front ≠ [] ∧ (∀ c ∈ front, class_.contains c = true) ∧ follows rest = true ∧ s = front ++ rest := by
  cases s with
  | nil => simp [run]
  | cons c s =>
    rw [run, Bool.and_eq_true]
    constructor
    · rintro ⟨inside, found⟩
      obtain ⟨later, -, split⟩ := Version.run_iff.mp ⟨rfl, rfl⟩
      exact ⟨_, _, List.cons_ne_nil c _, List.forall_mem_cons.mpr ⟨inside, later⟩, found, congrArg (c :: ·) split⟩
    · rintro ⟨front, rest, present, inside, found, split⟩
      obtain ⟨d, front, rfl⟩ := List.exists_cons_of_ne_nil present
      obtain ⟨rfl, same⟩ := List.cons.inj split
      obtain ⟨here, later⟩ := List.forall_mem_cons.mp inside
      have stops : Version.Stops class_.contains rest := by
        intro e head
        obtain ⟨more, rfl⟩ := List.head?_eq_some_iff.mp head
        by_contra within
        rw [apart e more (by simpa using within)] at found
        contradiction
      rw [(Version.run_iff.mpr ⟨later, stops, same⟩).2]
      exact ⟨here, found⟩

namespace Edit

open FileTree

variable {v : Version} {written : String} {s rest : List Char}

def Assigns (s : List Char) : Prop :=
  ∃ blanks rest, blanks ≠ [] ∧ (∀ c ∈ blanks, Text.isBlank c = true) ∧ s = "version".toList ++ blanks ++ '=' :: rest

/-- A line is kept when the version is nowhere assigned in it. Otherwise the assignment of the written version takes the
place of everything from the first assignment on. -/
inductive LineAssigned (written : String) (line : List Char) : List Char → Prop where
  | kept (unassigned : ∀ k, ¬Assigns (line.drop k)) : LineAssigned written line line
  | assigned {k : Nat} (here : Assigns (line.drop k)) (earliest : ∀ j < k, ¬Assigns (line.drop j)) :
      LineAssigned written line (line.take k ++ ("version = \"" ++ written ++ "\"").toList)

theorem leads_signMark_iff : signMark.leads s = true ↔ ∃ rest, s = '=' :: rest := by
  simp [Mark.leads, signMark, Option.isSome_iff_exists, Text.stripFront?_eq_some_iff]

theorem leads_versionMark_iff : versionMark.leads s = true ↔ Assigns s := by
  rw [Mark.leads, Option.any_eq_true]
  constructor
  · rintro ⟨after, stripped, follows⟩
    obtain ⟨blanks, sign, present, blank, found, rfl⟩ := (CharClass.run_eq_true_iff signMark_apart).mp follows
    obtain ⟨rest, rfl⟩ := leads_signMark_iff.mp found
    refine ⟨blanks, rest, present, blank, ?_⟩
    rw [Text.stripFront?_eq_some_iff.mp stripped, List.append_assoc]
    rfl
  · rintro ⟨blanks, rest, present, blank, split⟩
    refine ⟨blanks ++ '=' :: rest, Text.stripFront?_eq_some_iff.mpr ?_, ?_⟩
    · rw [split, List.append_assoc]
      rfl
    · have sign : signMark.leads ('=' :: rest) = true := leads_signMark_iff.mpr ⟨rest, rfl⟩
      exact (CharClass.run_eq_true_iff signMark_apart).mpr ⟨blanks, _, present, blank, sign, rfl⟩

theorem assigned?_eq_none_iff : assigned? s = none ↔ ¬Assigns s := by
  rw [← leads_versionMark_iff, assigned?]
  split <;> simp [*]

theorem versionAssignment_eq (parsed : Version.parse written = .ok v) :
    versionAssignment v = ("version = \"" ++ written ++ "\"").toList := by
  rw [versionAssignment, Version.chars_of_parse parsed, String.toList_append, String.toList_append]
  rfl

theorem lineAssigned_overwrite (parsed : Version.parse written = .ok v) (s : List Char) :
    LineAssigned written s (overwrite assigned? (fun _ => versionAssignment v) s) := by
  rcases overwrite_cases assigned? (fun _ => versionAssignment v) s with
    ⟨absent, same⟩ | ⟨front, rest, k, first, changed⟩
  · rw [same]
    refine .kept fun k => assigned?_eq_none_iff.mp ?_
    by_cases nothing : s.drop k = []
    · rw [nothing]
      rfl
    · exact absent _ (List.drop_suffix k s) nothing
  · have here : s.drop front.length = rest := by rw [first.split, List.drop_left]
    have before : s.take front.length = front := by rw [first.split, List.take_left]
    rw [changed, versionAssignment_eq parsed, ← before]
    refine .assigned ?_ fun j shorter => assigned?_eq_none_iff.mp ?_
    · by_contra none
      rw [here, ← assigned?_eq_none_iff, first.found] at none
      contradiction
    · refine first.earliest _ _ (List.take_append_drop j s).symm ?_
      exact Nat.lt_of_le_of_lt (List.length_take_le j s) shorter

/-- Setting the version of a source file to one that was read from a text changes nothing but the lines with an
assignment, and each of them from the first assignment on. A file that is readable, and writable if it is to be changed,
is edited so. -/
theorem assigned_lines {written : String} {v : Version} (parsed : Version.parse written = .ok v) :
    (∀ content : List Char, List.Forall₂ (fun old new : Line => new.ending = old.ending ∧
        LineAssigned written old.text new.text)
      (lines content) (lines (edit [assignVersion v] content))) ∧
    ∀ (files : FileTree) (path : String), Admits [assignVersion v] path files →
      ∃ text changed after, editFile [assignVersion v] path files = .ok (changed, after) ∧
        files.readText path = .ok text ∧
        after.readText path = .ok (String.ofList (edit [assignVersion v] text.toList)) := by
  have overwrites := overwrites_assignVersion (quiet_version parsed)
  constructor
  · intro content
    rw [lines_edit overwrites.keepsLines, List.forall₂_map_right_iff, List.forall₂_same]
    intro line member
    refine ⟨rfl, ?_⟩
    rw [editLine, overwrites.line ((split_lines content).unbroken line member)]
    exact lineAssigned_overwrite parsed line.text
  · intro files path admitted
    obtain ⟨changed, after, done⟩ := editFile_of_admits admitted
    obtain ⟨text, before, edited⟩ := readText_of_editFile done
    exact ⟨text, changed, after, done, before, edited⟩

def spacedText : String :=
  "version= version version\u2003\u00A0= 1 // version =\r\nversion :=\nx = version\r=\r\r\n\u3000version ="

def spacedFiles : FileTree where
  workingDirectory := []
  entries := [(["version.go"], .file spacedText.toUTF8)]

theorem assigned_lines_spaced :
    ∃ v, Version.parse "0.10.0-rc.1+build" = .ok v ∧
      edit [assignVersion v] spacedText.toList = ("version= version version = \"0.10.0-rc.1+build\"\r\nversion :=\n" ++
        "x = version = \"0.10.0-rc.1+build\"\r\n\u3000version = \"0.10.0-rc.1+build\"").toList ∧
      List.Forall₂ (fun old new : Line => new.ending = old.ending ∧ LineAssigned "0.10.0-rc.1+build" old.text new.text)
        (lines spacedText.toList) (lines (edit [assignVersion v] spacedText.toList)) ∧
      ∃ text changed after, editFile [assignVersion v] "version.go" spacedFiles = .ok (changed, after) ∧
        spacedFiles.readText "version.go" = .ok text ∧
        after.readText "version.go" = .ok (String.ofList (edit [assignVersion v] text.toList)) := by
  have parsed : Version.parse "0.10.0-rc.1+build" = .ok ⟨0, 10, 0, ["rc".toList, "1".toList], ["build".toList]⟩ := by
    decide +kernel
  obtain ⟨texts, inFiles⟩ := assigned_lines parsed
  have found : spacedFiles.resolve "version.go" = .ok ["version.go"] := by decide +kernel
  obtain ⟨⟨text, read⟩, written⟩ : spacedFiles.Editable "version.go" :=
    editable_iff.mpr ⟨_, spacedText, found, rfl, List.not_mem_nil⟩
  exact ⟨_, parsed, by decide +kernel, texts _, inFiles _ _ ⟨text, read, fun _ => written _⟩⟩

end Edit

end ImageRelease
