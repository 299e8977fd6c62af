import Mathlib.Data.List.Forall2
import ImageRelease.Proofs.Edit.Change
import ImageRelease.Proofs.Edit.Pinning
import ImageRelease.Proofs.Pattern.Segment

/-! How the lines of an edited text correspond to those that it had. Each line stays in its place with its ending, and it
is the same unless one of the patterns is found in it. Editing a text is editing its parts, whatever the edits are.
-/
namespace ImageRelease

namespace Pattern

variable {p : Pattern} {s text : List Char}

def Occurs (p : Pattern) (s : List Char) : Prop :=
  ∃ front rest, s = front ++ rest ∧ p.matchFront front.isEmpty rest ≠ none

theorem replaceAll_of_absent (absent : ¬p.Occurs s) : p.replaceAll text s = s := by
  have cut : p.Cut true false s [s] := by
    apply cut_of_absent
    intro front rest split
    by_contra found
    exact absent ⟨front, rest, split, by simpa using found⟩
  rw [replaceAll, cut.replaceFrom_eq text, List.intercalate_singleton]

end Pattern

namespace Edit

open FileTree

variable {rs : List Replacement} {files after : FileTree} {path : String} {changed : Nat}

theorem applyAll_of_absent {s : List Char} (absent : ∀ r ∈ rs, ¬r.pattern.Occurs s) : applyAll rs s = s := by
  induction rs with
  | nil => rfl
  | cons r rs ih =>
    obtain ⟨here, later⟩ := List.forall_mem_cons.mp absent
    have same : r.apply s = s := Pattern.replaceAll_of_absent here
    rw [applyAll, List.foldl_cons, same]
    exact ih later

def differing (ls ms : List Line) : Nat := (ls.zip ms).countP fun pair => pair.1 != pair.2

/-- Line by line, a text becomes another one: endings stay, and a line with none of the patterns is as it was. The count
is that of the places where the lines differ. -/
structure Corresponds (rs : List Replacement) (old new : List Char) (changed : Nat) : Prop where
  linewise : List.Forall₂ (fun l m : Line => m.ending = l.ending ∧ ((∀ r ∈ rs, ¬r.pattern.Occurs l.text) → m = l))
    (lines old) (lines new)
  counted : changed = differing (lines old) (lines new)

theorem differing_map_editLine (rs : List Replacement) (ls : List Line) :
    differing ls (ls.map (editLine rs)) = ls.countP fun l => applyAll rs l.text != l.text := by
  rw [differing, ← List.map_prod_left_eq_zip, List.countP_map]
  apply List.countP_congr
  rintro ⟨text, ending⟩ -
  simp only [Function.comp, editLine, bne_iff_ne, ne_eq, Line.mk.injEq, and_true]
  exact not_congr eq_comm

theorem corresponds (keeps : KeepsLines (applyAll rs)) (content : List Char) :
    Corresponds rs content (edit rs content) (changedLines rs content) where
  linewise := by
    rw [lines_edit keeps, List.forall₂_map_right_iff, List.forall₂_same]
    exact fun line _ => ⟨rfl, fun absent => editLine_unchanged (applyAll_of_absent absent)⟩
  counted := by
    rw [lines_edit keeps, differing_map_editLine]
    rfl

theorem count_of_editFile {text : String} (read : files.readText path = .ok text)
    (done : editFile rs path files = .ok (changed, after)) : changed = changedLines rs text.toList := by
  obtain ⟨l, found, present⟩ := readText_ok_iff.mp read
  rw [editFile_eq found present] at done
  split at done
  · next none => rw [none, (Prod.mk.inj (Except.ok.inj done)).1]
  · split at done
    · contradiction
    · exact (Prod.mk.inj (Except.ok.inj done)).1.symm

/-- Releasing keeps the lines of a text, and of a file, with their endings, and counts those that it changes. A text that
is parted behind a line becomes what its parts become, and the counts of changed lines add up, for all replacements and
for whatever else is done to the texts of lines. -/
theorem lines_correspond :
    (∀ edits ∈ releaseEdits, ∀ (written : String) (v : Version), Version.parse written = .ok v →
      (∀ content : List Char,
        Corresponds (edits v) content (edit (edits v) content) (changedLines (edits v) content)) ∧
      ∀ (files after : FileTree) (path : String) (changed : Nat),
        editFile (edits v) path files = .ok (changed, after) →
          ∃ old new : String, files.readText path = .ok old ∧ after.readText path = .ok new ∧
            Corresponds (edits v) old.toList new.toList changed) ∧
    ∀ a b : List Char, a = [] ∨ a.getLast? = some '\n' →
      (∀ rs : List Replacement, edit rs (a ++ b) = edit rs a ++ edit rs b ∧
        changedLines rs (a ++ b) = changedLines rs a + changedLines rs b) ∧
      ∀ f : List Char → List Char, editBy f (a ++ b) = editBy f a ++ editBy f b ∧
        changedLinesBy f (a ++ b) = changedLinesBy f a + changedLinesBy f b := by
  constructor
  · intro edits listed written v parsed
    obtain ⟨κ, key, overwrites⟩ := overwrites_releaseEdits listed
    obtain ⟨text, overwritten⟩ := overwrites (quiet_version parsed)
    refine ⟨corresponds overwritten.keepsLines, fun files after path changed done => ?_⟩
    obtain ⟨old, before, edited⟩ := readText_of_editFile done
    refine ⟨old, editText (edits v) old, before, edited, ?_⟩
    rw [count_of_editFile before done, editText, String.toList_ofList]
    exact corresponds overwritten.keepsLines old.toList
  · intro a b ended
    have parts (f : List Char → List Char) := And.intro (editBy_append f ended b) (changedLinesBy_append f ended b)
    exact ⟨fun rs => parts (applyAll rs), parts⟩

/-- A pinned line loses a stray carriage return and another line keeps one. Then there are a line that is pinned
already, an empty one, and an open one that ends in a carriage return. -/
def mixedText : String :=
  "a image: metallb/speaker:image: metallb/speaker:1\r\r\nb\r\r\nimage: metallb/controller:v1.0.0\n\r\nend\r"

def mixedPinned : String :=
  "a image: metallb/speaker:v1.0.0\r\nb\r\r\nimage: metallb/controller:v1.0.0\n\r\nend\r"

def mixedFiles : FileTree where
  workingDirectory := []
  entries := [(["manifest"], .file mixedText.toUTF8)]

def breakAtB : Replacement := { pattern := Pattern.literal ['b'], text := ['\r', '\n'] }

theorem lines_correspond_mixed :
    ∃ v, Version.parse "1.0.0" = .ok v ∧ pinImages ∈ releaseEdits ∧
      Corresponds (pinImages v) mixedText.toList mixedPinned.toList 1 ∧
      (∃ after old new, editFile (pinImages v) "manifest" mixedFiles = .ok (1, after) ∧
        mixedFiles.readText "manifest" = .ok old ∧ after.readText "manifest" = .ok new ∧
        Corresponds (pinImages v) old.toList new.toList 1) ∧
      "ab\r\n".toList.getLast? = some '\n' ∧ edit [breakAtB] "ab\r\nb\r".toList = "a\r\n\r\n\r\n\r".toList := by
  have parsed : Version.parse "1.0.0" = .ok ⟨1, 0, 0, [], []⟩ := by decide +kernel
  have listed : pinImages ∈ releaseEdits := List.mem_cons_self
  obtain ⟨releases, parts⟩ := lines_correspond
  obtain ⟨texts, inFiles⟩ := releases pinImages listed "1.0.0" _ parsed
  have counted : changedLines (pinImages ⟨1, 0, 0, [], []⟩) mixedText.toList = 1 := by decide +kernel
  have edited : edit (pinImages ⟨1, 0, 0, [], []⟩) mixedText.toList = mixedPinned.toList := by decide +kernel
  have pinnedLines := texts mixedText.toList
  rw [edited, counted] at pinnedLines
  have found : mixedFiles.resolve "manifest" = .ok ["manifest"] := by decide +kernel
  have done : ∃ after, editFile (pinImages ⟨1, 0, 0, [], []⟩) "manifest" mixedFiles = .ok (1, after) := by
    rw [editFile_eq found rfl, counted]
    exact ⟨_, rfl⟩
  obtain ⟨after, done⟩ := done
  obtain ⟨old, new, kept⟩ := inFiles _ _ _ _ done
  have ended : "ab\r\n".toList.getLast? = some '\n' := by decide
  obtain ⟨both, -⟩ := (parts "ab\r\n".toList "b\r".toList (.inr ended)).1 [breakAtB]
  have first : edit [breakAtB] "ab\r\n".toList = "a\r\n\r\n".toList := by decide +kernel
  have second : edit [breakAtB] "b\r".toList = "\r\n\r".toList := by decide +kernel
  rw [first, second] at both
  exact ⟨_, parsed, listed, pinnedLines, ⟨after, old, new, done, kept⟩, ended, both⟩

end Edit

end ImageRelease
