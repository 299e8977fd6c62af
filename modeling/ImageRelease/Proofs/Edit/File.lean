import ImageRelease.Edit.File
import ImageRelease.Proofs.Edit.Change
import ImageRelease.Proofs.FileTree

/-! What editing a file leaves. The tree that comes out is the one that went in with the edited text at
one location, whether or not the file had to be written: an edit that changes no line is the text
that was there.
-/
namespace ImageRelease.Edit

open FileTree

variable {rs : List Replacement} {files after : FileTree} {path : String} {l k : Location}

theorem editLine_unchanged {line : Line} (same : applyAll rs line.text = line.text) :
    editLine rs line = line := by
  simp [editLine, same]

theorem edit_of_changedLines_eq_zero {content : List Char} (none : changedLines rs content = 0) :
    edit rs content = content :=
  editBy_eq_self_iff.mpr none

def editText (rs : List Replacement) (text : String) : String := String.ofList (edit rs text.toList)

theorem editText_of_changedLines_eq_zero {text : String} (none : changedLines rs text.toList = 0) :
    editText rs text = text := by
  simp [editText, edit_of_changedLines_eq_zero none]

/-- One tree is another one with the text of the file at a location edited. -/
def Edited (rs : List Replacement) (l : Location) (before after : FileTree) : Prop :=
  ∃ text : String, before.lookup l = some (.file text.toUTF8) ∧
    after = before.put l (.file (editText rs text).toUTF8)

namespace Edited

theorem file (edited : Edited rs l files after) :
    ∃ text : String, after.lookup l = some (.file text.toUTF8) := by
  obtain ⟨text, present, rfl⟩ := edited
  exact ⟨editText rs text, by rw [lookup_put _ (ne_root_of_file present), if_pos rfl]⟩

theorem lookup_other (edited : Edited rs l files after) (other : k ≠ l) :
    after.lookup k = files.lookup k := by
  obtain ⟨text, present, rfl⟩ := edited
  rw [lookup_put _ (ne_root_of_file present), if_neg other]

theorem resolve_eq (edited : Edited rs l files after) (path : String) :
    after.resolve path = files.resolve path := by
  obtain ⟨text, present, rfl⟩ := edited
  exact resolve_put present path

theorem readText_error {fault : FileFault} (edited : Edited rs l files after)
    (unread : files.readText path = .error fault) : after.readText path = .error fault := by
  rw [← unread]
  refine readText_congr (edited.resolve_eq path) fun k found => edited.lookup_other ?_
  rintro rfl
  obtain ⟨text, present, -⟩ := edited
  rw [readText_ok_iff.mpr ⟨_, found, present⟩] at unread
  contradiction

theorem locked_eq (edited : Edited rs l files after) : after.locked = files.locked := by
  obtain ⟨text, present, rfl⟩ := edited
  rfl

/-- What could be edited still can, also the edited file itself. -/
theorem editable (edited : Edited rs l files after) (before : files.Editable path) :
    after.Editable path := by
  obtain ⟨k, text, found, present, writable⟩ := editable_iff.mp before
  -- The two paths may lead to the same file, which then has the edited text.
  have kept : ∃ text : String, after.lookup k = some (.file text.toUTF8) := by
    by_cases same : k = l
    · subst same
      exact edited.file
    · exact ⟨text, by rw [edited.lookup_other same, present]⟩
  obtain ⟨newText, newPresent⟩ := kept
  exact editable_iff.mpr
    ⟨k, newText, by rw [edited.resolve_eq, found], newPresent, by rw [edited.locked_eq]; exact writable⟩

end Edited

/-- What editing a readable file comes to. Only a change is written, so only a change needs the
permission to write. -/
theorem editFile_eq {text : String} (found : files.resolve path = .ok l)
    (present : files.lookup l = some (.file text.toUTF8)) :
    editFile rs path files =
      if changedLines rs text.toList = 0 then .ok (0, files)
      else if l ∈ files.locked then
        .error (.updateFailed path ("Failed to write file: " ++ FileFault.notPermitted.message))
      else .ok (changedLines rs text.toList, files.put l (.file (editText rs text).toUTF8)) := by
  have read := readText_ok_iff.mpr ⟨l, found, present⟩
  have written : files.writeText path (editText rs text) = _ := writeText_file found present
  simp only [editText] at written
  simp only [editFile, read, written, editText]
  by_cases locked : l ∈ files.locked <;> simp [locked]

theorem editFile_ok {changed : Nat} (done : editFile rs path files = .ok (changed, after)) :
    ∃ l, files.resolve path = .ok l ∧ Edited rs l files after := by
  cases read : files.readText path with
  | error fault => simp [editFile, read] at done
  | ok text =>
    obtain ⟨l, found, present⟩ := readText_ok_iff.mp read
    refine ⟨l, found, text, present, ?_⟩
    rw [editFile_eq found present] at done
    split at done
    · next unchanged =>
      obtain ⟨-, rfl⟩ := Prod.mk.inj (Except.ok.inj done)
      rw [editText_of_changedLines_eq_zero unchanged, put_present present]
    · split at done
      · contradiction
      · obtain ⟨-, rfl⟩ := Prod.mk.inj (Except.ok.inj done)
        rfl

theorem editFile_error {failure : Failure} (failed : editFile rs path files = .error failure) :
    ∃ reason, failure = .updateFailed path reason := by
  unfold editFile at failed
  split at failed
  · exact ⟨_, (Except.error.inj failed).symm⟩
  · next text read =>
    dsimp only at failed
    split at failed
    · contradiction
    · split at failed
      · exact ⟨_, (Except.error.inj failed).symm⟩
      · contradiction

theorem editFile_of_unreadable (rs : List Replacement) {fault : FileFault}
    (unread : files.readText path = .error fault) :
    editFile rs path files = .error (.updateFailed path ("Failed to read file: " ++ fault.message)) := by
  simp only [editFile, unread]

/-- The file at a path is readable as text, and may be written if a line of it changes. -/
def Admits (rs : List Replacement) (path : String) (files : FileTree) : Prop :=
  ∃ text, files.readText path = .ok text ∧
    (changedLines rs text.toList ≠ 0 → ∃ after, files.writeText path (editText rs text) = .ok after)

theorem editFile_of_admits (admitted : Admits rs path files) :
    ∃ changed after, editFile rs path files = .ok (changed, after) := by
  obtain ⟨text, read, written⟩ := admitted
  simp only [editFile, read]
  by_cases same : changedLines rs text.toList = 0
  · rw [if_pos same]
    exact ⟨_, _, rfl⟩
  · obtain ⟨after, done⟩ := written same
    rw [editText] at done
    rw [if_neg same, done]
    exact ⟨_, _, rfl⟩

theorem editFile_of_editable (editable : files.Editable path) :
    ∃ changed after, editFile rs path files = .ok (changed, after) := by
  obtain ⟨l, text, found, present, writable⟩ := editable_iff.mp editable
  rw [editFile_eq found present, if_neg writable]
  split
  · exact ⟨_, _, rfl⟩
  · exact ⟨_, _, rfl⟩

end ImageRelease.Edit
