import ImageRelease.Proofs.Edit.File
import ImageRelease.Proofs.Edit.Marked

/-! Releasing over a release. The edits for a later version find what the edits for an earlier one had found, so the
earlier ones leave no trace, neither in a text nor in a file, whether or not the file had to be written.
-/
namespace ImageRelease.Edit

open FileTree

variable {rs ss : List Replacement} {files between : FileTree} {path : String} {changed : Nat}

theorem editFile_of_writable {l : Location} {text : String} (found : files.resolve path = .ok l)
    (present : files.lookup l = some (.file text.toUTF8)) (writable : l ∉ files.locked) :
    (editFile rs path files).map Prod.snd = .ok (files.put l (.file (editText rs text).toUTF8)) := by
  rw [editFile_eq found present, if_neg writable]
  split
  · next same =>
    rw [editText_of_changedLines_eq_zero same, put_present present]
    rfl
  · rfl

theorem editFile_of_locked {l : Location} {text : String} (found : files.resolve path = .ok l)
    (present : files.lookup l = some (.file text.toUTF8)) (locked : l ∈ files.locked)
    (done : editFile rs path files = .ok (changed, between)) : between = files := by
  rw [editFile_eq found present, if_pos locked] at done
  split at done
  · exact (Prod.mk.inj (Except.ok.inj done)).2.symm
  · contradiction

theorem editFile_editFile (hides : ∀ content, edit ss (edit rs content) = edit ss content)
    (done : editFile rs path files = .ok (changed, between)) :
    (editFile ss path between).map Prod.snd = (editFile ss path files).map Prod.snd := by
  obtain ⟨l, found, edited⟩ := editFile_ok done
  have ⟨text, present, put⟩ := edited
  by_cases locked : l ∈ files.locked
  · rw [editFile_of_locked found present locked done]
  · have found' : between.resolve path = .ok l := by rw [edited.resolve_eq, found]
    have present' : between.lookup l = some (.file (editText rs text).toUTF8) := by
      rw [put, lookup_put _ (ne_root_of_file present), if_pos rfl]
    have writable : l ∉ between.locked := by rwa [edited.locked_eq]
    rw [editFile_of_writable found' present' writable, editFile_of_writable found present locked, put, put_put]
    simp [editText, hides]

theorem editFile_again (none : ∀ content, changedLines rs (edit rs content) = 0)
    (done : editFile rs path files = .ok (changed, between)) : editFile rs path between = .ok (0, between) := by
  obtain ⟨l, found, edited⟩ := editFile_ok done
  have ⟨text, present, put⟩ := edited
  have found' : between.resolve path = .ok l := by rw [edited.resolve_eq, found]
  have present' : between.lookup l = some (.file (editText rs text).toUTF8) := by
    rw [put, lookup_put _ (ne_root_of_file present), if_pos rfl]
  rw [editFile_eq found' present', if_pos (by simp [editText, none])]

/-- Editing a text or a file for one version and then for another leaves what editing it for the other alone
leaves. Editing it for the same version once more finds no line to change. -/
theorem rerelease_overwrites {edits : Version → List Replacement} (listed : edits ∈ releaseEdits)
    {earlier later : String} {v w : Version} (first : Version.parse earlier = .ok v)
    (second : Version.parse later = .ok w) :
    (∀ content : List Char, edit (edits w) (edit (edits v) content) = edit (edits w) content ∧
      edit (edits v) (edit (edits v) content) = edit (edits v) content ∧
      changedLines (edits v) (edit (edits v) content) = 0) ∧
    ∀ (files between : FileTree) (path : String) (changed : Nat),
      editFile (edits v) path files = .ok (changed, between) →
        (editFile (edits w) path between).map Prod.snd = (editFile (edits w) path files).map Prod.snd ∧
        editFile (edits v) path between = .ok (0, between) := by
  obtain ⟨κ, key, overwrites⟩ := overwrites_releaseEdits listed
  obtain ⟨text, one⟩ := overwrites (quiet_version first)
  obtain ⟨other, two⟩ := overwrites (quiet_version second)
  refine ⟨fun content => ⟨one.edit_edit two content, one.edit_edit one content,
    one.changedLines_edit content⟩, fun files between path changed done => ⟨?_, ?_⟩⟩
  · exact editFile_editFile (one.edit_edit two) done
  · exact editFile_again one.changedLines_edit done

def crowdedText : String :=
  "x image: metallb/controller:image: metallb/speaker:v1\r\nimage: image: metallb/speaker:i"

def crowdedFiles : FileTree where
  workingDirectory := []
  entries := [(["manifest"], .file crowdedText.toUTF8)]

def crowdedVersion : Version := ⟨0, 10, 0, ["image".toList, "1".toList], ["build".toList]⟩

theorem rerelease_overwrites_crowded :
    ∃ w, Version.parse "0.10.0-image.1+build" = .ok crowdedVersion ∧ Version.parse "0.9.3" = .ok w ∧
      edit (pinImages w) (edit (pinImages crowdedVersion) crowdedText.toList) =
        "x image: metallb/controller:v0.9.3\r\nimage: image: metallb/speaker:v0.9.3".toList ∧
      ∃ between, editFile (pinImages crowdedVersion) "manifest" crowdedFiles = .ok (2, between) ∧
        (editFile (pinImages w) "manifest" between).map Prod.snd =
          (editFile (pinImages w) "manifest" crowdedFiles).map Prod.snd ∧
        editFile (pinImages crowdedVersion) "manifest" between = .ok (0, between) := by
  have first : Version.parse "0.10.0-image.1+build" = .ok crowdedVersion := by decide +kernel
  have second : Version.parse "0.9.3" = .ok ⟨0, 9, 3, [], []⟩ := by decide +kernel
  obtain ⟨texts, inFiles⟩ := rerelease_overwrites List.mem_cons_self first second
  have found : crowdedFiles.resolve "manifest" = .ok ["manifest"] := by decide +kernel
  have counted : changedLines (pinImages crowdedVersion) crowdedText.toList = 2 := by decide +kernel
  have done : ∃ between, editFile (pinImages crowdedVersion) "manifest" crowdedFiles = .ok (2, between) := by
    rw [editFile_eq found rfl, counted]
    exact ⟨_, rfl⟩
  obtain ⟨between, done⟩ := done
  refine ⟨_, first, second, ?_, between, done, inFiles _ _ _ _ done⟩
  rw [(texts crowdedText.toList).1]
  decide +kernel

end ImageRelease.Edit
