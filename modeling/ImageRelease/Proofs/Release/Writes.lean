import ImageRelease.Command.Scripted
import ImageRelease.Proofs.Edit.Change
import ImageRelease.Proofs.Release.Stages

/-! When a file is written. Editing writes a file if and only if its text becomes another one, and the number of changed
lines tells which it is, whatever is done to the lines. So the files stay as they are when the text cannot be read, when
it comes out as it was, when it cannot be written, and in a dry run.
-/
namespace ImageRelease

namespace Edit

open FileTree

variable {f : List Char → List Char} {files after : FileTree} {path : String} {changed : Nat}

def editTextBy (f : List Char → List Char) (text : String) : String := String.ofList (editBy f text.toList)

def editFileBy (f : List Char → List Char) (path : String) (files : FileTree) : Except Failure (Nat × FileTree) :=
  match files.readText path with
  | .error fault => .error (.updateFailed path ("Failed to read file: " ++ fault.message))
  | .ok text =>
    if changedLinesBy f text.toList = 0 then .ok (0, files)
    else
      match files.writeText path (editTextBy f text) with
      | .error fault => .error (.updateFailed path ("Failed to write file: " ++ fault.message))
      | .ok after => .ok (changedLinesBy f text.toList, after)

theorem editFile_eq_editFileBy (rs : List Replacement) : editFile rs = editFileBy (applyAll rs) := rfl

theorem editTextBy_eq_self_iff {text : String} : editTextBy f text = text ↔ changedLinesBy f text.toList = 0 := by
  rw [← editBy_eq_self_iff, editTextBy, ← String.toList_inj, String.toList_ofList]

/-- The ends of an edit: the text cannot be read, it comes out as it was, it cannot be written, or it is written. -/
inductive FileEdited (f : List Char → List Char) (path : String) (files : FileTree) :
    Except Failure (Nat × FileTree) → Prop where
  | unread {fault : FileFault} (unread : files.readText path = .error fault) :
      FileEdited f path files (.error (.updateFailed path ("Failed to read file: " ++ fault.message)))
  | same {text : String} (read : files.readText path = .ok text) (same : editTextBy f text = text) :
      FileEdited f path files (.ok (0, files))
  | unwritten {text : String} {fault : FileFault} (read : files.readText path = .ok text)
      (other : editTextBy f text ≠ text) (unwritten : files.writeText path (editTextBy f text) = .error fault) :
      FileEdited f path files (.error (.updateFailed path ("Failed to write file: " ++ fault.message)))
  | written {text : String} {after : FileTree} (read : files.readText path = .ok text)
      (other : editTextBy f text ≠ text) (written : files.writeText path (editTextBy f text) = .ok after) :
      FileEdited f path files (.ok (changedLinesBy f text.toList, after))

theorem fileEdited (f : List Char → List Char) (path : String) (files : FileTree) :
    FileEdited f path files (editFileBy f path files) := by
  rw [editFileBy]
  split
  · next fault unread => exact .unread unread
  · next text read =>
    split
    · next none => exact .same read (editTextBy_eq_self_iff.mpr none)
    · next some =>
      have other : editTextBy f text ≠ text := fun same => some (editTextBy_eq_self_iff.mp same)
      split
      · next fault unwritten => exact .unwritten read other unwritten
      · next after written => exact .written read other written

/-- The text of the file at a path becomes another one, and is written. -/
def Writes (f : List Char → List Char) (path : String) (files after : FileTree) : Prop :=
  ∃ text, files.readText path = .ok text ∧ editTextBy f text ≠ text ∧
    files.writeText path (editTextBy f text) = .ok after

theorem Writes.ne (writes : Writes f path files after) : after ≠ files := by
  obtain ⟨text, read, other, written⟩ := writes
  rintro rfl
  have same := read.symm.trans (readText_of_writeText read written)
  exact other (Except.ok.inj same).symm

namespace FileEdited

theorem count_eq_zero_iff (edited : FileEdited f path files (.ok (changed, after))) :
    changed = 0 ↔ after = files := by
  cases edited with
  | same => simp
  | written read other written =>
    have different : after ≠ files := Writes.ne ⟨_, read, other, written⟩
    exact iff_of_false (fun none => other (editTextBy_eq_self_iff.mpr none)) different

theorem writes_iff {result : Except Failure (Nat × FileTree)} (edited : FileEdited f path files result) :
    Writes f path files after ↔ (∃ changed, result = .ok (changed, after)) ∧ after ≠ files := by
  constructor
  · intro writes
    refine ⟨?_, writes.ne⟩
    obtain ⟨text, read, other, written⟩ := writes
    cases edited with
    | unread unread => exact nomatch read.symm.trans unread
    | same found same =>
      obtain rfl := Except.ok.inj (read.symm.trans found)
      exact absurd same other
    | unwritten found _ unwritten =>
      obtain rfl := Except.ok.inj (read.symm.trans found)
      exact nomatch written.symm.trans unwritten
    | written found _ there =>
      obtain rfl := Except.ok.inj (read.symm.trans found)
      obtain rfl := Except.ok.inj (written.symm.trans there)
      exact ⟨_, rfl⟩
  · rintro ⟨⟨changed, rfl⟩, different⟩
    cases edited with
    | same => contradiction
    | written read other written => exact ⟨_, read, other, written⟩

end FileEdited

end Edit

namespace Plan

open Edit

variable {σ : Type}

theorem run_changeFile_files_iff (runner : Runner σ) (setup : Setup) (path : String) (rs : List Replacement)
    (s : Session σ) (after : FileTree) :
    ((changeFile setup path rs).run runner s).2.files = after ∧ after ≠ s.files ↔
      setup.dryRun = false ∧ Writes (applyAll rs) (setup.pathOf path) s.files after := by
  cases wet : setup.dryRun with
  | true =>
    have kept : ((changeFile setup path rs).run runner s).2.files = s.files := by
      rw [changeFile, wet]
      rfl
    rw [kept]
    simp [eq_comm]
  | false =>
    have edited := fileEdited (applyAll rs) (setup.pathOf path) s.files
    rw [← editFile_eq_editFileBy] at edited
    rw [edited.writes_iff]
    obtain ⟨t, -, ⟨failure, failed, kept, ran⟩ | ⟨changed, done, ran⟩⟩ := run_changeFile_cases wet path rs runner s
    · rw [failed, ran, kept]
      simp [eq_comm]
    · rw [done, ran]
      simp

/-- Whatever is done to the texts of lines, by replacements or otherwise, a text comes out as it was if and only if no
line is counted as changed, and a file is written if and only if its text becomes another one. So the files are the ones
before when none is counted, and a step of a release leaves other files only if it could read a text, has changed it and
could write it. -/
theorem written_iff_changed :
    (∀ rs : List Replacement, edit rs = editBy (applyAll rs) ∧ changedLines rs = changedLinesBy (applyAll rs) ∧
      editFile rs = editFileBy (applyAll rs)) ∧
    (∀ (f : List Char → List Char) (content : List Char), changedLinesBy f content = 0 ↔ editBy f content = content) ∧
    (∀ (f : List Char → List Char) (path : String) (files : FileTree),
      FileEdited f path files (editFileBy f path files) ∧
        ∀ changed after, editFileBy f path files = .ok (changed, after) → (changed = 0 ↔ after = files)) ∧
    ∀ (σ : Type) (runner : Runner σ) (setup : Setup) (path : String) (rs : List Replacement) (s : Session σ)
      (after : FileTree), ((changeFile setup path rs).run runner s).2.files = after ∧ after ≠ s.files ↔
        setup.dryRun = false ∧ Writes (applyAll rs) (setup.pathOf path) s.files after := by
  refine ⟨?_, fun f content => editBy_eq_self_iff.symm, fun f path files => ⟨fileEdited f path files, ?_⟩, ?_⟩
  · exact fun rs => ⟨edit_eq_editBy rs, changedLines_eq_changedLinesBy rs, editFile_eq_editFileBy rs⟩
  · intro changed after done
    have edited := fileEdited f path files
    rw [done] at edited
    exact edited.count_eq_zero_iff
  · exact fun σ => run_changeFile_files_iff

/-- A text whose edit has as many letters as before, and three paths that lead to no text. -/
def unevenFiles : FileTree where
  workingDirectory := []
  entries := [(["text"], .file "b\n\n".toUTF8), (["folder"], .directory), (["bytes"], .file ⟨#[0xFF]⟩)]

def feedForB : Replacement := { pattern := Pattern.literal ['b'], text := ['\n'] }

def unevenSetup : Setup := { workspace := "", config := Config.default, dryRun := false }

def unevenStep (path : String) : FileTree :=
  ((changeFile unevenSetup path [feedForB]).run Scripted.runner (.fresh unevenFiles [])).2.files

theorem written_iff_changed_uneven :
    (∃ after, editFileBy (applyAll [feedForB]) "text" unevenFiles = .ok (1, after) ∧ after ≠ unevenFiles ∧
      after.readText "text" = .ok "\n\n\n" ∧ unevenStep "text" = after) ∧
      (unevenFiles.readText "absent" = .error .notFound ∧ unevenStep "absent" = unevenFiles) ∧
      (unevenFiles.readText "folder" = .error .isDirectory ∧ unevenStep "folder" = unevenFiles) ∧
      unevenFiles.readText "bytes" = .error .notText ∧ unevenStep "bytes" = unevenFiles := by
  obtain ⟨-, -, ends, steps⟩ := written_iff_changed
  have kept {path : String} {fault : FileFault} (unread : unevenFiles.readText path = .error fault)
      (there : unevenSetup.pathOf path = path) : unevenStep path = unevenFiles := by
    by_contra different
    obtain ⟨-, text, read, -⟩ := (steps _ Scripted.runner unevenSetup path [feedForB] _ _).mp ⟨rfl, different⟩
    rw [there] at read
    exact nomatch unread.symm.trans read
  have absent : unevenFiles.readText "absent" = .error .notFound := by decide +kernel
  have folder : unevenFiles.readText "folder" = .error .isDirectory := by decide +kernel
  have bytes : unevenFiles.readText "bytes" = .error .notText := by decide +kernel
  have read : unevenFiles.readText "text" = .ok "b\n\n" := by decide +kernel
  have edited : editTextBy (applyAll [feedForB]) "b\n\n" = "\n\n\n" := by decide +kernel
  have counted : changedLinesBy (applyAll [feedForB]) "b\n\n".toList = 1 := by decide +kernel
  have writable : unevenFiles.Editable "text" :=
    FileTree.editable_iff.mpr ⟨["text"], "b\n\n", by decide +kernel, rfl, List.not_mem_nil⟩
  obtain ⟨after, written⟩ := writable.2 "\n\n\n"
  have done : editFileBy (applyAll [feedForB]) "text" unevenFiles = .ok (1, after) := by
    simp only [editFileBy, read, counted, edited, written]
    rfl
  have different : after ≠ unevenFiles := fun same => nomatch ((ends _ _ _).2 _ _ done).mpr same
  have writes : Writes (applyAll [feedForB]) (unevenSetup.pathOf "text") unevenFiles after :=
    ⟨"b\n\n", by decide +kernel, by decide +kernel, by rw [edited]; exact written⟩
  have step := (steps _ Scripted.runner unevenSetup "text" [feedForB] (.fresh unevenFiles []) after).mpr ⟨rfl, writes⟩
  exact ⟨⟨after, done, different, FileTree.readText_of_writeText read written, step.1⟩,
    ⟨absent, kept absent rfl⟩, ⟨folder, kept folder rfl⟩, bytes, kept bytes rfl⟩

end Plan

end ImageRelease
