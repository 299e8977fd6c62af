import ImageRelease.Plan.Release
import ImageRelease.Proofs.Edit.File
import ImageRelease.Proofs.Plan.Run

/-! How far the cutting of a release can get. Five commands and two edits can each stop it, and the stage
at which it ends says what was exchanged, what the result is and what the files are. The runner may
answer anything but leaves the files alone.
-/
namespace ImageRelease

variable {σ : Type}

/-- Commands touch no files: only the plan itself changes them. -/
def Runner.KeepsFiles (runner : Runner σ) : Prop :=
  ∀ c files host, (runner c files host).files = files

namespace Plan

open Edit

variable {runner : Runner σ} {s t : Session σ} {setup : Setup} {v : Version}

def branchCommand (v : Version) : Command :=
  if v.isPatch then Git.checkoutCommand v.branch else Git.createCommand v.branch

theorem enterBranch_eq (v : Version) :
    enterBranch v = perform (branchCommand v) (Git.reworded .branchFailed) := by
  unfold enterBranch branchCommand
  split
  · rfl
  · rfl

theorem run_perform_cases (keeps : runner.KeepsFiles) (c : Command) (reword : Failure → Failure)
    (s : Session σ) :
    ∃ (reply : Reply) (mid : Session σ), mid.exchanges = s.exchanges ++ [⟨c, reply⟩] ∧
      mid.files = s.files ∧
      ((∃ failure, reply.outcome = .error failure ∧
          (perform c reword).run runner s = (.error (reword failure), mid)) ∨
        reply.Succeeds ∧ (perform c reword).run runner s = (.ok (), mid)) := by
  refine ⟨(runner c s.files s.host).reply, s.after c (runner c s.files s.host), rfl,
    keeps c s.files s.host, ?_⟩
  rw [run_perform, Reply.Succeeds]
  cases (runner c s.files s.host).reply.outcome with
  | error failure => exact .inl ⟨failure, rfl, rfl⟩
  | ok output => exact .inr ⟨⟨output, rfl⟩, rfl⟩

theorem run_command_cases (keeps : runner.KeepsFiles) (c : Command) (s : Session σ) :
    ∃ (reply : Reply) (mid : Session σ), mid.exchanges = s.exchanges ++ [⟨c, reply⟩] ∧
      mid.files = s.files ∧
      ((∃ failure, reply.outcome = .error failure ∧
          (command c).run runner s = (.error failure, mid)) ∨
        ∃ output, reply.outcome = .ok output ∧ (command c).run runner s = (.ok output, mid)) := by
  refine ⟨(runner c s.files s.host).reply, s.after c (runner c s.files s.host), rfl,
    keeps c s.files s.host, ?_⟩
  rw [run_command]
  cases (runner c s.files s.host).reply.outcome with
  | error failure => exact .inl ⟨failure, rfl, rfl⟩
  | ok output => exact .inr ⟨output, rfl, rfl⟩

theorem run_changeFile_cases (wet : setup.dryRun = false) (path : String) (rs : List Replacement)
    (runner : Runner σ) (s : Session σ) :
    ∃ mid : Session σ, mid.exchanges = s.exchanges ∧
      ((∃ failure, editFile rs (setup.pathOf path) s.files = .error failure ∧ mid.files = s.files ∧
          (changeFile setup path rs).run runner s = (.error failure, mid)) ∨
        ∃ changed, editFile rs (setup.pathOf path) s.files = .ok (changed, mid.files) ∧
          (changeFile setup path rs).run runner s = (.ok (), mid)) := by
  simp only [changeFile, wet, Bool.false_eq_true, if_false, run_bind, run_files, run_ofExcept]
  cases editFile rs (setup.pathOf path) s.files with
  | error failure => exact ⟨s, rfl, .inl ⟨failure, rfl, rfl, rfl⟩⟩
  | ok edited =>
    obtain ⟨changed, after⟩ := edited
    simp only [run_replaceFiles]
    split
    · exact ⟨Session.told { s with files := after } _, rfl, .inr ⟨changed, rfl, rfl⟩⟩
    · exact ⟨Session.told { s with files := after } _, rfl, .inr ⟨changed, rfl, rfl⟩⟩

def Rewrites (setup : Setup) (v : Version) (files after : FileTree) : Prop :=
  ∃ pinned between assigned,
    editFile (pinImages v) (setup.pathOf setup.config.manifest) files = .ok (pinned, between) ∧
      editFile [assignVersion v] (setup.pathOf setup.config.versionFile) between = .ok (assigned, after)

/-- The ends of a cut that begins with some files: what is exchanged, the result, and the files left. -/
inductive CutEnds (setup : Setup) (v : Version) (files : FileTree) :
    List Exchange → Except Failure Unit → FileTree → Prop where
  | notEntered {entry : Reply} {failure : Failure} (failed : entry.outcome = .error failure) :
      CutEnds setup v files [⟨branchCommand v, entry⟩]
        (.error (Git.reworded .branchFailed failure)) files
  | manifestKept {entry : Reply} {failure : Failure} (entered : entry.Succeeds)
      (failed : editFile (pinImages v) (setup.pathOf setup.config.manifest) files = .error failure) :
      CutEnds setup v files [⟨branchCommand v, entry⟩] (.error failure) files
  | versionKept {entry : Reply} {failure : Failure} {pinned : Nat} {between : FileTree}
      (entered : entry.Succeeds)
      (first : editFile (pinImages v) (setup.pathOf setup.config.manifest) files = .ok (pinned, between))
      (failed : editFile [assignVersion v] (setup.pathOf setup.config.versionFile) between =
        .error failure) :
      CutEnds setup v files [⟨branchCommand v, entry⟩] (.error failure) between
  | notFormatted {entry format : Reply} {failure : Failure} {after : FileTree}
      (entered : entry.Succeeds) (rewritten : Rewrites setup v files after)
      (failed : format.outcome = .error failure) :
      CutEnds setup v files
        [⟨branchCommand v, entry⟩, ⟨formatCommand setup.config.versionFile, format⟩]
        (.error failure) after
  | notCommitted {entry format commit : Reply} {failure : Failure} {after : FileTree}
      (entered : entry.Succeeds) (rewritten : Rewrites setup v files after)
      (formatted : format.Succeeds) (failed : commit.outcome = .error failure) :
      CutEnds setup v files
        [⟨branchCommand v, entry⟩, ⟨formatCommand setup.config.versionFile, format⟩,
          ⟨Git.commitCommand (commitMessage v), commit⟩]
        (.error (Git.reworded .commitFailed failure)) after
  | notReturned {entry format commit back : Reply} {failure : Failure} {after : FileTree}
      (entered : entry.Succeeds) (rewritten : Rewrites setup v files after)
      (formatted : format.Succeeds) (committed : commit.Succeeds)
      (failed : back.outcome = .error failure) :
      CutEnds setup v files
        [⟨branchCommand v, entry⟩, ⟨formatCommand setup.config.versionFile, format⟩,
          ⟨Git.commitCommand (commitMessage v), commit⟩,
          ⟨Git.checkoutCommand setup.config.mainBranch, back⟩]
        (.error (Git.reworded .branchFailed failure)) after
  | finished {entry format commit back : Reply} {after : FileTree}
      (entered : entry.Succeeds) (rewritten : Rewrites setup v files after)
      (formatted : format.Succeeds) (committed : commit.Succeeds) (returned : back.Succeeds) :
      CutEnds setup v files
        [⟨branchCommand v, entry⟩, ⟨formatCommand setup.config.versionFile, format⟩,
          ⟨Git.commitCommand (commitMessage v), commit⟩,
          ⟨Git.checkoutCommand setup.config.mainBranch, back⟩]
        (.ok ()) after

theorem run_cut (keeps : runner.KeepsFiles) (wet : setup.dryRun = false) (v : Version)
    (s : Session σ) :
    ∃ later result t, (cut setup v).run runner s = (result, t) ∧
      t.exchanges = s.exchanges ++ later ∧ CutEnds setup v s.files later result t.files := by
  rw [cut, enterBranch_eq, Git.commit, Git.checkout]
  obtain ⟨entry, s₁, asked₁, kept₁, ⟨failure, failed, ran⟩ | ⟨entered, ran⟩⟩ :=
    run_perform_cases keeps (branchCommand v) (Git.reworded .branchFailed) s
  · exact ⟨_, _, _, run_bind_of_error ran, asked₁, kept₁ ▸ .notEntered failed⟩
  rw [run_bind_of_ok ran, ← kept₁]
  obtain ⟨s₂, asked₂, ⟨failure, failed, kept₂, ran⟩ | ⟨pinned, first, ran⟩⟩ :=
    run_changeFile_cases wet setup.config.manifest (pinImages v) runner s₁
  · refine ⟨_, _, _, run_bind_of_error ran, asked₂.trans asked₁, ?_⟩
    rw [kept₂]
    exact .manifestKept entered failed
  rw [run_bind_of_ok ran]
  obtain ⟨s₃, asked₃, ⟨failure, failed, kept₃, ran⟩ | ⟨assigned, second, ran⟩⟩ :=
    run_changeFile_cases wet setup.config.versionFile [assignVersion v] runner s₂
  · refine ⟨_, _, _, run_bind_of_error ran, (asked₃.trans asked₂).trans asked₁, ?_⟩
    rw [kept₃]
    exact .versionKept entered first failed
  rw [run_bind_of_ok ran]
  -- From here on the files stay as they are, as only commands are left.
  have rewritten : Rewrites setup v s₁.files s₃.files := ⟨pinned, s₂.files, assigned, first, second⟩
  have asked : s₃.exchanges = s.exchanges ++ [⟨branchCommand v, entry⟩] := by
    rw [asked₃, asked₂, asked₁]
  obtain ⟨format, s₄, asked₄, kept₄, ⟨failure, failed, ran⟩ | ⟨output, formatted, ran⟩⟩ :=
    run_command_cases keeps (formatCommand setup.config.versionFile) s₃
  · exact ⟨_, _, _, run_bind_of_error ran, by rw [asked₄, asked, List.append_assoc],
      by rw [kept₄]; exact .notFormatted entered rewritten failed⟩
  rw [run_bind_of_ok ran]
  have formatted : format.Succeeds := ⟨output, formatted⟩
  obtain ⟨commit, s₅, asked₅, kept₅, ⟨failure, failed, ran⟩ | ⟨committed, ran⟩⟩ :=
    run_perform_cases keeps (Git.commitCommand (commitMessage v)) (Git.reworded .commitFailed) s₄
  · exact ⟨_, _, _, run_bind_of_error ran,
      by rw [asked₅, asked₄, asked, List.append_assoc, List.append_assoc],
      by rw [kept₅, kept₄]; exact .notCommitted entered rewritten formatted failed⟩
  rw [run_bind_of_ok ran]
  obtain ⟨back, s₆, asked₆, kept₆, last⟩ :=
    run_perform_cases keeps (Git.checkoutCommand setup.config.mainBranch) (Git.reworded .branchFailed) s₅
  have kept : s₆.files = s₃.files := by rw [kept₆, kept₅, kept₄]
  rcases last with ⟨failure, failed, ran⟩ | ⟨returned, ran⟩
  · exact ⟨_, _, _, run_bind_of_error ran,
      by rw [asked₆, asked₅, asked₄, asked, List.append_assoc, List.append_assoc, List.append_assoc],
      by rw [kept]; exact .notReturned entered rewritten formatted committed failed⟩
  · exact ⟨_, _, s₆.told _, run_bind_of_ok ran,
      by rw [Session.exchanges_told, asked₆, asked₅, asked₄, asked, List.append_assoc,
        List.append_assoc, List.append_assoc],
      by rw [Session.files_told, kept]; exact .finished entered rewritten formatted committed returned⟩

end Plan

end ImageRelease
