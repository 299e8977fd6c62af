import Mathlib.Data.Set.Insert
import ImageRelease.Proofs.Release.Clearance
import ImageRelease.Proofs.Release.Stages

/-! A release on a checkout with branches. A branch is created when there is none of its name, and entered when there
is one; nothing else that is asked of git changes the branches, and all other commands succeed. A release then
ends well if its branch step does, and leaves the branches with its own among them.
-/
namespace ImageRelease

variable {σ : Type}

/-- Both files that a release edits can be read as text and written. -/
structure FileTree.Ready (files : FileTree) (setup : Setup) : Prop where
  manifest : files.Editable (setup.pathOf setup.config.manifest)
  versionFile : files.Editable (setup.pathOf setup.config.versionFile)

/-- A clean checkout with a set of branches, which the host of the runner keeps. Commands leave files that can be
edited. -/
structure Runner.Branching (runner : Runner σ) (setup : Setup) (branches : σ → Set String) : Prop where
  clean : ∀ files host, ∃ output, (runner Git.statusCommand files host).reply.outcome = .ok output ∧
    Text.trim output.stdout = ""
  creates : ∀ b files host,
    (runner (Git.createCommand b) files host).reply.Succeeds ↔ b ∉ branches host
  enters : ∀ b files host,
    (runner (Git.checkoutCommand b) files host).reply.Succeeds ↔ b ∈ branches host
  succeeds : ∀ c files host,
    (∀ b, c.argv ≠ (Git.createCommand b).argv ∧ c.argv ≠ (Git.checkoutCommand b).argv) →
    (runner c files host).reply.Succeeds
  created : ∀ b files host,
    branches (runner (Git.createCommand b) files host).host = insert b (branches host)
  kept : ∀ c files host, (∀ b, c.argv ≠ (Git.createCommand b).argv) →
    branches (runner c files host).host = branches host
  ready : ∀ c files host, files.Ready setup → (runner c files host).files.Ready setup

/-- The branch step of a release can be passed: its branch is there for a patch, and is not there else. -/
def Version.Enterable (v : Version) (branches : Set String) : Prop :=
  if v.isPatch then v.branch ∈ branches else v.branch ∉ branches

namespace Plan

open Edit

variable {runner : Runner σ} {setup : Setup} {branches : σ → Set String} {s : Session σ} {v : Version}

theorem checkout_ne_create (b other : String) : (Git.checkoutCommand b).argv ≠ (Git.createCommand other).argv := by
  intro same
  exact absurd (congrArg List.length same) (show (3 : Nat) ≠ 4 by decide)

theorem argv_ne_branch {c : Command} (other : c.argv.take 2 ≠ ["git", "checkout"]) (b : String) :
    c.argv ≠ (Git.createCommand b).argv ∧ c.argv ≠ (Git.checkoutCommand b).argv :=
  ⟨fun same => other (congrArg (List.take 2) same), fun same => other (congrArg (List.take 2) same)⟩

theorem format_ne_branch (path b : String) :
    (formatCommand path).argv ≠ (Git.createCommand b).argv ∧
      (formatCommand path).argv ≠ (Git.checkoutCommand b).argv :=
  argv_ne_branch (c := formatCommand path) (show ["gofmt", "-w"] ≠ ["git", "checkout"] by decide) b

theorem commit_ne_branch (message b : String) :
    (Git.commitCommand message).argv ≠ (Git.createCommand b).argv ∧
      (Git.commitCommand message).argv ≠ (Git.checkoutCommand b).argv :=
  argv_ne_branch (c := Git.commitCommand message) (show ["git", "commit"] ≠ ["git", "checkout"] by decide) b

theorem status_ne_create (b : String) : Git.statusCommand.argv ≠ (Git.createCommand b).argv :=
  (argv_ne_branch (c := Git.statusCommand) (show ["git", "status"] ≠ ["git", "checkout"] by decide) b).1

theorem run_perform_of_succeeds {c : Command} (reword : Failure → Failure)
    (succeeds : (runner c s.files s.host).reply.Succeeds) :
    (perform c reword).run runner s = (.ok (), s.after c (runner c s.files s.host)) := by
  obtain ⟨output, replied⟩ := succeeds
  rw [run_perform, replied]
  rfl

theorem run_perform_of_not_succeeds {c : Command} (reword : Failure → Failure)
    (fails : ¬(runner c s.files s.host).reply.Succeeds) :
    ∃ failure, (perform c reword).run runner s = (.error failure, s.after c (runner c s.files s.host)) := by
  rw [run_perform]
  cases replied : (runner c s.files s.host).reply.outcome with
  | error failure => exact ⟨reword failure, rfl⟩
  | ok output => exact absurd ⟨output, replied⟩ fails

theorem run_changeFile_of_ready (runner : Runner σ) {path : String} (rs : List Replacement)
    (ready : s.files.Ready setup) (editable : s.files.Editable (setup.pathOf path)) :
    ∃ mid : Session σ, (changeFile setup path rs).run runner s = (.ok (), mid) ∧ mid.host = s.host ∧
      mid.files.Ready setup := by
  by_cases wet : setup.dryRun = false
  · obtain ⟨changed, after, edited⟩ :
        ∃ changed after, editFile rs (setup.pathOf path) s.files = .ok (changed, after) :=
      editFile_of_editable editable
    obtain ⟨l, -, edits⟩ := editFile_ok edited
    have readyToo : after.Ready setup := ⟨edits.editable ready.manifest, edits.editable ready.versionFile⟩
    simp only [changeFile, wet, Bool.false_eq_true, if_false, run_bind, run_files, run_ofExcept, edited,
      run_replaceFiles]
    split
    · exact ⟨_, rfl, rfl, readyToo⟩
    · exact ⟨_, rfl, rfl, readyToo⟩
  · have dry : setup.dryRun = true := by simpa using wet
    simp only [changeFile, dry, if_true]
    exact ⟨_, rfl, rfl, ready⟩

def finish (setup : Setup) (v : Version) : Plan Unit := do
  changeFile setup setup.config.manifest (pinImages v)
  changeFile setup setup.config.versionFile [assignVersion v]
  let _ ← command (formatCommand setup.config.versionFile)
  Git.commit (commitMessage v)
  Git.checkout setup.config.mainBranch
  notify (.success ("Release " ++ v.tag ++ " committed on branch " ++ v.branch))

theorem cut_eq (setup : Setup) (v : Version) : cut setup v = enterBranch v >>= fun _ => finish setup v := rfl

theorem run_finish (git : runner.Branching setup branches) (main : setup.config.mainBranch ∈ branches s.host)
    (ready : s.files.Ready setup) :
    ∃ t, (finish setup v).run runner s = (.ok (), t) ∧ branches t.host = branches s.host := by
  obtain ⟨s₁, first, host₁, ready₁⟩ := run_changeFile_of_ready runner (pinImages v) ready ready.manifest
  obtain ⟨s₂, second, host₂, ready₂⟩ :=
    run_changeFile_of_ready runner [assignVersion v] ready₁ ready₁.versionFile
  obtain ⟨output, formatted⟩ := git.succeeds (formatCommand setup.config.versionFile) s₂.files s₂.host
    (format_ne_branch _)
  let s₃ := s₂.after (formatCommand setup.config.versionFile)
    (runner (formatCommand setup.config.versionFile) s₂.files s₂.host)
  have third : (command (formatCommand setup.config.versionFile)).run runner s₂ = (.ok output, s₃) := by
    rw [run_command, formatted]
  have host₃ : branches s₃.host = branches s.host := by
    rw [← host₁, ← host₂]
    exact git.kept _ s₂.files s₂.host fun b => (format_ne_branch _ b).1
  let s₄ := s₃.after (Git.commitCommand (commitMessage v))
    (runner (Git.commitCommand (commitMessage v)) s₃.files s₃.host)
  have fourth : (Git.commit (commitMessage v)).run runner s₃ = (.ok (), s₄) :=
    run_perform_of_succeeds _ (git.succeeds _ s₃.files s₃.host (commit_ne_branch _))
  have host₄ : branches s₄.host = branches s.host := by
    rw [← host₃]
    exact git.kept _ s₃.files s₃.host fun b => (commit_ne_branch _ b).1
  let s₅ := s₄.after (Git.checkoutCommand setup.config.mainBranch)
    (runner (Git.checkoutCommand setup.config.mainBranch) s₄.files s₄.host)
  have back : (Git.checkout setup.config.mainBranch).run runner s₄ = (.ok (), s₅) :=
    run_perform_of_succeeds _ ((git.enters _ s₄.files s₄.host).mpr (host₄ ▸ main))
  have host₅ : branches s₅.host = branches s.host := by
    rw [← host₄]
    exact git.kept _ s₄.files s₄.host (checkout_ne_create _)
  refine ⟨s₅.told (.success ("Release " ++ v.tag ++ " committed on branch " ++ v.branch)), ?_, host₅⟩
  rw [finish, run_bind_of_ok first, run_bind_of_ok second, run_bind_of_ok third, run_bind_of_ok fourth,
    run_bind_of_ok back, run_notify]

theorem branchCommand_answered (git : runner.Branching setup branches) (v : Version) (files : FileTree) (host : σ) :
    ((runner (branchCommand v) files host).reply.Succeeds ↔ v.Enterable (branches host)) ∧
      (v.Enterable (branches host) →
        branches (runner (branchCommand v) files host).host = insert v.branch (branches host)) := by
  unfold branchCommand Version.Enterable
  by_cases patch : v.isPatch = true
  · simp only [patch, if_true]
    refine ⟨git.enters v.branch files host, fun there => ?_⟩
    rw [git.kept _ files host (checkout_ne_create _), Set.insert_eq_of_mem there]
  · simp only [patch, Bool.false_eq_true, if_false]
    exact ⟨git.creates v.branch files host, fun _ => git.created v.branch files host⟩

/-- A release issued the command for its branch, and it succeeded. -/
def Entered (v : Version) (ended : Except Failure Unit × Session σ) : Prop :=
  ∃ status entry later, ended.2.exchanges = status :: ⟨branchCommand v, entry⟩ :: later ∧ entry.Succeeds

theorem entered_iff {ended : Except Failure Unit × Session σ} {status : Exchange} {entry : Reply}
    {later : List Exchange} (exchanged : ended.2.exchanges = status :: ⟨branchCommand v, entry⟩ :: later) :
    Entered v ended ↔ entry.Succeeds := by
  constructor
  · rintro ⟨other, reply, rest, known, succeeds⟩
    rw [exchanged, List.cons.injEq, List.cons.injEq, Exchange.mk.injEq] at known
    obtain ⟨-, ⟨-, rfl⟩, -⟩ := known
    exact succeeds
  · exact fun succeeds => ⟨status, entry, later, exchanged, succeeds⟩

theorem release_entered_iff (git : runner.Branching setup branches) {host : σ}
    (main : setup.config.mainBranch ∈ branches host) {files : FileTree} (ready : files.Ready setup) {text : String}
    (parsed : Version.parse text = .ok v) :
    let ended := (release setup ⟨text, true⟩).run runner (.fresh files host)
    (Entered v ended ↔ v.Enterable (branches host)) ∧
      (v.Enterable (branches host) →
        ended.1 = .ok () ∧ branches ended.2.host = insert v.branch (branches host)) := by
  intro ended
  obtain ⟨mid, asked, files₀, host₀, ⟨failure, -, uncleared⟩ | ⟨w, cleared, went⟩⟩ :=
    release_cases runner files host setup ⟨text, true⟩
  · exact absurd ⟨git.clean files host, parsed, .inl rfl⟩ (uncleared v)
  obtain rfl : v = w := Except.ok.inj (parsed.symm.trans cleared.parsed)
  have branches₀ : branches mid.host = branches host := by
    rw [host₀]
    exact git.kept _ files host status_ne_create
  have ready₀ : mid.files.Ready setup := files₀ ▸ git.ready _ files host ready
  obtain ⟨succeeds_iff, inserted⟩ := branchCommand_answered git v mid.files mid.host
  rw [branches₀] at succeeds_iff inserted
  let a := runner (branchCommand v) mid.files mid.host
  let entered := mid.after (branchCommand v) a
  have ended_eq : ended = (cut setup v).run runner mid := went
  rw [cut_eq, enterBranch_eq] at ended_eq
  have issued : entered.exchanges =
      [⟨Git.statusCommand, (runner Git.statusCommand files host).reply⟩, ⟨branchCommand v, a.reply⟩] := by
    rw [Session.exchanges_after, asked]
    rfl
  by_cases enterable : v.Enterable (branches host)
  · have ran : ended = (finish setup v).run runner entered := by
      rw [ended_eq, run_bind_of_ok (run_perform_of_succeeds _ (succeeds_iff.mpr enterable))]
    have there : branches entered.host = insert v.branch (branches host) := inserted enterable
    obtain ⟨t, finished, left⟩ := run_finish (v := v) git (s := entered)
      (there ▸ Set.mem_insert_of_mem _ main) (git.ready _ _ _ ready₀)
    have exchanged := exchanges_run runner (finish setup v) entered
    rw [← ran, issued] at exchanged
    refine ⟨(entered_iff exchanged).trans succeeds_iff, fun _ => ?_⟩
    rw [ran, finished]
    exact ⟨rfl, left.trans there⟩
  · obtain ⟨failure, stopped⟩ := run_perform_of_not_succeeds (Git.reworded .branchFailed)
      (mt succeeds_iff.mp enterable)
    rw [run_bind_of_error stopped] at ended_eq
    have last : ended.2 = entered := congrArg Prod.snd ended_eq
    have exchanged := (congrArg Session.exchanges last).trans issued
    exact ⟨(entered_iff exchanged).trans succeeds_iff, fun passable => absurd passable enterable⟩

end Plan

end ImageRelease
