import ImageRelease.Plan.Push
import ImageRelease.Plan.Release
import ImageRelease.Proofs.Plan.Within

/-! The commands that the plans can issue. Four of them are questions: these are captured and every other
one is echoed instead, so what a dry run leaves out and what it announces are the same commands. The
plans themselves tell of no command.
-/
namespace ImageRelease

def Notice.isCommand : Notice → Bool
  | command _ => true
  | _ => false

/-- The questions that plans ask, by program and arguments. -/
def queries : List (List String) :=
  [["docker", "info", "--format", "\x7b\x7b.ServerVersion\x7d\x7d"],
    ["git", "describe", "--dirty", "--always"],
    ["git", "rev-parse", "--abbrev-ref", "HEAD"],
    ["git", "status", "--porcelain"]]

/-- A command is captured when it is a question, and echoed when it is not. -/
structure Command.Marked (c : Command) : Prop where
  captured : c.capture = true ↔ c.argv ∈ queries
  echoed : c.echo = true ↔ c.capture = false

namespace Command.Marked

theorem query {c : Command} (captured : c.capture = true) (silent : c.echo = false)
    (known : c.argv ∈ queries) : c.Marked :=
  ⟨by simp [captured, known], by simp [captured, silent]⟩

theorem change {c : Command} (uncaptured : c.capture = false) (echoed : c.echo = true)
    (unknown : c.argv ∉ queries) : c.Marked :=
  ⟨by simp [uncaptured, unknown], by simp [uncaptured, echoed]⟩

end Command.Marked

namespace Plan

variable {allowed : Step → Prop} {mayStore : Prop}

theorem marked_gitChange {args : List String} (unknown : "git" :: args ∉ queries) :
    (Git.changeCommand args).Marked := .change rfl rfl unknown

theorem marked_checkout (branch : String) : (Git.checkoutCommand branch).Marked :=
  marked_gitChange (by simp [queries])

theorem marked_create (branch : String) : (Git.createCommand branch).Marked :=
  marked_gitChange (by simp [queries])

theorem marked_commit (message : String) : (Git.commitCommand message).Marked :=
  marked_gitChange (by simp [queries])

theorem marked_format (versionFile : String) : (formatCommand versionFile).Marked :=
  .change rfl rfl (by simp [queries, Command.argv, formatCommand, Command.of, Command.echoed])

theorem marked_dockerBuild (image : Docker.ImageName) (commit branch dir : String) :
    (Docker.build image commit branch dir).Marked :=
  .change rfl rfl
    (by simp [queries, Command.argv, Docker.build, Command.of, Command.echoed, Command.patient])

theorem marked_dockerPush (image : Docker.ImageName) : (Docker.push image).Marked :=
  .change rfl rfl
    (by simp [queries, Command.argv, Docker.push, Command.of, Command.echoed, Command.patient])

def Step.Marked (mayStore : Prop) : Step → Prop
  | issue c => c.Marked
  | tell n => n.isCommand = false
  | store _ => mayStore

inductive BuildStep (dockerfileDir : String) : Step → Prop where
  | info : BuildStep dockerfileDir (.issue Docker.info)
  | tests : BuildStep dockerfileDir (.issue testCommand)
  | describe : BuildStep dockerfileDir (.issue Git.describeCommand)
  | branch : BuildStep dockerfileDir (.issue Git.branchCommand)
  | image (image : Docker.ImageName) (commit branch : String) :
      BuildStep dockerfileDir (.issue (Docker.build image commit branch dockerfileDir))
  | warning (message : String) : BuildStep dockerfileDir (.tell (.warning message))
  | detail (message : String) : BuildStep dockerfileDir (.tell (.detail message))

theorem BuildStep.marked {dir : String} {step : Step} (building : BuildStep dir step) :
    step.Marked mayStore := by
  cases building with
  | info => exact .query rfl rfl (by decide)
  | tests => exact .change rfl rfl (by decide)
  | describe => exact .query rfl rfl (by decide)
  | branch => exact .query rfl rfl (by decide)
  | image image commit branch => exact marked_dockerBuild image commit branch dir
  | warning message => rfl
  | detail message => rfl

theorem within_ask {c : Command} (permitted : allowed (.issue c)) : (Git.ask c).Within allowed :=
  .bind (.command permitted) fun _ => .pure _

theorem within_runTests (dir : String) (request : ImageRequest) :
    (runTests request).Within (BuildStep dir) := by
  unfold runTests
  split
  · exact .notify (.warning _)
  · exact .bind (.command .tests) fun _ => .pure _

theorem within_produceEach (dir commit branch : String) (images : List Docker.ImageName) :
    (produceEach dir commit branch images).Within (BuildStep dir) := by
  induction images with
  | nil => exact .pure _
  | cons image images ih => exact .bind (.command (.image image commit branch)) fun _ => ih

theorem within_produce (setup : Setup) (request : ImageRequest) (binaries : List Binary) :
    (produce setup request binaries).Within (BuildStep setup.config.dockerfileDir) :=
  .bind ⟨.info, fun _ => trivial⟩ fun _ => .bind (within_runTests _ request) fun _ =>
    .bind (within_ask .describe) fun _ => .bind (within_ask .branch) fun _ =>
    .bind (.notify (.detail _)) fun _ => .bind (within_produceEach _ _ _ _) fun _ => .pure _

theorem within_notifyAll {notices : List Notice} (plain : ∀ n ∈ notices, n.isCommand = false) :
    (notifyAll notices).Within (Step.Marked mayStore) := by
  induction notices with
  | nil => exact .pure _
  | cons n notices ih =>
    obtain ⟨first, rest⟩ := List.forall_mem_cons.mp plain
    exact .bind (.notify first) fun _ => ih rest

theorem within_build (setup : Setup) (request : ImageRequest) :
    (build setup request).Within (Step.Marked mayStore) :=
  .bind (.ofExcept _) fun _ => .bind (.notify rfl) fun _ =>
    .bind ((within_produce _ _ _).mono fun _ => BuildStep.marked) fun _ =>
    .bind (.notify rfl) fun _ => within_notifyAll (List.forall_mem_map.mpr fun _ _ => rfl)

theorem within_pushEach (images : List Docker.ImageName) :
    (pushEach images).Within (Step.Marked mayStore) := by
  induction images with
  | nil => exact .pure _
  | cons image images ih =>
    exact .bind (.command (marked_dockerPush image)) fun _ => .bind (.notify rfl) fun _ => ih

theorem within_publishEach (setup : Setup) (request : ImageRequest)
    (binaries : List Binary) : (publishEach setup request binaries).Within (Step.Marked mayStore) := by
  induction binaries with
  | nil => exact .pure _
  | cons b binaries ih =>
    exact .bind (.notify rfl) fun _ =>
      .bind ((within_produce _ _ _).mono fun _ => BuildStep.marked) fun images =>
      .bind (within_pushEach images) fun _ => ih

theorem within_push (setup : Setup) (request : ImageRequest) :
    (push setup request).Within (Step.Marked mayStore) :=
  .bind (.ofExcept _) fun _ => .bind (.notify rfl) fun _ => within_publishEach _ _ _

theorem marked_status : Git.statusCommand.Marked := .query rfl rfl (by decide)

theorem within_requireClean : requireClean.Within (Step.Marked mayStore) := by
  refine .bind (.bind (within_ask marked_status) fun _ => .pure _) fun clean => ?_
  split
  · exact .pure _
  · exact .fail _

theorem within_checkNotes (setup : Setup) (skip : Bool) (v : Version) :
    (checkNotes setup skip v).Within (Step.Marked mayStore) := by
  unfold checkNotes
  split
  · exact .notify rfl
  · refine .bind .files fun _ => .bind (.ofExcept _) fun found => ?_
    split
    · exact .notify rfl
    · exact .notify rfl

theorem within_clear (setup : Setup) (request : ReleaseRequest) :
    (clear setup request).Within (Step.Marked mayStore) :=
  .bind within_requireClean fun _ => .bind (.ofExcept _) fun _ => .bind (.notify rfl) fun _ =>
    .bind (within_checkNotes _ _ _) fun _ => .pure _

theorem within_enterBranch (v : Version) :
    (enterBranch v).Within (Step.Marked mayStore) := by
  unfold enterBranch
  split
  · exact .perform (marked_checkout v.branch) _
  · exact .perform (marked_create v.branch) _

theorem within_changeFile (setup : Setup) (path : String) (rs : List Edit.Replacement) :
    (changeFile setup path rs).Within (Step.Marked (setup.dryRun = false)) := by
  unfold changeFile
  split
  · exact .notify rfl
  · next wet =>
    -- This is the only place where a plan stores files.
    refine .bind .files fun _ => .bind (.ofExcept _) fun _ =>
      .bind (.replaceFiles (Bool.eq_false_iff.mpr wet)) fun _ => ?_
    split
    · exact .notify rfl
    · exact .notify rfl

theorem within_cut (setup : Setup) (v : Version) :
    (cut setup v).Within (Step.Marked (setup.dryRun = false)) :=
  .bind (within_enterBranch v) fun _ => .bind (within_changeFile _ _ _) fun _ =>
    .bind (within_changeFile _ _ _) fun _ => .bind (.command (marked_format _)) fun _ =>
    .bind (.perform (marked_commit _) _) fun _ => .bind (.perform (marked_checkout _) _) fun _ => .notify rfl

theorem within_release (setup : Setup) (request : ReleaseRequest) :
    (release setup request).Within (Step.Marked (setup.dryRun = false)) :=
  .bind (within_clear _ _) fun v => within_cut setup v

end Plan

end ImageRelease
