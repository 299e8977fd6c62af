import ImageRelease.Command.Scripted
import ImageRelease.Program
import ImageRelease.Proofs.Plan.Run

/-! What a reader is told about a missing tool or a command that took too long. Each of these failures has a hint of
its own. The plan that meets it ends there, and passes it on with its hint, except that a checkout and a commit
put it into words of their own, which have none.
-/
namespace ImageRelease

def Failure.isHinted : Failure → Bool
  | missingTool _ | timedOut _ _ => true
  | _ => false

def Command.isGitChange (c : Command) : Bool :=
  c.program == "git" && (c.args.head? == some "checkout" || c.args.head? == some "commit")

/-- The failure that a plan ends with for the failure of a command. -/
def Command.reported (c : Command) (cause : Failure) : Failure :=
  if !c.isGitChange then cause
  else if c.args.head? = some "checkout" then .branchFailed cause.detail
  else .commitFailed cause.detail

/-- A command was answered by a failure that has a hint, and in time if it asked for the docker daemon. -/
structure Exchange.Hinted (e : Exchange) (cause : Failure) : Prop where
  failed : e.reply.outcome = .error cause
  hinted : cause.isHinted = true
  timely : e.command = Docker.info → e.reply.seconds ≤ Docker.daemonPatience

theorem Failure.suggestions_ne_of_isHinted {cause : Failure} (hinted : cause.isHinted = true) :
    cause.suggestions ≠ ["Check the error message above for specific details"] := by
  cases cause with
  | missingTool tool =>
    intro same
    have first := congrArg (fun hints => hints.head?.bind fun hint => hint.toList.head?) same
    simp [suggestions] at first
  | timedOut command seconds => simp [suggestions]
  | _ => contradiction

theorem Command.suggestions_reported_iff {c : Command} {cause : Failure} (hinted : cause.isHinted = true) :
    (c.reported cause).suggestions = cause.suggestions ↔ c.isGitChange = false := by
  have lost := Failure.suggestions_ne_of_isHinted hinted
  cases change : c.isGitChange with
  | false => simp [reported, change]
  | true =>
    simp only [reported, change, Bool.not_true, Bool.false_eq_true, if_false, Bool.true_eq_false, iff_false]
    split
    · exact lost.symm
    · exact lost.symm

namespace Plan

variable {α β σ : Type} {verdict : Exchange → Failure → Prop}

/-- A plan ends at once with the failure that the verdict on a command is. -/
def StopsWith (verdict : Exchange → Failure → Prop) : Plan α → Prop
  | done _ => True
  | issue c next => ∀ reply,
      (∀ failure, verdict ⟨c, reply⟩ failure → next reply = fail failure) ∧ (next reply).StopsWith verdict
  | tell _ next => next.StopsWith verdict
  | look next => ∀ files, (next files).StopsWith verdict
  | store _ next => next.StopsWith verdict

namespace StopsWith

theorem pure (a : α) : StopsWith verdict (pure a : Plan α) := trivial

theorem notify (n : Notice) : StopsWith verdict (notify n) := trivial

theorem ofExcept (result : Except Failure α) : StopsWith verdict (ofExcept result) := trivial

theorem files : StopsWith verdict files := fun _ => trivial

theorem replaceFiles (tree : FileTree) : StopsWith verdict (replaceFiles tree) := trivial

theorem answered {c : Command} {next : Reply → Except Failure α}
    (ends : ∀ reply failure, verdict ⟨c, reply⟩ failure → next reply = .error failure) :
    StopsWith verdict (issue c fun reply => done (next reply)) :=
  fun reply => ⟨fun failure decided => congrArg done (ends reply failure decided), trivial⟩

theorem bind {p : Plan α} {f : α → Plan β} (first : p.StopsWith verdict)
    (second : ∀ a, (f a).StopsWith verdict) : (p >>= f).StopsWith verdict := by
  change (p.andThen f).StopsWith verdict
  induction p with
  | done result =>
    cases result with
    | error failure => trivial
    | ok a => exact second a
  | issue c next ih =>
    intro reply
    obtain ⟨stops, later⟩ := first reply
    exact ⟨fun failure decided => congrArg (andThen · f) (stops failure decided), ih reply later⟩
  | tell n next ih => exact ih first
  | look next ih => exact fun files => ih files (first files)
  | store files next ih => exact ih first

theorem run {p : Plan α} (stops : p.StopsWith verdict) (runner : Runner σ) (s : Session σ) :
    ∃ later, (p.run runner s).2.exchanges = s.exchanges ++ later ∧
      ∀ e ∈ later, ∀ failure, verdict e failure → (p.run runner s).1 = .error failure := by
  induction p generalizing s with
  | done result => exact ⟨[], (List.append_nil _).symm, by simp⟩
  | issue c next ih =>
    let a := runner c s.files s.host
    obtain ⟨ends, goesOn⟩ := stops a.reply
    obtain ⟨later, exchanged, decided⟩ := ih a.reply goesOn (s.after c a)
    refine ⟨⟨c, a.reply⟩ :: later, by simpa [Plan.run, a] using exchanged, fun e member failure verdictOn => ?_⟩
    rcases List.mem_cons.mp member with rfl | member
    · simp only [Plan.run, ends failure verdictOn, a]
      rfl
    · exact decided e member failure verdictOn
  | tell n next ih => exact ih stops (s.told n)
  | look next ih => exact ih s.files (stops s.files) s
  | store files next ih => exact ih stops { s with files }

end StopsWith

def HintVerdict (e : Exchange) (failure : Failure) : Prop :=
  ∃ cause, e.Hinted cause ∧ failure = e.command.reported cause

variable {c : Command}

theorem stopsWith_command (other : c.isGitChange = false) : (command c).StopsWith HintVerdict := by
  refine .answered fun reply failure verdict => ?_
  obtain ⟨cause, hinted, rfl⟩ := verdict
  simpa [Command.reported, other] using hinted.failed

theorem stopsWith_checkDaemon : Docker.checkDaemon.StopsWith HintVerdict := by
  refine .answered fun reply failure verdict => ?_
  obtain ⟨cause, ⟨failed, hinted, timely⟩, reported⟩ := verdict
  have inTime : ¬Docker.daemonPatience < reply.seconds := Nat.not_lt.mpr (timely rfl)
  -- The check has words of its own only for a command that was started and failed.
  have kept : Docker.daemonFailure cause = cause := by
    cases cause <;> first | rfl | contradiction
  have plain : failure = cause := reported
  rw [Docker.daemonVerdict, if_neg inTime, failed, plain]
  exact congrArg Except.error kept

theorem stopsWith_perform {words : String → Failure}
    (reported : ∀ cause, c.reported cause = words cause.detail) :
    (perform c (Git.reworded words)).StopsWith HintVerdict := by
  refine .answered fun reply failure verdict => ?_
  obtain ⟨cause, ⟨failed, hinted, -⟩, rfl⟩ := verdict
  have reworded : Git.reworded words cause = words cause.detail := by
    cases cause <;> first | rfl | contradiction
  rw [failed, reported]
  exact congrArg Except.error reworded

theorem stopsWith_checkout (branch : String) : (Git.checkout branch).StopsWith HintVerdict :=
  stopsWith_perform fun _ => rfl

theorem stopsWith_branchOff (branch : String) : (Git.branchOff branch).StopsWith HintVerdict :=
  stopsWith_perform fun _ => rfl

theorem stopsWith_commit (message : String) : (Git.commit message).StopsWith HintVerdict :=
  stopsWith_perform fun _ => rfl

theorem stopsWith_ask (other : c.isGitChange = false) : (Git.ask c).StopsWith HintVerdict :=
  .bind (stopsWith_command other) fun _ => .pure _

theorem stopsWith_runTests (request : ImageRequest) : (runTests request).StopsWith HintVerdict := by
  unfold runTests
  split
  · exact .notify _
  · exact .bind (stopsWith_command (by decide)) fun _ => .pure _

theorem stopsWith_produceEach (dir commit branch : String) (images : List Docker.ImageName) :
    (produceEach dir commit branch images).StopsWith HintVerdict := by
  induction images with
  | nil => exact .pure _
  | cons image images ih => exact .bind (stopsWith_command rfl) fun _ => ih

theorem stopsWith_produce (setup : Setup) (request : ImageRequest) (binaries : List Binary) :
    (produce setup request binaries).StopsWith HintVerdict :=
  .bind stopsWith_checkDaemon fun _ => .bind (stopsWith_runTests request) fun _ =>
    .bind (stopsWith_ask (by decide)) fun _ => .bind (stopsWith_ask (by decide)) fun _ =>
    .bind (.notify _) fun _ => .bind (stopsWith_produceEach _ _ _ _) fun _ => .pure _

theorem stopsWith_notifyAll (notices : List Notice) : (notifyAll notices).StopsWith HintVerdict := by
  induction notices with
  | nil => exact .pure _
  | cons n notices ih => exact .bind (.notify n) fun _ => ih

theorem stopsWith_build (setup : Setup) (request : ImageRequest) : (build setup request).StopsWith HintVerdict :=
  .bind (.ofExcept _) fun _ => .bind (.notify _) fun _ => .bind (stopsWith_produce _ _ _) fun _ =>
    .bind (.notify _) fun _ => stopsWith_notifyAll _

theorem stopsWith_pushEach (images : List Docker.ImageName) : (pushEach images).StopsWith HintVerdict := by
  induction images with
  | nil => exact .pure _
  | cons image images ih => exact .bind (stopsWith_command rfl) fun _ => .bind (.notify _) fun _ => ih

theorem stopsWith_publishEach (setup : Setup) (request : ImageRequest) (binaries : List Binary) :
    (publishEach setup request binaries).StopsWith HintVerdict := by
  induction binaries with
  | nil => exact .pure _
  | cons b binaries ih =>
    exact .bind (.notify _) fun _ => .bind (stopsWith_produce _ _ _) fun _ =>
      .bind (stopsWith_pushEach _) fun _ => ih

theorem stopsWith_push (setup : Setup) (request : ImageRequest) : (push setup request).StopsWith HintVerdict :=
  .bind (.ofExcept _) fun _ => .bind (.notify _) fun _ => stopsWith_publishEach _ _ _

theorem stopsWith_clear (setup : Setup) (request : ReleaseRequest) :
    (clear setup request).StopsWith HintVerdict := by
  refine .bind ?_ fun _ => .bind (.ofExcept _) fun v => .bind (.notify _) fun _ => .bind ?_ fun _ => .pure _
  · refine .bind (.bind (stopsWith_ask (by decide)) fun _ => .pure _) fun clean => ?_
    split
    · exact .pure _
    · exact .ofExcept (.error Failure.dirtyCheckout)
  · unfold checkNotes
    split
    · exact .notify _
    · refine .bind .files fun _ => .bind (.ofExcept _) fun found => ?_
      split
      · exact .notify _
      · exact .notify _

theorem stopsWith_changeFile (setup : Setup) (path : String) (rs : List Edit.Replacement) :
    (changeFile setup path rs).StopsWith HintVerdict := by
  unfold changeFile
  split
  · exact .notify _
  · refine .bind .files fun _ => .bind (.ofExcept _) fun _ => .bind (.replaceFiles _) fun _ => ?_
    split
    · exact .notify _
    · exact .notify _

theorem stopsWith_cut (setup : Setup) (v : Version) : (cut setup v).StopsWith HintVerdict := by
  refine .bind ?_ fun _ => .bind (stopsWith_changeFile _ _ _) fun _ => .bind (stopsWith_changeFile _ _ _) fun _ =>
    .bind (stopsWith_command rfl) fun _ => .bind (stopsWith_commit _) fun _ =>
    .bind (stopsWith_checkout _) fun _ => .notify _
  unfold enterBranch
  split
  · exact stopsWith_checkout _
  · exact stopsWith_branchOff _

theorem stopsWith_request (setup : Setup) (request : Request) : (request.plan setup).StopsWith HintVerdict := by
  cases request with
  | build images => exact stopsWith_build setup images
  | push images => exact stopsWith_push setup images
  | release r => exact .bind (stopsWith_clear setup r) fun v => stopsWith_cut setup v

/-- Whatever is asked for and wherever a tool is missing or a command takes too long, the request fails with this
failure or with what a checkout or a commit makes of it. Its hint is passed on if and only if the command was
neither of these. -/
theorem hints_reported (runner : Runner σ) (setup : Setup) (request : Request) (files : FileTree) (host : σ) :
    let ended := (request.plan setup).run runner (.fresh files host)
    ∀ e ∈ ended.2.exchanges, ∀ cause, e.Hinted cause →
      ∃ failure, ended.1 = .error failure ∧ failure = e.command.reported cause ∧
        (failure.suggestions = cause.suggestions ↔ e.command.isGitChange = false) := by
  intro ended e issued cause hinted
  obtain ⟨later, exchanged, decided⟩ := (stopsWith_request setup request).run runner (.fresh files host)
  rw [Session.exchanges_fresh, List.nil_append] at exchanged
  have member : e ∈ later := exchanged ▸ issued
  exact ⟨_, decided e member _ ⟨cause, hinted, rfl⟩, rfl, Command.suggestions_reported_iff hinted.hinted⟩

def plainSetup : Setup := { workspace := ".", config := Config.default, dryRun := false }

def goless : List Scripted.Rule := [⟨"go test ./...", none, false, .toolMissing⟩]

def buildGoless : Except Failure Unit × Session (List Scripted.Rule) :=
  ((Request.build ⟨[], "dev", "metallb", false⟩).plan plainSetup).run Scripted.runner
    (.fresh { workingDirectory := [], entries := [] } goless)

theorem hints_reported_goless :
    ∃ e ∈ buildGoless.2.exchanges, e.Hinted (.missingTool "go") ∧
      ∃ failure, buildGoless.1 = .error failure ∧
        failure.suggestions = ["Install 'go' and make sure it is on PATH"] := by
  let e := buildGoless.2.exchanges.get ⟨1, by decide +kernel⟩
  have member : e ∈ buildGoless.2.exchanges := List.get_mem _ _
  have hinted : e.Hinted (.missingTool "go") :=
    { failed := by decide +kernel
      hinted := rfl
      timely := by decide +kernel }
  obtain ⟨failure, ended, -, kept⟩ := hints_reported Scripted.runner plainSetup
    (.build ⟨[], "dev", "metallb", false⟩) { workingDirectory := [], entries := [] } goless e member _ hinted
  refine ⟨e, member, hinted, failure, ended, kept.mpr (by decide +kernel)⟩

def stalled : List Scripted.Rule := [⟨"git checkout v0.9", none, false, .timesOut 600⟩]

def releaseStalled : Except Failure Unit × Session (List Scripted.Rule) :=
  ((Request.release ⟨"0.9.3", true⟩).plan plainSetup).run Scripted.runner
    (.fresh { workingDirectory := [], entries := [] } stalled)

/-- A release that cannot enter its branch in time ends without the hint to raise the limit. -/
theorem hint_lost_stalled :
    (releaseStalled.2.exchanges.map fun e => (e.command.argv, e.reply.outcome)).getLast? =
        some (["git", "checkout", "v0.9"], .error (.timedOut "git checkout v0.9" 600)) ∧
      releaseStalled.1 = .error (.branchFailed "Command timed out after 600s: git checkout v0.9") ∧
      (Failure.timedOut "git checkout v0.9" 600).suggestions =
        ["Raise the limit with LB_TASKS_TIMEOUT_BUILD or LB_TASKS_TIMEOUT_COMMAND"] ∧
      (Failure.branchFailed "Command timed out after 600s: git checkout v0.9").suggestions =
        ["Check the error message above for specific details"] := by
  decide +kernel

end Plan

end ImageRelease
