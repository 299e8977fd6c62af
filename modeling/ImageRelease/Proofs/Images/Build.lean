import ImageRelease.Plan.Build
import ImageRelease.Proofs.Images.Selection
import ImageRelease.Proofs.Plan.FailStop
import ImageRelease.Proofs.Plan.Muted
import ImageRelease.Proofs.Plan.Queries

/-! Building images, alone and as a part of something else. Building the image of one binary exchanges the
same commands whether it is all that is asked for or a part of a larger plan, and it ends with the
command that builds that image.
-/
namespace ImageRelease

variable {σ : Type}

def Command.pushed? (c : Command) : Option String :=
  match c.argv with
  | ["docker", "push", reference] => some reference
  | _ => none

theorem Command.pushed?_eq_some_iff {c : Command} {reference : String} :
    c.pushed? = some reference ↔ c.argv = ["docker", "push", reference] := by
  unfold pushed?
  constructor
  · intro pushed
    split at pushed
    · next found issued =>
      rw [issued, Option.some.inj pushed]
    · contradiction
  · intro issued
    rw [issued]
    rfl

namespace Plan

variable {runner : Runner σ} {s t : Session σ} {setup : Setup} {request : ImageRequest}
  {mayRaise : Prop}

theorem failStop_ask {c : Command} (other : c ≠ Docker.info) : (Git.ask c).FailStop mayRaise :=
  .bind (.command other) fun _ => .pure _

theorem failStop_runTests (request : ImageRequest) : (runTests request).FailStop mayRaise := by
  unfold runTests
  split
  · exact .notify _
  · exact .bind (.command (by decide)) fun _ => .pure _

theorem build_ne_info (image : Docker.ImageName) (commit branch dir : String) :
    Docker.build image commit branch dir ≠ Docker.info := by
  intro same
  simpa [Docker.build, Docker.info, Command.of, Command.echoed, Command.patient, Command.captured] using
    congrArg Command.capture same

theorem failStop_produceEach (dir commit branch : String) (images : List Docker.ImageName) :
    (produceEach dir commit branch images).FailStop mayRaise := by
  induction images with
  | nil => exact .pure _
  | cons image images ih => exact .bind (.command (build_ne_info image commit branch dir)) fun _ => ih

theorem failStop_produce (setup : Setup) (request : ImageRequest) (binaries : List Binary) :
    (produce setup request binaries).FailStop mayRaise :=
  .bind .checkDaemon fun _ => .bind (failStop_runTests request) fun _ =>
    .bind (failStop_ask (by decide)) fun _ => .bind (failStop_ask (by decide)) fun _ =>
    .bind (.notify _) fun _ => .bind (failStop_produceEach _ _ _ _) fun _ => .pure _

theorem run_notifyAll (runner : Runner σ) (notices : List Notice) (s : Session σ) :
    (notifyAll notices).run runner s = (.ok (), { s with notices := s.notices ++ notices }) := by
  induction notices generalizing s with
  | nil => simp [notifyAll]
  | cons n notices ih =>
    rw [notifyAll, run_bind, run_notify]
    simp [ih, Session.told]

theorem build_of_unselected {failure : Failure} (setup : Setup) (unselected : request.selection = .error failure) :
    build setup request = fail failure := by
  rw [build, unselected]
  rfl

theorem produce_only_ok {b : Binary} {images : List Docker.ImageName}
    (produced : (produce setup request [b]).run runner s = (.ok images, t)) :
    images = [request.imageName b] ∧
      ∃ earlier last commit branch, t.exchanges = earlier ++ [last] ∧ last.reply.Succeeds ∧
        last.command = Docker.build (request.imageName b) commit branch setup.config.dockerfileDir := by
  obtain ⟨_, s₁, -, produced⟩ := run_bind_ok.mp produced
  obtain ⟨_, s₂, -, produced⟩ := run_bind_ok.mp produced
  obtain ⟨commit, s₃, -, produced⟩ := run_bind_ok.mp produced
  obtain ⟨branch, s₄, -, produced⟩ := run_bind_ok.mp produced
  obtain ⟨_, s₅, -, produced⟩ := run_bind_ok.mp produced
  obtain ⟨_, s₆, builtEach, produced⟩ := run_bind_ok.mp produced
  obtain ⟨output, s₇, built, ended⟩ := run_bind_ok.mp builtEach
  simp only [run_pure, Prod.mk.injEq, Except.ok.injEq, List.map_cons, List.map_nil] at produced
  obtain ⟨rfl, rfl⟩ := produced
  rw [run_command, Prod.mk.injEq] at built
  obtain ⟨replied, rfl⟩ := built
  obtain rfl := (Prod.mk.inj ended).2
  exact ⟨rfl, s₅.exchanges, _, commit, branch, rfl, ⟨output, replied⟩, rfl⟩

def buildOnly (runner : Runner σ) (setup : Setup) (request : ImageRequest) (b : Binary)
    (files : FileTree) (host : σ) : Except Failure Unit × Session σ :=
  (build setup (request.only b)).run runner (.fresh files host)

theorem buildOnly_cases (runner : Runner σ) (setup : Setup) (request : ImageRequest) (b : Binary)
    (files : FileTree) (host : σ) :
    let produced := (produce setup request [b]).run runner (.fresh files host)
    let built := buildOnly runner setup request b files host
    built.2.Alike produced.2 ∧
      ((∃ failure, produced.1 = .error failure ∧ built.1 = .error failure) ∨
        produced.1 = .ok [request.imageName b] ∧ built.1 = .ok ()) := by
  intro produced built
  obtain ⟨same, alike⟩ := run_alike rfl (produce setup request [b])
    (⟨rfl, rfl, rfl⟩ : ((Session.fresh files host).told (.section_ "Build")).Alike (.fresh files host))
  have built_eq : built = ((produce setup request [b] >>= fun images =>
      notify (.success ("Built " ++ toString images.length ++ " image(s)")) >>= fun _ =>
        notifyAll (images.map fun image => .item image.text)).run runner
          ((Session.fresh files host).told (.section_ "Build"))) := by
    simp only [built, buildOnly, build, run_bind, run_ofExcept, ImageRequest.selection_only, run_notify]
    rfl
  cases ended : (produce setup request [b]).run runner
      ((Session.fresh files host).told (.section_ "Build")) with
  | mk result t =>
    rw [ended] at same alike
    cases result with
    | error failure =>
      rw [run_bind_of_error ended] at built_eq
      rw [built_eq]
      exact ⟨alike, .inl ⟨failure, same.symm, rfl⟩⟩
    | ok images =>
      obtain ⟨rfl, -⟩ := produce_only_ok ended
      rw [run_bind_of_ok ended, run_bind, run_notify] at built_eq
      simp only [run_notifyAll] at built_eq
      rw [built_eq]
      exact ⟨⟨alike.exchanges, alike.files, alike.host⟩, .inr ⟨same.symm, rfl⟩⟩

theorem run_produce_only (runner : Runner σ) (setup : Setup) (request : ImageRequest) (b : Binary)
    (s : Session σ) :
    let built := buildOnly runner setup request b s.files s.host
    ∃ result t, (produce setup request [b]).run runner s = (result, t) ∧
      t.exchanges = s.exchanges ++ built.2.exchanges ∧ t.files = built.2.files ∧
      t.host = built.2.host ∧
      ((∃ failure, result = .error failure ∧ built.1 = .error failure) ∨
        result = .ok [request.imageName b] ∧ built.1 = .ok ()) := by
  obtain ⟨alike, ended⟩ := buildOnly_cases runner setup request b s.files s.host
  exact ⟨_, _, run_eq_join runner _ s, by rw [alike.exchanges]; rfl, alike.files.symm, alike.host.symm,
    ended⟩

theorem buildOnly_ok {b : Binary} {files : FileTree} {host : σ}
    (complete : (buildOnly runner setup request b files host).1 = .ok ()) :
    ∃ earlier last commit branch,
      (buildOnly runner setup request b files host).2.exchanges = earlier ++ [last] ∧
        last.reply.Succeeds ∧
        last.command = Docker.build (request.imageName b) commit branch setup.config.dockerfileDir := by
  obtain ⟨alike, ⟨failure, -, failed⟩ | ⟨produced, -⟩⟩ :=
    buildOnly_cases runner setup request b files host
  · rw [complete] at failed
    contradiction
  · rw [alike.exchanges]
    exact (produce_only_ok (Prod.ext produced rfl)).2

theorem BuildStep.pushed? {dir : String} {c : Command} (building : BuildStep dir (.issue c)) :
    c.pushed? = none := by
  cases building with
  | info => rfl
  | tests => rfl
  | describe => rfl
  | branch => rfl
  | image image commit branch => rfl

theorem buildOnly_pushed? (runner : Runner σ) (setup : Setup) (request : ImageRequest) (b : Binary)
    (files : FileTree) (host : σ) :
    ∀ e ∈ (buildOnly runner setup request b files host).2.exchanges, e.command.pushed? = none := by
  intro e issued
  obtain ⟨alike, -⟩ := buildOnly_cases runner setup request b files host
  rw [alike.exchanges] at issued
  rcases (within_produce setup request [b]).commands_run runner (.fresh files host) e.command
    (List.mem_map_of_mem issued) with earlier | building
  · simp [Session.commands] at earlier
  · exact building.pushed?

def Step.Discreet : Step → Prop
  | tell n => n.isSuccess = false
  | issue _ | store _ => True

theorem BuildStep.discreet {dir : String} {step : Step} (building : BuildStep dir step) :
    step.Discreet := by
  cases building with
  | warning message => rfl
  | detail message => rfl
  | info | tests | describe | branch | image => trivial

theorem successes_produce (runner : Runner σ) (discreet : runner.Discreet) (setup : Setup)
    (request : ImageRequest) (binaries : List Binary) (s : Session σ) :
    ((produce setup request binaries).run runner s).2.notices.filter Notice.isSuccess =
      s.notices.filter Notice.isSuccess := by
  have within := (within_produce setup request binaries).mono fun _ => BuildStep.discreet
  rw [run_eq_join, Session.join, List.filter_append, List.append_right_eq_self,
    List.filter_eq_nil_iff]
  intro n told
  rcases within.notices_run discreet (.fresh s.files s.host) n told with earlier | unsuccessful
  · simp [Session.fresh] at earlier
  · exact Bool.not_eq_true _ ▸ unsuccessful

end Plan

end ImageRelease
