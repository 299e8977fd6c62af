import ImageRelease.Command.Scripted
import ImageRelease.Plan.Push
import ImageRelease.Proofs.Images.Build

/-! Pushing images. A push goes through the selected binaries in order: it builds the image of each as if
that were all to be built, pushes it, and stops at the first command that does not succeed.
-/
namespace ImageRelease.Plan

variable {σ : Type} {runner : Runner σ} {setup : Setup} {request : ImageRequest}
  {bs done : List Binary} {files : FileTree} {host : σ} {trace : List Exchange}
  {result : Except Failure Unit} {mayRaise : Prop}

def pushAnswer (runner : Runner σ) (setup : Setup) (request : ImageRequest) (b : Binary)
    (files : FileTree) (host : σ) : Answer σ :=
  let built := (buildOnly runner setup request b files host).2
  runner (Docker.push (request.imageName b)) built.files built.host

def pushExchange (runner : Runner σ) (setup : Setup) (request : ImageRequest) (b : Binary)
    (files : FileTree) (host : σ) : Exchange :=
  ⟨Docker.push (request.imageName b), (pushAnswer runner setup request b files host).reply⟩

/-- Building the image of each binary alone and pushing it, one after the other, whatever the answers. -/
def publication (runner : Runner σ) (setup : Setup) (request : ImageRequest) :
    List Binary → FileTree → σ → List Exchange
  | [], _, _ => []
  | b :: bs, files, host =>
    let answer := pushAnswer runner setup request b files host
    (buildOnly runner setup request b files host).2.exchanges ++
      pushExchange runner setup request b files host ::
        publication runner setup request bs answer.files answer.host

/-- How far the publishing of binaries gets: what is exchanged, which images are published, and the
result. -/
inductive PublishEnds (runner : Runner σ) (setup : Setup) (request : ImageRequest) :
    List Binary → FileTree → σ → List Exchange → List Binary → Except Failure Unit → Prop where
  | finished (files : FileTree) (host : σ) :
      PublishEnds runner setup request [] files host [] [] (.ok ())
  | notBuilt {b : Binary} {bs : List Binary} {files : FileTree} {host : σ} {failure : Failure}
      (failed : (buildOnly runner setup request b files host).1 = .error failure) :
      PublishEnds runner setup request (b :: bs) files host
        (buildOnly runner setup request b files host).2.exchanges [] (.error failure)
  | notPushed {b : Binary} {bs : List Binary} {files : FileTree} {host : σ} {failure : Failure}
      (complete : (buildOnly runner setup request b files host).1 = .ok ())
      (failed : (pushExchange runner setup request b files host).reply.outcome = .error failure) :
      PublishEnds runner setup request (b :: bs) files host
        ((buildOnly runner setup request b files host).2.exchanges ++
          [pushExchange runner setup request b files host])
        [] (.error failure)
  | pushed {b : Binary} {bs done : List Binary} {files : FileTree} {host : σ}
      {trace : List Exchange} {result : Except Failure Unit}
      (complete : (buildOnly runner setup request b files host).1 = .ok ())
      (accepted : (pushExchange runner setup request b files host).reply.Succeeds)
      (rest : PublishEnds runner setup request bs (pushAnswer runner setup request b files host).files
        (pushAnswer runner setup request b files host).host trace done result) :
      PublishEnds runner setup request (b :: bs) files host
        ((buildOnly runner setup request b files host).2.exchanges ++
          pushExchange runner setup request b files host :: trace)
        (b :: done) result

theorem push_of_unselected {failure : Failure} (setup : Setup) (unselected : request.selection = .error failure) :
    push setup request = fail failure := by
  rw [push, unselected]
  rfl

def pushedNotice (request : ImageRequest) (b : Binary) : Notice :=
  .success ("Pushed " ++ (request.imageName b).text)

theorem run_publishEach (runner : Runner σ) (setup : Setup) (request : ImageRequest) (bs : List Binary)
    (s : Session σ) :
    ∃ trace done result t, (publishEach setup request bs).run runner s = (result, t) ∧
      t.exchanges = s.exchanges ++ trace ∧
      PublishEnds runner setup request bs s.files s.host trace done result ∧
      (runner.Discreet →
        t.notices.filter Notice.isSuccess =
          s.notices.filter Notice.isSuccess ++ done.map (pushedNotice request)) := by
  induction bs generalizing s with
  | nil => exact ⟨[], [], .ok (), s, rfl, by simp, .finished s.files s.host, by simp⟩
  | cons b bs ih =>
    obtain ⟨result, t, ran, exchanged, kept, reached, ended⟩ :=
      run_produce_only runner setup request b (s.told (.detail ("Building " ++ b.name)))
    have successes : runner.Discreet →
        t.notices.filter Notice.isSuccess = s.notices.filter Notice.isSuccess := by
      intro discreet
      have produced := successes_produce runner discreet setup request [b]
        (s.told (.detail ("Building " ++ b.name)))
      rw [ran] at produced
      rw [produced]
      simp [Notice.isSuccess]
    rw [publishEach, run_bind, run_notify]
    rcases ended with ⟨failure, rfl, failed⟩ | ⟨rfl, complete⟩
    · exact ⟨_, [], _, t, run_bind_of_error ran, exchanged, .notBuilt failed,
        fun discreet => by simp [successes discreet]⟩
    -- The files and the runner are left as by a build of this image alone.
    have answered : runner (Docker.push (request.imageName b)) t.files t.host =
        pushAnswer runner setup request b s.files s.host := by
      rw [kept, reached]
      rfl
    have unsuccessful : runner.Discreet →
        (pushAnswer runner setup request b s.files s.host).notices.filter Notice.isSuccess = [] := by
      intro discreet
      rw [List.filter_eq_nil_iff]
      intro n member
      simp [discreet _ _ _ n member]
    simp only [run_bind_of_ok ran, pushEach, run_bind, run_command, answered]
    cases outcome : (pushAnswer runner setup request b s.files s.host).reply.outcome with
    | error failure =>
      refine ⟨_, [], .error failure, _, rfl, ?_, .notPushed complete outcome, fun discreet => ?_⟩
      · rw [Session.exchanges_after, exchanged, List.append_assoc]
        rfl
      · simp [unsuccessful discreet, successes discreet]
    | ok output =>
      obtain ⟨trace, done, result, u, ranRest, exchangedRest, rest, told⟩ :=
        ih ((t.after (Docker.push (request.imageName b)) (pushAnswer runner setup request b s.files s.host)).told
          (pushedNotice request b))
      refine ⟨_, b :: done, result, u, ranRest, ?_, .pushed complete ⟨output, outcome⟩ rest,
        fun discreet => ?_⟩
      · rw [exchangedRest, Session.exchanges_told, Session.exchanges_after, exchanged]
        simp [pushExchange]
      · have counted : [pushedNotice request b].filter Notice.isSuccess = [pushedNotice request b] := rfl
        rw [told discreet]
        simp [unsuccessful discreet, successes discreet, counted]

theorem pushExchange_pushed? (runner : Runner σ) (setup : Setup) (request : ImageRequest) (b : Binary)
    (files : FileTree) (host : σ) :
    (pushExchange runner setup request b files host).command.pushed? = some (request.imageName b).text :=
  rfl

theorem push_ne_info (image : Docker.ImageName) : Docker.push image ≠ Docker.info := by
  intro same
  have captured := congrArg Command.capture same
  contradiction

theorem pushExchange_succeeded_iff {b : Binary} :
    (pushExchange runner setup request b files host).Succeeded ↔
      (pushExchange runner setup request b files host).reply.Succeeds := by
  simp [Exchange.Succeeded, pushExchange, push_ne_info]

theorem mem_or_eq_or_later {α : Type} {xs ys before after : List α} {x y : α}
    (same : xs ++ x :: ys = before ++ y :: after) :
    y ∈ xs ∨ (before = xs ∧ y = x) ∨ ∃ more, before = xs ++ x :: more ∧ ys = more ++ y :: after := by
  rcases List.append_eq_append_iff.mp same with ⟨more, before_eq, rest⟩ | ⟨more, xs_eq, rest⟩
  · cases more with
    | nil => exact .inr (.inl ⟨by simpa using before_eq, (List.cons.inj rest).1.symm⟩)
    | cons first more =>
      obtain ⟨rfl, ys_eq⟩ := List.cons.inj rest
      exact .inr (.inr ⟨more, before_eq, ys_eq⟩)
  · cases more with
    | nil => exact .inr (.inl ⟨by simpa using xs_eq.symm, (List.cons.inj rest).1⟩)
    | cons first more =>
      obtain ⟨rfl, -⟩ := List.cons.inj rest
      exact .inl (by simp [xs_eq])

/-- Each push follows at once on a successful build of the same reference. -/
def PushesBuilt (trace : List Exchange) : Prop :=
  ∀ before e after reference, trace = before ++ e :: after → e.command.pushed? = some reference →
    ∃ earlier last rest, before = earlier ++ [last] ∧ last.Succeeded ∧
      last.command.argv = "docker" :: "build" :: "-t" :: reference :: rest

theorem PushesBuilt.of_unpushed (unpushed : ∀ e ∈ trace, e.command.pushed? = none) :
    PushesBuilt trace := by
  rintro before e after reference rfl pushed
  have none := unpushed e (by simp)
  rw [none] at pushed
  contradiction

theorem PushesBuilt.push_built {b : Binary} {later : List Exchange} (pushes : PushesBuilt later)
    (complete : (buildOnly runner setup request b files host).1 = .ok ()) :
    PushesBuilt ((buildOnly runner setup request b files host).2.exchanges ++
      pushExchange runner setup request b files host :: later) := by
  intro before e after reference split pushed
  obtain ⟨earlier, last, commit, branch, built, succeeded, issued⟩ := buildOnly_ok complete
  have image : e = pushExchange runner setup request b files host →
      before = (buildOnly runner setup request b files host).2.exchanges →
      ∃ earlier last rest, before = earlier ++ [last] ∧ last.Succeeded ∧
        last.command.argv = "docker" :: "build" :: "-t" :: reference :: rest := by
    rintro rfl rfl
    rw [pushExchange_pushed?, Option.some.injEq] at pushed
    refine ⟨earlier, last, _, built, ⟨succeeded, fun info => ?_⟩, by rw [issued, ← pushed]; rfl⟩
    exact absurd (issued.symm.trans info) (build_ne_info _ _ _ _)
  rcases mem_or_eq_or_later split with built | ⟨before_eq, same⟩ | ⟨more, rfl, later_eq⟩
  · have unpushed := buildOnly_pushed? runner setup request b files host e built
    rw [unpushed] at pushed
    contradiction
  · exact image same before_eq
  · obtain ⟨earlier, last, rest, rfl, succeeded, same⟩ := pushes more e after reference later_eq pushed
    refine ⟨(buildOnly runner setup request b files host).2.exchanges ++
      pushExchange runner setup request b files host :: earlier, last, rest, ?_, succeeded, same⟩
    rw [List.append_assoc, List.cons_append]

namespace PublishEnds

theorem trace_isPrefix (ends : PublishEnds runner setup request bs files host trace done result) :
    trace <+: publication runner setup request bs files host := by
  induction ends with
  | finished files host => exact List.prefix_rfl
  | notBuilt failed => exact List.prefix_append _ _
  | notPushed complete failed =>
    rw [publication, List.prefix_append_right_inj]
    exact ⟨_, rfl⟩
  | pushed complete accepted rest ih =>
    rw [publication, List.prefix_append_right_inj]
    exact List.prefix_cons_inj _ |>.mpr ih

theorem ok (ends : PublishEnds runner setup request bs files host trace done result)
    (well : result = .ok ()) :
    trace = publication runner setup request bs files host ∧ done = bs := by
  induction ends with
  | finished files host => exact ⟨rfl, rfl⟩
  | notBuilt failed => contradiction
  | notPushed complete failed => contradiction
  | pushed complete accepted rest ih =>
    obtain ⟨whole, all⟩ := ih well
    exact ⟨by rw [publication, whole], by rw [all]⟩

theorem done_isPrefix (ends : PublishEnds runner setup request bs files host trace done result) :
    done <+: bs := by
  induction ends with
  | finished files host => exact List.prefix_rfl
  | notBuilt failed => exact List.nil_prefix
  | notPushed complete failed => exact List.nil_prefix
  | pushed complete accepted rest ih => exact (List.prefix_cons_inj _).mpr ih

theorem pushesBuilt (ends : PublishEnds runner setup request bs files host trace done result) :
    PushesBuilt trace := by
  induction ends with
  | finished files host => exact .of_unpushed (by simp)
  | notBuilt failed => exact .of_unpushed (buildOnly_pushed? _ _ _ _ _ _)
  | notPushed complete failed => exact .push_built (.of_unpushed (by simp)) complete
  | pushed complete accepted rest ih => exact .push_built ih complete

theorem references_isPrefix (ends : PublishEnds runner setup request bs files host trace done result) :
    trace.filterMap (·.command.pushed?) <+: bs.map fun b => (request.imageName b).text := by
  induction ends with
  | finished files host => exact List.nil_prefix
  | @notBuilt b bs files host failure failed =>
    rw [List.filterMap_eq_nil_iff.mpr (buildOnly_pushed? runner setup request b files host)]
    exact List.nil_prefix
  | @notPushed b bs files host failure complete failed =>
    rw [List.filterMap_append,
      List.filterMap_eq_nil_iff.mpr (buildOnly_pushed? runner setup request b files host)]
    exact (List.prefix_cons_inj _).mpr List.nil_prefix
  | @pushed b bs done files host trace result complete accepted rest ih =>
    rw [List.filterMap_append,
      List.filterMap_eq_nil_iff.mpr (buildOnly_pushed? runner setup request b files host)]
    exact (List.prefix_cons_inj _).mpr ih

/-- What is pushed with success are the images of the binaries that are done. -/
theorem published (ends : PublishEnds runner setup request bs files host trace done result) :
    (trace.filter (·.Succeeded)).filterMap (·.command.pushed?) =
      done.map fun b => (request.imageName b).text := by
  have building (b : Binary) (files : FileTree) (host : σ) :
      ((buildOnly runner setup request b files host).2.exchanges.filter (·.Succeeded)).filterMap
        (·.command.pushed?) = [] :=
    List.filterMap_eq_nil_iff.mpr fun e member =>
      buildOnly_pushed? runner setup request b files host e (List.mem_filter.mp member).1
  induction ends with
  | finished files host => rfl
  | @notBuilt b bs files host failure failed => exact building b files host
  | @notPushed b bs files host failure complete failed =>
    have refused : ¬(pushExchange runner setup request b files host).Succeeded := by
      rw [pushExchange_succeeded_iff, Reply.Succeeds, failed]
      simp
    rw [List.filter_append, List.filterMap_append, building]
    simp [refused]
  | @pushed b bs done files host trace result complete accepted rest ih =>
    have succeeded := pushExchange_succeeded_iff.mpr accepted
    rw [List.filter_append, List.filterMap_append, building,
      List.filter_cons_of_pos (by simpa using succeeded), List.nil_append, List.filterMap_cons, ih]
    rfl

end PublishEnds

theorem failStop_pushEach (images : List Docker.ImageName) : (pushEach images).FailStop mayRaise := by
  induction images with
  | nil => exact .pure _
  | cons image images ih =>
    exact .bind (.command (push_ne_info image)) fun _ => .bind (.notify _) fun _ => ih

theorem failStop_publishEach (setup : Setup) (request : ImageRequest) (bs : List Binary) :
    (publishEach setup request bs).FailStop mayRaise := by
  induction bs with
  | nil => exact .pure _
  | cons b bs ih =>
    exact .bind (.notify _) fun _ => .bind (failStop_produce setup request [b]) fun images =>
      .bind (failStop_pushEach images) fun _ => ih

theorem failStop_push (setup : Setup) (selected : request.selection = .ok bs) :
    (push setup request).FailStop mayRaise :=
  .bind (.ofExcept selected) fun _ => .bind (.notify _) fun _ => failStop_publishEach setup request _

theorem push_ends (runner : Runner σ) (setup : Setup) (selected : request.selection = .ok bs)
    (files : FileTree) (host : σ) :
    let ended := (push setup request).run runner (.fresh files host)
    ∃ done, PublishEnds runner setup request bs files host ended.2.exchanges done ended.1 ∧
      (runner.Discreet →
        ended.2.notices.filter Notice.isSuccess = done.map (pushedNotice request)) := by
  intro ended
  obtain ⟨trace, done, result, t, ran, exchanged, ends, told⟩ :=
    run_publishEach runner setup request bs ((Session.fresh files host).told (.section_ "Push"))
  have ended_eq : ended = (result, t) := by
    simp only [ended, push, run_bind, run_ofExcept, selected, run_notify]
    exact ran
  have exchanged : t.exchanges = trace := by simpa using exchanged
  rw [ended_eq, exchanged]
  exact ⟨done, ends, told⟩

/-- The discipline of a push, whatever the runner answers. What is exchanged is the beginning of the
publication: of building the selected binaries alone and pushing each, in the order of their names.
All commands succeed but perhaps the last one, and it ends well exactly when the whole publication was
exchanged and succeeded. So each push follows at once on a successful build of the same reference, no
reference is pushed twice, and what is published is an initial part of the selection. The messages of
success that the push tells by itself, shown unless it is quiet, are about the same images. -/
theorem push_discipline (runner : Runner σ) (files : FileTree) (host : σ) (setup : Setup)
    (request : ImageRequest) (bs : List Binary) (selected : request.selection = .ok bs) :
    let ended := (push setup request).run runner (Session.fresh files host)
    let muted := (push setup request).run runner.muted (Session.fresh files host)
    let trace := ended.2.exchanges
    bs.Pairwise (fun b c => b.name < c.name) ∧
      trace <+: publication runner setup request bs files host ∧
      (∀ e ∈ trace.dropLast, e.Succeeded) ∧
      (ended.1 = .ok () ↔
        trace = publication runner setup request bs files host ∧ ∀ e ∈ trace, e.Succeeded) ∧
      (∀ before e after reference, trace = before ++ e :: after →
        e.command.argv = ["docker", "push", reference] →
          ∃ earlier last rest, before = earlier ++ [last] ∧ last.Succeeded ∧
            last.command.argv = "docker" :: "build" :: "-t" :: reference :: rest) ∧
      (trace.filterMap (·.command.pushed?)).Nodup ∧
      muted.1 = ended.1 ∧ muted.2.exchanges = trace ∧
      ∃ done, done <+: bs ∧ (ended.1 = .ok () → done = bs) ∧
        (trace.filter (·.Succeeded)).filterMap (·.command.pushed?) =
          done.map (fun b => (request.imageName b).text) ∧
        ∀ v : Verbosity, v.quiet = false →
          (muted.2.notices.filter v.shows).filter Notice.isSuccess =
              done.map (fun b => .success ("Pushed " ++ (request.imageName b).text)) ∧
            (runner.Discreet → (ended.2.notices.filter v.shows).filter Notice.isSuccess =
              done.map fun b => .success ("Pushed " ++ (request.imageName b).text)) := by
  intro ended muted trace
  obtain ⟨same, alike⟩ := run_muted runner (push setup request) (.fresh files host)
  obtain ⟨later, exchanged, before, whole, ends_well⟩ :=
    (failStop_push setup selected : (push setup request).FailStop False).run runner (.fresh files host)
  have trace_eq : trace = later := by simpa using exchanged
  obtain ⟨done, ends, told⟩ := push_ends runner setup selected files host
  obtain ⟨mutedDone, mutedEnds, mutedTold⟩ := push_ends runner.muted setup selected files host
  -- Both runs exchange the same, and what was exchanged says what is done.
  have unmuted : mutedDone = done := by
    have published := mutedEnds.published
    rw [alike.exchanges, ends.published] at published
    exact ((List.map_inj_right fun _ _ => ImageRequest.imageName_text_injective).mp published).symm
  refine ⟨ImageRequest.selection_pairwise selected, ends.trace_isPrefix, trace_eq ▸ before, ?_, ?_, ?_,
    same, alike.exchanges, done, ends.done_isPrefix, ?_, ends.published, fun v loud => ⟨?_, ?_⟩⟩
  · constructor
    · intro well
      exact ⟨(ends.ok well).1, trace_eq ▸ whole () well⟩
    · rintro ⟨-, succeeded⟩
      obtain ⟨_, well⟩ := (ends_well (trace_eq ▸ succeeded)).resolve_left id
      exact well
  · intro before e after reference split issued
    exact ends.pushesBuilt before e after reference split (Command.pushed?_eq_some_iff.mpr issued)
  · have distinct : (bs.map fun b => (request.imageName b).text).Nodup :=
      List.Pairwise.map _
        (fun b c different same => different (ImageRequest.imageName_text_injective same))
        (ImageRequest.selection_nodup selected)
    exact distinct.sublist ends.references_isPrefix.sublist
  · intro well
    exact (ends.ok well).2
  · rw [Verbosity.filter_isSuccess v loud, mutedTold runner.discreet_muted, unmuted]
    rfl
  · intro discreet
    rw [Verbosity.filter_isSuccess v loud, told discreet]
    rfl

def refusingRules : List Scripted.Rule :=
  [{ line := "docker push user/speaker-local:latest", uses := none, hangs := false
     response := .fails "denied" }]

def refusedSetup : Setup := { workspace := ".", config := Config.default, dryRun := false }

def refusedRequest : ImageRequest :=
  { binaries := ["speaker-local", "controller-pool", "speaker-acnodal"], tag := "latest"
    dockerUser := "user", skipTests := true }

def refusedPush : Except Failure Unit × Session (List Scripted.Rule) :=
  (push refusedSetup refusedRequest).run Scripted.runner
    (.fresh { workingDirectory := [], entries := [] } refusingRules)

theorem push_discipline_refused :
    refusedPush.1 ≠ .ok () ∧ (∀ e ∈ refusedPush.2.exchanges.dropLast, e.Succeeded) ∧
      (refusedPush.2.exchanges.filter (·.Succeeded)).filterMap (·.command.pushed?) =
        ["user/controller-pool:latest", "user/speaker-acnodal:latest"] := by
  have selected : refusedRequest.selection =
      .ok [.controllerPool, .speakerAcnodal, .speakerLocal] := by decide +kernel
  refine ⟨by decide +kernel, ?_, by decide +kernel⟩
  unfold refusedPush
  exact (push_discipline Scripted.runner { workingDirectory := [], entries := [] } refusingRules
    refusedSetup refusedRequest _ selected).2.2.1

end ImageRelease.Plan
