import ImageRelease.Command.Scripted
import ImageRelease.Proofs.Images.Build
import ImageRelease.Proofs.Plan.Trace

/-! The commands of a build and the stamp that they carry. Whatever is answered, a build issues a first part
of one schedule, which is known but for the commit and the branch; these are the trimmed answers to
the two questions asked before, and every image is built with them.
-/
namespace ImageRelease.Plan

variable {α β σ : Type} {trace first later : List Exchange} {result : Except Failure α}
  {commands more : List Command} {c d : Command} {setup : Setup} {request : ImageRequest}
  {bs : List Binary} {text other : String}

/-- The commands of a trace are the first ones of a list, and all of them where the result is a value. -/
structure Covers (commands : List Command) (trace : List Exchange) (result : Except Failure α) : Prop where
  isPrefix : trace.map Exchange.command <+: commands
  complete : ∀ a, result = .ok a → trace.map Exchange.command = commands

namespace Covers

theorem cons (covered : Covers commands later result) (reply : Reply) :
    Covers (c :: commands) (⟨c, reply⟩ :: later) result := by
  refine ⟨?_, fun a done => ?_⟩
  · exact (List.prefix_cons_inj c).mpr covered.isPrefix
  · exact congrArg (c :: ·) (covered.complete a done)

theorem stopped (commands : List Command) (reply : Reply) (failure : Failure) :
    Covers (α := α) (c :: commands) [⟨c, reply⟩] (.error failure) :=
  ⟨(List.prefix_cons_inj c).mpr List.nil_prefix, nofun⟩

theorem append {a : β} (front : Covers commands first (Except.ok a)) (back : Covers more later result) :
    Covers (commands ++ more) (first ++ later) result := by
  have whole := front.complete a rfl
  refine ⟨?_, fun b done => ?_⟩
  · rw [List.map_append, whole, List.prefix_append_right_inj]
    exact back.isPrefix
  · rw [List.map_append, whole, back.complete b done]

theorem append_of_error {failure : Failure}
    (front : Covers commands trace (Except.error failure : Except Failure β)) (more : List Command) :
    Covers (α := α) (commands ++ more) trace (.error failure) :=
  ⟨front.isPrefix.trans (List.prefix_append _ _), nofun⟩

theorem mem (covered : Covers commands trace result) {e : Exchange} (exchanged : e ∈ trace) :
    e.command ∈ commands :=
  covered.isPrefix.subset (List.mem_map_of_mem exchanged)

end Covers

/-- Wherever a question was answered in a trace, the trimmed answer is this text. -/
def Answered (question : Command) (trace : List Exchange) (text : String) : Prop :=
  ∀ e ∈ trace, e.command = question → ∀ output, e.reply.outcome = .ok output →
    text = Text.trim output.stdout

namespace Answered

theorem nil (question : Command) (text : String) : Answered question [] text := by
  simp [Answered]

theorem of_uncaptured (captured : c.capture = true) (uncaptured : ∀ e ∈ trace, e.command.capture = false) :
    Answered c trace text := by
  rintro e exchanged rfl
  have other := uncaptured e exchanged
  rw [captured] at other
  contradiction

theorem append (front : Answered c first text) (back : Answered c later text) :
    Answered c (first ++ later) text := by
  intro e exchanged
  rcases List.mem_append.mp exchanged with earlier | after
  · exact front e earlier
  · exact back e after

theorem cons {reply : Reply} (answered : Answered c later text)
    (head : ∀ output, reply.outcome = .ok output → text = Text.trim output.stdout) :
    Answered c (⟨c, reply⟩ :: later) text := by
  intro e exchanged asked
  rcases List.mem_cons.mp exchanged with rfl | after
  · exact head
  · exact answered e after asked

theorem cons_other {reply : Reply} (answered : Answered c later text) (other : d ≠ c) :
    Answered c (⟨d, reply⟩ :: later) text := by
  intro e exchanged asked
  rcases List.mem_cons.mp exchanged with rfl | after
  · exact absurd asked other
  · exact answered e after asked

end Answered

/-- A trace covers the commands that a commit and a branch stand in, and these are the answers to the two
questions for them. -/
def Stamped (commandsOf : String → String → List Command) (trace : List Exchange)
    (result : Except Failure α) : Prop :=
  ∃ commit branch, Answered Git.describeCommand trace commit ∧ Answered Git.branchCommand trace branch ∧
    Covers (commandsOf commit branch) trace result

theorem yields_checkDaemon {result : Except Failure Unit}
    (yielded : Docker.checkDaemon.Yields trace result) :
    ∃ reply, trace = [⟨Docker.info, reply⟩] ∧ result = Docker.daemonVerdict reply := by
  obtain ⟨reply, later, rfl, rfl, rfl⟩ := yielded
  exact ⟨reply, rfl, rfl⟩

def testCommands (request : ImageRequest) : List Command :=
  if request.skipTests then [] else [testCommand]

def imageCommands (setup : Setup) (request : ImageRequest) (commit branch : String) (bs : List Binary) :
    List Command :=
  bs.map fun b => Docker.build (request.imageName b) commit branch setup.config.dockerfileDir

/-- All commands of a build: the daemon is asked for, the tests are run, two questions give the stamp,
and then each image is built. -/
def buildSchedule (setup : Setup) (request : ImageRequest) (bs : List Binary) (commit branch : String) :
    List Command :=
  Docker.info :: (testCommands request ++ Git.describeCommand :: Git.branchCommand ::
    imageCommands setup request commit branch bs)

theorem covers_runTests {result : Except Failure Unit} (yielded : (runTests request).Yields trace result) :
    Covers (testCommands request) trace result := by
  unfold runTests at yielded
  by_cases skipped : request.skipTests = true
  · rw [if_pos skipped] at yielded
    obtain ⟨rfl, rfl⟩ := yields_notify.mp yielded
    simp [testCommands, skipped, Covers.mk]
  · rw [if_neg skipped] at yielded
    have listed : testCommands request = [testCommand] := if_neg skipped
    rw [listed]
    obtain ⟨reply, ⟨failure, -, rfl, rfl⟩ | ⟨_, later, -, rfl, rest⟩⟩ := yields_command_bind yielded
    · exact .stopped [] reply failure
    · obtain ⟨rfl, rfl⟩ := yields_pure.mp rest
      exact ⟨List.prefix_rfl, fun _ _ => rfl⟩

theorem covers_produceEach {dir commit branch : String} {images : List Docker.ImageName}
    {result : Except Failure Unit} (yielded : (produceEach dir commit branch images).Yields trace result) :
    Covers (images.map fun image => Docker.build image commit branch dir) trace result := by
  induction images generalizing trace with
  | nil =>
    obtain ⟨rfl, rfl⟩ := yields_pure.mp yielded
    exact ⟨List.prefix_rfl, fun _ _ => rfl⟩
  | cons image images ih =>
    obtain ⟨reply, ⟨failure, -, rfl, rfl⟩ | ⟨_, later, -, rfl, rest⟩⟩ := yields_command_bind yielded
    · exact .stopped _ reply failure
    · exact (ih rest).cons reply

theorem covers_images {commit branch : String} {result : Except Failure (List Docker.ImageName)}
    (yielded : (do
      notify (.detail ("commit " ++ commit ++ " on branch " ++ branch))
      let images := bs.map request.imageName
      produceEach setup.config.dockerfileDir commit branch images
      return images : Plan _).Yields trace result) :
    Covers (imageCommands setup request commit branch bs) trace result := by
  have listed : imageCommands setup request commit branch bs = (bs.map request.imageName).map
      fun image => Docker.build image commit branch setup.config.dockerfileDir := by
    rw [List.map_map]
    rfl
  rw [listed]
  rcases yields_bind (yields_notify_bind.mp yielded) with ⟨failure, built, rfl⟩ | ⟨_, front, last, rfl, built, rest⟩
  · exact ⟨(covers_produceEach built).isPrefix, nofun⟩
  · obtain ⟨rfl, rfl⟩ := yields_pure.mp rest
    have whole := covers_produceEach built
    rw [List.append_nil]
    exact ⟨whole.isPrefix, fun _ _ => whole.complete () rfl⟩

theorem tests_uncaptured (covered : Covers (testCommands request) trace result) :
    ∀ e ∈ trace, e.command.capture = false := by
  intro e exchanged
  have tested := covered.mem exchanged
  unfold testCommands at tested
  split at tested
  · contradiction
  · rw [List.mem_singleton.mp tested]
    rfl

theorem images_uncaptured {commit branch : String}
    (covered : Covers (imageCommands setup request commit branch bs) trace result) :
    ∀ e ∈ trace, e.command.capture = false := by
  intro e exchanged
  obtain ⟨b, -, built⟩ := List.mem_map.mp (covered.mem exchanged)
  rw [← built]
  rfl

/-- The two questions are asked one after the other, and what follows is planned by their answers. -/
theorem yields_stamp {f : String → String → Plan α} {commandsOf : String → String → List Command}
    (yielded : (Git.describe >>= fun commit => Git.branch >>= f commit).Yields trace result)
    (rest : ∀ commit branch later, (f commit branch).Yields later result →
      Covers (commandsOf commit branch) later result ∧ ∀ e ∈ later, e.command.capture = false) :
    Stamped (fun commit branch => Git.describeCommand :: Git.branchCommand :: commandsOf commit branch) trace
      result := by
  have different : Git.branchCommand ≠ Git.describeCommand := by decide
  rw [Git.describe, ask_bind] at yielded
  obtain ⟨describe, ⟨failure, failed, rfl, rfl⟩ | ⟨commit, trace, described, rfl, query⟩⟩ :=
    yields_command_bind yielded
  · refine ⟨"", "", ?_, (Answered.nil _ _).cons_other different.symm, .stopped _ describe failure⟩
    exact (Answered.nil _ _).cons fun output replied => by simp [failed] at replied
  rw [Git.branch, ask_bind] at query
  obtain ⟨name, ⟨failure, failed, rfl, rfl⟩ | ⟨branch, trace, named, rfl, planned⟩⟩ :=
    yields_command_bind query
  · refine ⟨Text.trim commit.stdout, "", ?_, ?_, (Covers.stopped _ name failure).cons describe⟩
    · refine ((Answered.nil _ _).cons_other different).cons fun output replied => ?_
      rw [Except.ok.inj (described.symm.trans replied)]
    · refine ((Answered.nil _ _).cons fun output replied => ?_).cons_other different.symm
      simp [failed] at replied
  obtain ⟨covered, uncaptured⟩ := rest _ _ _ planned
  refine ⟨_, _, ?_, ?_, (covered.cons name).cons describe⟩
  · refine ((Answered.of_uncaptured rfl uncaptured).cons_other different).cons fun output replied => ?_
    rw [Except.ok.inj (described.symm.trans replied)]
  · refine ((Answered.of_uncaptured rfl uncaptured).cons fun output replied => ?_).cons_other different.symm
    rw [Except.ok.inj (named.symm.trans replied)]

theorem yields_produce {result : Except Failure (List Docker.ImageName)}
    (yielded : (produce setup request bs).Yields trace result) :
    Stamped (buildSchedule setup request bs) trace result := by
  have notDescribe : Docker.info ≠ Git.describeCommand := by decide
  have notBranch : Docker.info ≠ Git.branchCommand := by decide
  rcases yields_bind yielded with ⟨failure, checked, rfl⟩ | ⟨_, front, trace, rfl, checked, tests⟩
  · obtain ⟨reply, rfl, -⟩ := yields_checkDaemon checked
    exact ⟨"", "", (Answered.nil _ _).cons_other notDescribe, (Answered.nil _ _).cons_other notBranch,
      .stopped _ reply failure⟩
  obtain ⟨info, rfl, -⟩ := yields_checkDaemon checked
  rcases yields_bind tests with ⟨failure, tested, rfl⟩ | ⟨_, front, trace, rfl, tested, queries⟩
  · have covered := covers_runTests tested
    have uncaptured := tests_uncaptured covered
    exact ⟨"", "", (Answered.of_uncaptured rfl uncaptured).cons_other notDescribe,
      (Answered.of_uncaptured rfl uncaptured).cons_other notBranch, (covered.append_of_error _).cons info⟩
  have tested := covers_runTests tested
  have uncaptured := tests_uncaptured tested
  obtain ⟨commit, branch, described, named, covered⟩ :=
    yields_stamp queries fun commit branch later planned =>
      have covered := covers_images planned
      ⟨covered, images_uncaptured covered⟩
  exact ⟨commit, branch, ((Answered.of_uncaptured rfl uncaptured).append described).cons_other notDescribe,
    ((Answered.of_uncaptured rfl uncaptured).append named).cons_other notBranch,
    (tested.append covered).cons info⟩

theorem yields_notifyAll {notices : List Notice} {result : Except Failure Unit}
    (yielded : (notifyAll notices).Yields trace result) : trace = [] ∧ result = .ok () := by
  induction notices generalizing trace with
  | nil => exact yields_pure.mp yielded
  | cons n notices ih => exact ih (yields_notify_bind.mp yielded)

theorem yields_build {result : Except Failure Unit} (selected : request.selection = .ok bs)
    (yielded : (build setup request).Yields trace result) :
    Stamped (buildSchedule setup request bs) trace result := by
  rw [build, selected] at yielded
  obtain ⟨failure, produced, rfl⟩ | ⟨images, front, last, rfl, produced, rest⟩ :=
    yields_bind (yields_notify_bind.mp yielded)
  · obtain ⟨commit, branch, described, named, covered⟩ := yields_produce produced
    exact ⟨commit, branch, described, named, covered.isPrefix, by simp⟩
  obtain ⟨commit, branch, described, named, covered⟩ := yields_produce produced
  -- The images are built by now, and only their names are told.
  obtain ⟨rfl, rfl⟩ := yields_notifyAll (yields_notify_bind.mp rest)
  rw [List.append_nil]
  exact ⟨commit, branch, described, named, covered.isPrefix, fun _ _ => covered.complete images rfl⟩

theorem failStop_notifyAll {mayRaise : Prop} (notices : List Notice) :
    (notifyAll notices).FailStop mayRaise := by
  induction notices with
  | nil => exact .pure _
  | cons n notices ih => exact .bind (.notify _) fun _ => ih

theorem failStop_build {mayRaise : Prop} (setup : Setup) (selected : request.selection = .ok bs) :
    (build setup request).FailStop mayRaise :=
  .bind (.ofExcept selected) fun _ => .bind (.notify _) fun _ =>
    .bind (failStop_produce setup request _) fun _ => .bind (.notify _) fun _ => failStop_notifyAll _

theorem Covers.split (covered : Covers (commands ++ more) trace result) {e : Exchange}
    (exchanged : e ∈ trace) (late : e.command ∉ commands) :
    ∃ front back, trace = front ++ back ∧ front.map Exchange.command = commands ∧ e ∈ back := by
  have whole : commands <+: trace.map Exchange.command := by
    rcases List.prefix_or_prefix_of_prefix (List.prefix_append commands more) covered.isPrefix with
      whole | part
    · exact whole
    · exact absurd (part.subset (List.mem_map_of_mem exchanged)) late
  obtain ⟨front, back, rfl, front_eq, -⟩ := List.map_eq_append_iff.mp whole.choose_spec.symm
  refine ⟨front, back, rfl, front_eq, ?_⟩
  rcases List.mem_append.mp exchanged with early | later
  · exact absurd (front_eq ▸ List.mem_map_of_mem early) late
  · exact later

def imageArgv (setup : Setup) (request : ImageRequest) (commit branch : String) (b : Binary) :
    List String :=
  ["docker", "build", "-t", request.dockerUser ++ "/" ++ b.name ++ ":" ++ request.tag,
    "--build-arg", "cmd=" ++ b.name,
    "--build-arg", "commit=" ++ commit,
    "--build-arg", "branch=" ++ branch,
    "-f", Path.join setup.config.dockerfileDir ("Dockerfile." ++ b.name),
    "."]

theorem argv_imageCommands (commit branch : String) :
    (imageCommands setup request commit branch bs).map Command.argv =
      bs.map (imageArgv setup request commit branch) := by
  rw [imageCommands, List.map_map]
  rfl

theorem argv_testCommands (request : ImageRequest) :
    (testCommands request).map Command.argv =
      if request.skipTests then [] else [["go", "test", "./..."]] := by
  unfold testCommands
  split
  · rfl
  · rfl

theorem argv_buildSchedule (commit branch : String) :
    (buildSchedule setup request bs commit branch).map Command.argv =
      ["docker", "info", "--format", "\x7b\x7b.ServerVersion\x7d\x7d"] ::
        ((if request.skipTests then [] else [["go", "test", "./..."]]) ++
          ["git", "describe", "--dirty", "--always"] :: ["git", "rev-parse", "--abbrev-ref", "HEAD"] ::
            bs.map (imageArgv setup request commit branch)) := by
  rw [buildSchedule, List.map_cons, List.map_append, argv_testCommands, List.map_cons, List.map_cons,
    argv_imageCommands]
  rfl

def preparation (request : ImageRequest) : List Command :=
  Docker.info :: (testCommands request ++ [Git.describeCommand, Git.branchCommand])

theorem buildSchedule_eq (commit branch : String) :
    buildSchedule setup request bs commit branch =
      preparation request ++ imageCommands setup request commit branch bs := by
  simp [buildSchedule, preparation]

theorem build_not_mem_preparation {args : List String} (built : c.argv = "docker" :: "build" :: args) :
    c ∉ preparation request := by
  intro member
  have second : c.argv[1]? = some "build" := by rw [built]; rfl
  have unlike : ∀ d ∈ preparation request, d.argv[1]? ≠ some "build" := by
    unfold preparation testCommands
    split
    · decide
    · decide
  exact unlike c member second

theorem stamp_known {commit branch : String} {e : Exchange} {args : List String}
    (covered : Covers (buildSchedule setup request bs commit branch) trace result)
    (succeeded : ∀ e ∈ trace.dropLast, e.Succeeded) (exchanged : e ∈ trace)
    (built : e.command.argv = "docker" :: "build" :: args) (question : c ∈ preparation request) :
    ∃ asked ∈ trace, asked.command = c ∧ asked.reply.Succeeds := by
  rw [buildSchedule_eq] at covered
  obtain ⟨front, back, rfl, prepared, later⟩ := covered.split exchanged (build_not_mem_preparation built)
  rw [← prepared] at question
  obtain ⟨asked, early, same⟩ := List.mem_map.mp question
  refine ⟨asked, List.mem_append_left _ early, same, (succeeded asked ?_).1⟩
  rw [List.dropLast_append_of_ne_nil (List.ne_nil_of_mem later)]
  exact List.mem_append_left _ early

/-- What a build issues, whatever the runner answers: the beginning of one schedule, in which all commands
succeed but perhaps the last one. It ends well exactly when the whole schedule was issued and
succeeded. Each image is built with the name of its binary in four places, and with the trimmed
answers to the two questions of this run. A request that names an unknown binary issues nothing. -/
theorem build_stamped (runner : Runner σ) (files : FileTree) (host : σ) (setup : Setup)
    (request : ImageRequest) :
    let ended := (build setup request).run runner (Session.fresh files host)
    let trace := ended.2.exchanges
    (∀ failure, request.selection = .error failure → ended.1 = .error failure ∧ trace = []) ∧
    ∀ bs, request.selection = .ok bs →
      bs.Pairwise (fun b c => b.name < c.name) ∧ (∀ e ∈ trace.dropLast, e.Succeeded) ∧
      ∃ commit branch,
        let schedule :=
          ["docker", "info", "--format", "\x7b\x7b.ServerVersion\x7d\x7d"] ::
            ((if request.skipTests then [] else [["go", "test", "./..."]]) ++
              ["git", "describe", "--dirty", "--always"] :: ["git", "rev-parse", "--abbrev-ref", "HEAD"] ::
                bs.map (imageArgv setup request commit branch))
        trace.map (·.command.argv) <+: schedule ∧
        (ended.1 = .ok () ↔ trace.map (·.command.argv) = schedule ∧ ∀ e ∈ trace, e.Succeeded) ∧
        ∀ e ∈ trace, ∀ args, e.command.argv = "docker" :: "build" :: args →
          (∃ b ∈ bs, e.command.argv = imageArgv setup request commit branch b) ∧
          (∃ asked ∈ trace, ∃ output, asked.command.argv = ["git", "describe", "--dirty", "--always"] ∧
            asked.reply.outcome = .ok output ∧ commit = Text.trim output.stdout) ∧
          ∃ asked ∈ trace, ∃ output, asked.command.argv = ["git", "rev-parse", "--abbrev-ref", "HEAD"] ∧
            asked.reply.outcome = .ok output ∧ branch = Text.trim output.stdout := by
  intro ended trace
  constructor
  · intro failure unknown
    have ended_eq : ended = (.error failure, .fresh files host) := by
      simp only [ended, build, run_bind, run_ofExcept, unknown]
    simp [trace, ended_eq]
  intro bs selected
  obtain ⟨later, exchanged, before, whole, endsWell⟩ :=
    (failStop_build setup selected : (build setup request).FailStop False).run runner (.fresh files host)
  obtain rfl : trace = later := by simpa using exchanged
  obtain ⟨commit, branch, described, named, covered⟩ :=
    yields_build selected (yields_run_fresh runner (build setup request) files host)
  have argv_map (commands : List Exchange) :
      commands.map (·.command.argv) = (commands.map Exchange.command).map Command.argv := by
    rw [List.map_map]
    rfl
  refine ⟨ImageRequest.selection_pairwise selected, before, commit, branch, ?_⟩
  intro schedule
  have schedule_eq : schedule = (buildSchedule setup request bs commit branch).map Command.argv :=
    (argv_buildSchedule commit branch).symm
  refine ⟨?_, ⟨fun well => ⟨?_, whole () well⟩, fun both => ?_⟩, fun e issued args built =>
    ⟨?_, ?_, ?_⟩⟩
  · rw [argv_map, schedule_eq]
    exact covered.isPrefix.map Command.argv
  · rw [argv_map, schedule_eq, covered.complete () well]
  · obtain ⟨_, well⟩ := (endsWell both.2).resolve_left id
    exact well
  · have member := covered.mem issued
    rw [buildSchedule_eq] at member
    rcases List.mem_append.mp member with early | image
    · exact absurd early (build_not_mem_preparation built)
    · obtain ⟨b, wanted, same⟩ := List.mem_map.mp image
      exact ⟨b, wanted, by rw [← same]; rfl⟩
  · obtain ⟨asked, earlier, same, output, replied⟩ :=
      stamp_known covered before issued built (c := Git.describeCommand) (by simp [preparation])
    exact ⟨asked, earlier, output, by rw [same]; rfl, replied, described asked earlier same output replied⟩
  · obtain ⟨asked, earlier, same, output, replied⟩ :=
      stamp_known covered before issued built (c := Git.branchCommand) (by simp [preparation])
    exact ⟨asked, earlier, output, by rw [same]; rfl, replied, named asked earlier same output replied⟩

def paddedRules : List Scripted.Rule :=
  [{ line := "git describe --dirty --always", uses := none, hangs := false
     response := .prints " v0.9.3-dirty\n" },
    { line := "git rev-parse --abbrev-ref HEAD", uses := none, hangs := false
      response := .prints "main\n" }]

def paddedSetup : Setup := { workspace := ".", config := Config.default, dryRun := false }

def paddedRequest : ImageRequest :=
  { binaries := ["speaker-local", "controller-pool"], tag := "latest", dockerUser := "user"
    skipTests := false }

def paddedBuild : Except Failure Unit × Session (List Scripted.Rule) :=
  (build paddedSetup paddedRequest).run Scripted.runner
    (.fresh { workingDirectory := [], entries := [] } paddedRules)

theorem build_stamped_trimmed :
    paddedBuild.1 = .ok () ∧ (∀ e ∈ paddedBuild.2.exchanges, e.Succeeded) ∧
      paddedBuild.2.commands.map Command.argv =
        [["docker", "info", "--format", "\x7b\x7b.ServerVersion\x7d\x7d"], ["go", "test", "./..."],
          ["git", "describe", "--dirty", "--always"], ["git", "rev-parse", "--abbrev-ref", "HEAD"],
          imageArgv paddedSetup paddedRequest "v0.9.3-dirty" "main" .controllerPool,
          imageArgv paddedSetup paddedRequest "v0.9.3-dirty" "main" .speakerLocal] := by
  have selected : paddedRequest.selection = .ok [.controllerPool, .speakerLocal] := by decide +kernel
  have well : paddedBuild.1 = .ok () := by decide +kernel
  refine ⟨well, ?_, by decide +kernel⟩
  obtain ⟨-, -, commit, branch, -, ended, -⟩ :=
    (build_stamped Scripted.runner { workingDirectory := [], entries := [] } paddedRules paddedSetup
      paddedRequest).2 _ selected
  unfold paddedBuild at well ⊢
  exact (ended.mp well).2

end ImageRelease.Plan
