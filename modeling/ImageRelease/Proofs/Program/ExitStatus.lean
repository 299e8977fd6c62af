import ImageRelease.Proofs.Images.Push
import ImageRelease.Proofs.Images.Stamp
import ImageRelease.Proofs.Machine.Process
import ImageRelease.Program

/-! The exit code of the program and the processes behind it. No process is started after one that failed,
and the exit code is zero only when everything that was started, and everything before it, went well.
What can be refused without starting anything is refused so.
-/
namespace ImageRelease

namespace Plan

theorem gitChange_ne_info {args : List String} : Git.changeCommand args ≠ Docker.info := by
  intro same
  exact absurd (congrArg Command.program same) (show "git" ≠ "docker" by decide)

theorem format_ne_info {versionFile : String} : formatCommand versionFile ≠ Docker.info := by
  intro same
  exact absurd (congrArg Command.program same) (show "gofmt" ≠ "docker" by decide)

theorem failStop_clear (setup : Setup) (request : ReleaseRequest) :
    (clear setup request).FailStop True := by
  refine .bind ?_ fun _ => .bind (.raised _) fun v => .bind (.notify _) fun _ => .bind ?_ fun _ => .pure _
  · refine .bind (.bind (failStop_ask (by decide)) fun _ => .pure _) fun clean => ?_
    split
    · exact .pure _
    · exact .raised (.error Failure.dirtyCheckout)
  · unfold checkNotes
    split
    · exact .notify _
    · refine .bind .files fun _ => .bind (.raised _) fun found => ?_
      split
      · exact .notify _
      · exact .notify _

theorem failStop_changeFile (setup : Setup) (path : String) (rs : List Edit.Replacement) :
    (changeFile setup path rs).FailStop True := by
  unfold changeFile
  split
  · exact .notify _
  · refine .bind .files fun _ => .bind (.raised _) fun _ => .bind (.replaceFiles _) fun _ => ?_
    split
    · exact .notify _
    · exact .notify _

theorem failStop_cut (setup : Setup) (v : Version) : (cut setup v).FailStop True := by
  refine .bind ?_ fun _ => .bind (failStop_changeFile _ _ _) fun _ =>
    .bind (failStop_changeFile _ _ _) fun _ => .bind (.command format_ne_info) fun _ =>
    .bind (.perform gitChange_ne_info _) fun _ => .bind (.perform gitChange_ne_info _) fun _ => .notify _
  unfold enterBranch
  split
  · exact .perform gitChange_ne_info _
  · exact .perform gitChange_ne_info _

/-- Every request is carried out up to the first command that fails. -/
theorem failStop_request (setup : Setup) (request : Request) : (request.plan setup).FailStop True := by
  cases request with
  | build images =>
    cases selected : images.selection with
    | ok bs => exact failStop_build setup selected
    | error failure =>
      change (build setup images).FailStop True
      rw [build_of_unselected setup selected]
      trivial
  | push images =>
    cases selected : images.selection with
    | ok bs => exact failStop_push setup selected
    | error failure =>
      change (push setup images).FailStop True
      rw [push_of_unselected setup selected]
      trivial
  | release r => exact .bind (failStop_clear setup r) fun v => failStop_cut setup v

end Plan

namespace Program

variable {p : Palette} {env : Environment} {m : Machine} {files : FileTree} {a : Arguments}

/-- The processes that are started for arguments: those of their request, when it is carried out. -/
def processes (env : Environment) (m : Machine) (files : FileTree) (a : Arguments) : List Machine.Process :=
  match a.check, Config.load files env a.configPath with
  | .ok _, .ok config => m.processes (a.settings config) (a.request.plan (a.setup config)) files
  | _, _ => []

inductive Rejected (files : FileTree) (a : Arguments) : Prop where
  | badArguments {failure : Failure} (refused : a.check = .error failure)
  | unreadable {fault : FileFault} (present : files.pathExists a.configPath = true)
      (unread : files.readText a.configPath = .error fault)
  | invalid {text : String} {fault : Config.Fault} (present : files.pathExists a.configPath = true)
      (read : files.readText a.configPath = .ok text) (malformed : Config.parse text = .error fault)
  | unknownBinary {images : ImageRequest} {word : String}
      (asked : a.request = .build images ∨ a.request = .push images) (member : word ∈ images.binaries)
      (particular : word ≠ Binary.everyWord) (unknown : word ∉ Binary.names)

theorem load_of_unreadable {fault : FileFault} (env : Environment)
    (present : files.pathExists a.configPath = true) (unread : files.readText a.configPath = .error fault) :
    ∃ failure, Config.load files env a.configPath = .error failure := by
  simp [Config.load, Config.readFrom, present, unread, Except.map]

theorem load_of_invalid {text : String} {fault : Config.Fault} (env : Environment)
    (present : files.pathExists a.configPath = true) (read : files.readText a.configPath = .ok text)
    (malformed : Config.parse text = .error fault) :
    ∃ failure, Config.load files env a.configPath = .error failure := by
  have refused : Config.readFrom files a.configPath = .error (.configInvalid a.configPath fault) := by
    rw [Config.readFrom, if_pos present, read]
    exact congrArg (Except.mapError (Failure.configInvalid a.configPath)) malformed
  exact ⟨_, by rw [Config.load, refused]; rfl⟩

/-- The arguments are in order, the configuration can be loaded, and the plan of the request runs to its end. -/
def Completed (env : Environment) (m : Machine) (files : FileTree) (a : Arguments) : Prop :=
  a.check = .ok () ∧ ∃ config, Config.load files env a.configPath = .ok config ∧
    ((a.request.plan (a.setup config)).run (m.runner (a.settings config)) (.fresh files [])).1 = .ok ()

def occasions (m : Machine) (files : FileTree) (a : Arguments) (config : Config) :
    List (Occasion (List Machine.Call)) :=
  (a.request.plan (a.setup config)).occasions (m.runner (a.settings config)) files []

/-- The program fails without having started a tool or changed a file. -/
structure Ended.Idle (files : FileTree) (ended : Ended) : Prop where
  code : ended.code = 1
  calls : ended.outcome.calls = []
  unchanged : ended.outcome.files = files

/-- The program ran the plan of its request. Every command of this run was issued on one of the occasions, and the
processes are those that were started there; nothing else recorded a tool. -/
structure Ended.CarriedOut (m : Machine) (files : FileTree) (a : Arguments) (config : Config)
    (spawned : List Machine.Process) (ended : Ended) : Prop where
  performed : perform m files a config =
    (a.request.plan (a.setup config)).run (m.runner (a.settings config)) (.fresh files [])
  exchanged : (perform m files a config).2.exchanges =
    (occasions m files a config).map (Occasion.exchange (m.runner (a.settings config)))
  started : spawned = (occasions m files a config).filterMap (m.process? (a.settings config))
  recorded : m.Recorded (a.settings config) [] (occasions m files a config) ended.outcome.calls
  left : ended.outcome.files = (perform m files a config).2.files
  code : ended.code = exitCode (perform m files a config).1

theorem run_cases (p : Palette) (m : Machine) (files : FileTree) {words : List String}
    (accepted : CommandLine.parse env words = .ok a) :
    ((∀ config, a.check = .ok () → Config.load files env a.configPath ≠ .ok config) ∧
        processes env m files a = [] ∧ (run p env m files words).Idle files) ∨
      ∃ config, a.check = .ok () ∧ Config.load files env a.configPath = .ok config ∧
        (run p env m files words).CarriedOut m files a config (processes env m files a) := by
  cases checked : a.check with
  | error failure =>
    left
    refine ⟨fun _ => nofun, by simp [processes, checked], ?_⟩
    constructor <;> simp [run, accepted, execute, checked, refused]
  | ok _ =>
    cases loaded : Config.load files env a.configPath with
    | error failure =>
      left
      refine ⟨fun _ _ => nofun, by simp [processes, checked, loaded], ?_⟩
      constructor <;> simp [run, accepted, execute, checked, loaded, refused]
    | ok config =>
      right
      have calls : (run p env m files words).outcome.calls = (perform m files a config).2.host := by
        simp [run, accepted, execute, checked, loaded]
      refine ⟨config, rfl, rfl, ?_⟩
      constructor
      case performed => rfl
      case exchanged => exact Plan.exchanges_eq_occasions _ _ (.fresh files [])
      case started => simp [processes, checked, loaded, Machine.processes, occasions]
      case recorded =>
        rw [calls]
        exact Machine.recorded_run m (a.settings config) _ (.fresh files [])
      case left => simp [run, accepted, execute, checked, loaded]
      case code => simp [run, accepted, execute, checked, loaded]

theorem plan_of_selection_error {images : ImageRequest} {failure : Failure} (setup : Setup)
    (asked : a.request = .build images ∨ a.request = .push images)
    (unselected : images.selection = .error failure) : a.request.plan setup = Plan.fail failure := by
  rcases asked with asked | asked
  · rw [asked, Request.plan, Plan.build_of_unselected setup unselected]
  · rw [asked, Request.plan, Plan.push_of_unselected setup unselected]

theorem idle_of_rejected (p : Palette) (m : Machine) {words : List String}
    (accepted : CommandLine.parse env words = .ok a) (rejected : Rejected files a) :
    processes env m files a = [] ∧ (run p env m files words).Idle files := by
  obtain ⟨-, none, idle⟩ | ⟨config, checked, loaded, carriedOut⟩ := run_cases p m files accepted
  · exact ⟨none, idle⟩
  cases rejected with
  | badArguments refused =>
    rw [checked] at refused
    contradiction
  | unreadable present unread =>
    obtain ⟨failure, failed⟩ := load_of_unreadable env present unread
    rw [loaded] at failed
    contradiction
  | invalid present read malformed =>
    obtain ⟨failure, failed⟩ := load_of_invalid env present read malformed
    rw [loaded] at failed
    contradiction
  | unknownBinary asked member particular unknown =>
    -- Only this one gets as far as its plan, which then fails before it issues anything.
    obtain ⟨failure, unselected⟩ :=
      (ImageRequest.selection_error_iff _).mpr ⟨_, member, not_or.mpr ⟨particular, unknown⟩⟩
    have plan_eq := plan_of_selection_error (a.setup config) asked unselected
    have performed : perform m files a config = (.error failure, .fresh files []) := by
      rw [perform, plan_eq]
      rfl
    have never : occasions m files a config = [] := by
      rw [occasions, plan_eq]
      rfl
    obtain ⟨-, -, started, recorded, left, code⟩ := carriedOut
    rw [performed] at left code
    rw [never] at started recorded
    exact ⟨started, code, recorded.eq_of_no_process nofun, left⟩

/-- The exit code tells whether all went well. Of the processes that the program starts for accepted words,
all but the last end with status zero within their limits. The exit code is zero when the arguments
are in order, the configuration can be loaded and the plan of the request runs to its end, and then all
processes end so; otherwise it is one. The processes are those that this run started, and only they start tools.
Arguments that are refused, a configuration that cannot be read or is invalid, and an unknown binary start no
process and change no file. -/
theorem exitCode_failStop (p : Palette) (env : Environment) (m : Machine) (files : FileTree)
    (words : List String) (a : Arguments) (accepted : CommandLine.parse env words = .ok a) :
    let ended := run p env m files words
    let spawned := processes env m files a
    (∀ q ∈ spawned.dropLast, q.Succeeded) ∧
      (ended.code = 0 ∧ Completed env m files a ∨ ended.code = 1 ∧ ¬Completed env m files a) ∧
      (ended.code = 0 → ∀ q ∈ spawned, q.Succeeded) ∧
      (∀ config, a.check = .ok () → Config.load files env a.configPath = .ok config →
        ended.CarriedOut m files a config spawned) ∧
      (spawned = [] → ended.outcome.calls = []) ∧
      (Rejected files a →
        spawned = [] ∧ ended.outcome.calls = [] ∧ ended.outcome.files = files ∧ ended.code = 1) := by
  intro ended spawned
  have untouched (rejected : Rejected files a) :
      spawned = [] ∧ ended.outcome.calls = [] ∧ ended.outcome.files = files ∧ ended.code = 1 := by
    obtain ⟨none, idle⟩ := idle_of_rejected p m accepted rejected
    exact ⟨none, idle.calls, idle.unchanged, idle.code⟩
  obtain ⟨unloaded, none, idle⟩ | ⟨config, checked, loaded, carriedOut⟩ := run_cases p m files accepted
  · have incomplete : ¬Completed env m files a := by
      rintro ⟨checked, config, loaded, -⟩
      exact unloaded config checked loaded
    refine ⟨?_, .inr ⟨idle.code, incomplete⟩, ?_, ?_, fun _ => idle.calls, untouched⟩
    · simp [spawned, none]
    · simp [spawned, none]
    · exact fun config checked loaded => absurd loaded (unloaded config checked)
  have stops := Plan.failStop_request (a.setup config) a.request
  obtain ⟨before, whole⟩ := Machine.succeeded_processes stops m (a.settings config) files
  rw [Machine.processes, ← occasions, ← carriedOut.started] at before whole
  have conducted (other : Config) (_ : a.check = .ok ())
      (found : Config.load files env a.configPath = .ok other) : ended.CarriedOut m files a other spawned := by
    obtain rfl := Except.ok.inj (loaded.symm.trans found)
    exact carriedOut
  have toolless (none : spawned = []) : ended.outcome.calls = [] :=
    carriedOut.recorded.eq_of_no_process
      (List.filterMap_eq_nil_iff.mp (carriedOut.started.symm.trans none))
  have code := carriedOut.code
  cases performed : (perform m files a config).1 with
  | ok _ =>
    rw [performed] at code
    have completed : Completed env m files a := ⟨checked, config, loaded, performed⟩
    exact ⟨before, .inl ⟨code, completed⟩, fun _ => whole () performed, conducted, toolless, untouched⟩
  | error failure =>
    rw [performed] at code
    refine ⟨before, .inr ⟨code, ?_⟩, ?_, conducted, toolless, untouched⟩
    · rintro ⟨-, other, found, completed⟩
      obtain rfl := Except.ok.inj (loaded.symm.trans found)
      exact nomatch performed.symm.trans completed
    · intro zero
      exact nomatch code.symm.trans zero

def denyingMachine : Machine :=
  { tools :=
      [("docker", Machine.Tool.rules
          [{ arguments := "push metallb/speaker-local:dev", stdout := .empty, stderr := "denied".toUTF8
             ending := .exited 1 }]),
        ("git", Machine.Tool.rules [])]
    hasUtilities := true }

def emptyTree : FileTree := { workingDirectory := [], entries := [] }

def pushWords (binaries : String) : List String := ["push", "--skip-tests", "--binaries", binaries]

def pushArguments (binaries : List String) : Arguments :=
  { workspace := ".", config := none, dryRun := false, verbosity := loud
    request := .push { binaries, tag := "dev", dockerUser := "metallb", skipTests := true } }

def pushEnded (binaries : String) : Ended := run .plain [] denyingMachine emptyTree (pushWords binaries)

def pushProcesses (binaries : List String) : List Machine.Process :=
  processes [] denyingMachine emptyTree (pushArguments binaries)

/-- A push that is allowed starts five tools, one by each process, and ends well. One that is denied is the last of
ten processes, with as many tools; with an unknown binary there is none. -/
theorem exitCode_failStop_denied :
    ((pushEnded "controller-pool").code = 0 ∧
      (pushEnded "controller-pool").outcome.calls.map Machine.Call.argv =
        [Docker.info.argv, ["git", "describe", "--dirty", "--always"],
          ["git", "rev-parse", "--abbrev-ref", "HEAD"],
          ["docker", "build", "-t", "metallb/controller-pool:dev", "--build-arg", "cmd=controller-pool",
            "--build-arg", "commit=", "--build-arg", "branch=", "-f",
            "build/package/Dockerfile.controller-pool", "."],
          ["docker", "push", "metallb/controller-pool:dev"]] ∧
      (pushProcesses ["controller-pool"]).map (·.command.argv) =
        (pushEnded "controller-pool").outcome.calls.map Machine.Call.argv ∧
      (∀ q ∈ pushProcesses ["controller-pool"], q.Succeeded) ∧
      (pushEnded "controller-pool").CarriedOut denyingMachine emptyTree (pushArguments ["controller-pool"])
        Config.default (pushProcesses ["controller-pool"])) ∧
    ((pushEnded "speaker-local,controller-pool").code = 1 ∧
      (pushProcesses ["speaker-local", "controller-pool"]).length = 10 ∧
      (pushProcesses ["speaker-local", "controller-pool"]).map (·.command.argv) =
        (pushEnded "speaker-local,controller-pool").outcome.calls.map Machine.Call.argv ∧
      (pushProcesses ["speaker-local", "controller-pool"]).getLast?.map (·.ending) = some (.exited 1) ∧
      ∀ q ∈ (pushProcesses ["speaker-local", "controller-pool"]).dropLast, q.Succeeded) ∧
    (pushEnded "speaker-local,web").code = 1 ∧ pushProcesses ["speaker-local", "web"] = [] ∧
      (pushEnded "speaker-local,web").outcome.calls = [] ∧
      (pushEnded "speaker-local,web").outcome.files = emptyTree := by
  refine ⟨?_, ?_, ?_⟩
  · have accepted : CommandLine.parse [] (pushWords "controller-pool") =
        .ok (pushArguments ["controller-pool"]) := rfl
    obtain ⟨-, -, succeeded, carriedOut, -⟩ :=
      exitCode_failStop .plain [] denyingMachine emptyTree _ _ accepted
    have zero : (pushEnded "controller-pool").code = 0 := by decide +kernel
    exact ⟨zero, by decide +kernel, by decide +kernel, succeeded zero, carriedOut Config.default rfl rfl⟩
  · have accepted : CommandLine.parse [] (pushWords "speaker-local,controller-pool") =
        .ok (pushArguments ["speaker-local", "controller-pool"]) := rfl
    obtain ⟨before, -⟩ := exitCode_failStop .plain [] denyingMachine emptyTree _ _ accepted
    exact ⟨by decide +kernel, by decide +kernel, by decide +kernel, by decide +kernel, before⟩
  · have accepted : CommandLine.parse [] (pushWords "speaker-local,web") =
        .ok (pushArguments ["speaker-local", "web"]) := rfl
    have member : "web" ∈ ["speaker-local", "web"] := by simp
    have rejected : Rejected emptyTree (pushArguments ["speaker-local", "web"]) :=
      .unknownBinary (.inr rfl) member (by decide) (by decide)
    obtain ⟨-, -, -, -, -, idle⟩ := exitCode_failStop .plain [] denyingMachine emptyTree _ _ accepted
    obtain ⟨none, calls, unchanged, failed⟩ := idle rejected
    exact ⟨failed, none, calls, unchanged⟩

end Program

end ImageRelease
