import ImageRelease.Program
import ImageRelease.Proofs.Machine.Runner

/-! The safety of a dry run as a whole. The tools of the machine may do anything when they are started to
change something, and the questions are only assumed to change nothing.
-/
namespace ImageRelease

theorem Request.within_plan (setup : Setup) (request : Request) :
    (request.plan setup).Within (Plan.Step.Marked (setup.dryRun = false)) := by
  cases request with
  | build images => exact Plan.within_build setup images
  | push images => exact Plan.within_push setup images
  | release r => exact Plan.within_release setup r

namespace Program

theorem perform_dryRun {m : Machine} (safe : m.AsksSafely) {a : Arguments} (dry : a.dryRun = true)
    (files : FileTree) (config : Config) :
    (perform m files a config).2.files = files ∧
      ∀ call ∈ (perform m files a config).2.host, call.argv ∈ queries := by
  let holds : FileTree → List Machine.Call → Prop := fun now calls =>
    now = files ∧ ∀ call ∈ calls, call.argv ∈ queries
  have preserved : ∀ c now calls, c.Marked → holds now calls →
      holds (m.runner (a.settings config) c now calls).files
        (m.runner (a.settings config) c now calls).host := by
    rintro c now calls marked ⟨rfl, asked⟩
    obtain ⟨kept, started⟩ := Machine.runner_dryRun safe (s := a.settings config) dry marked now calls
    refine ⟨kept, fun call made => ?_⟩
    exact (started call made).elim (asked call) id
  exact (Request.within_plan (a.setup config) a.request).invariant_run
    (fun _ stored => nomatch dry.symm.trans stored) preserved (.fresh files []) ⟨rfl, by simp⟩

/-- A dry run changes no file and starts no process but the four questions, if these change nothing
themselves. It rests on the marks of the commands: whatever the runner answers, each one that a plan
issues is captured exactly when it is a question, and echoed exactly when it is not captured. -/
theorem dryRun_safe :
    (∀ (σ : Type) (runner : Runner σ) (files : FileTree) (host : σ) (setup : Setup) (request : Request),
      ∀ c ∈ ((request.plan setup).run runner (.fresh files host)).2.commands,
        (c.capture = true ↔ c.argv ∈ queries) ∧ (c.echo = true ↔ c.capture = false)) ∧
    ∀ (p : Palette) (env : Environment) (m : Machine) (files : FileTree) (a : Arguments),
      m.AsksSafely → a.dryRun = true →
        (execute p env m files a).files = files ∧
          ∀ call ∈ (execute p env m files a).calls, call.argv ∈ queries := by
  constructor
  · intro σ runner files host setup request c issued
    rcases (Request.within_plan setup request).commands_run runner (.fresh files host) c issued with
      earlier | marked
    · simp [Session.commands] at earlier
    · exact ⟨marked.captured, marked.echoed⟩
  · intro p env m files a safe dry
    unfold execute
    split
    · exact ⟨rfl, by simp [refused]⟩
    · split
      · exact ⟨rfl, by simp [refused]⟩
      · next config _ => exact perform_dryRun safe dry files config

/-- A docker that loses all files unless it is asked about its daemon, and a git that does nothing. -/
def lossyMachine : Machine :=
  { tools :=
      [("docker", .program fun w args =>
        { finished := Machine.Finished.success .empty
          files := if "docker" :: args ∈ queries then w.files else { w.files with entries := [] }
          remaining := w.remaining }),
        ("git", Machine.Tool.rules [])]
    hasUtilities := true }

def notesOnly : FileTree :=
  { workingDirectory := [], entries := [(["notes"], .file .empty)] }

def pushAll (dryRun : Bool) : Arguments :=
  { workspace := ".", config := none, dryRun, verbosity := loud
    request := .push { binaries := [], tag := "latest", dockerUser := "user", skipTests := true } }

def afterLoss (dryRun : Bool) : Outcome :=
  execute .plain [] lossyMachine notesOnly (pushAll dryRun)

theorem dryRun_safe_lossy :
    (afterLoss false).files.lookup ["notes"] = none ∧ (afterLoss true).files = notesOnly ∧
      (afterLoss true).calls.length = 12 ∧ ∀ call ∈ (afterLoss true).calls, call.argv ∈ queries := by
  have safe : lossyMachine.AsksSafely := by
    intro name behavior installed args question w
    simp only [lossyMachine, List.lookup_cons, List.lookup_nil] at installed
    split at installed
    · next docker =>
      obtain rfl : name = "docker" := by simpa using docker
      obtain rfl := Machine.Tool.program.inj (Option.some.inj installed)
      simp [question]
    · split at installed
      · obtain rfl := Machine.Tool.program.inj (Option.some.inj installed)
        rfl
      · contradiction
  obtain ⟨kept, asked⟩ := dryRun_safe.2 .plain [] lossyMachine notesOnly (pushAll true) safe rfl
  exact ⟨by decide +kernel, kept, by decide +kernel, asked⟩

end Program

end ImageRelease
