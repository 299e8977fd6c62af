import ImageRelease.Proofs.CommandLine.Verbosity
import ImageRelease.Proofs.Plan.Watch
import ImageRelease.Proofs.Program.ExitStatus

/-! How much is shown has no influence on what is done. A watched run comes to the same result and leaves the same at
every verbosity, and so does the program when its command line is changed in nothing but verbosity. The text on
standard output is then the one of the verbose run without its details, or none at all.
-/
namespace ImageRelease.Program

variable {p : Palette} {env : Environment} {m : Machine} {files : FileTree}

def told (env : Environment) (m : Machine) (files : FileTree) (a : Arguments) : List Notice :=
  match a.check with
  | .error f => [.error f.message]
  | .ok _ =>
    match Config.load files env a.configPath with
    | .error _ => []
    | .ok config =>
      (perform m files a config).2.notices ++ report a.request (perform m files a config).1

/-- Also what is printed before the verbosity is known is printed as if it were. -/
theorem execute_printed (p : Palette) (env : Environment) (m : Machine) (files : FileTree) (a : Arguments) :
    (execute p env m files a).stdout = printOut p a.verbosity (told env m files a) ∧
      (execute p env m files a).stderr = printErr p a.verbosity (told env m files a) := by
  cases checked : a.check with
  | error f =>
    simp only [execute, told, checked, refused]
    refine ⟨?_, by rw [printErr_eq, printErr_eq]⟩
    simp [printOut, Notice.isError]
  | ok _ =>
    cases loaded : Config.load files env a.configPath with
    | error f => simp [execute, told, checked, loaded, refused, printOut, printErr]
    | ok config => constructor <;> simp only [execute, told, checked, loaded]

theorem execute_verbosity (p : Palette) (env : Environment) (m : Machine) (files : FileTree) (a : Arguments)
    (v : Verbosity) :
    told env m files { a with verbosity := v } = told env m files a ∧
      processes env m files { a with verbosity := v } = processes env m files a ∧
      (execute p env m files { a with verbosity := v }).result = (execute p env m files a).result ∧
      (execute p env m files { a with verbosity := v }).calls = (execute p env m files a).calls ∧
      (execute p env m files { a with verbosity := v }).files = (execute p env m files a).files := by
  have check : Arguments.check { a with verbosity := v } = a.check := rfl
  have path : Arguments.configPath { a with verbosity := v } = a.configPath := rfl
  refine ⟨rfl, rfl, ?_⟩
  cases checked : a.check with
  | error f => simp only [execute, check, checked, refused, and_self]
  | ok _ =>
    cases loaded : Config.load files env a.configPath with
    | error f => simp only [execute, check, checked, path, loaded, refused, and_self]
    | ok config =>
      simp only [execute, check, checked, path, loaded]
      exact ⟨rfl, rfl, rfl⟩

/-- How much is shown is all that verbosity decides on. A run of a request that prints as it goes gives the
result and leaves the session of the run at every verbosity, with the same text on standard error; the blocks on standard
output are the notices of the session, of which quiet shows none and only a verbose run the details. Accepted
command lines that differ in nothing but verbosity have the same result, start the same processes, leave the same
files and print the same on standard error, and their text on standard output is made of blocks in the same way. -/
theorem verbosity_only_shows {σ : Type} (p : Palette) :
    (∀ (runner : Runner σ) (setup : Setup) (request : Request) (files : FileTree) (host : σ),
      ∃ (result : Except Failure Unit) (session : Session σ) (screen : Verbosity → Screen),
        (request.plan setup).run runner (.fresh files host) = (result, session) ∧
        (∀ v, (request.plan setup).watch p v runner (.fresh files host) .blank = (result, session, screen v)) ∧
        (∀ v w, (screen v).err = (screen w).err) ∧
        ShowsBlocks p (session.notices.filter fun n => !n.isError) fun v => (screen v).out) ∧
    ∀ (env : Environment) (m : Machine) (files : FileTree) (words others : List String) (a b : Arguments),
      CommandLine.parse env words = .ok a → CommandLine.parse env others = .ok b →
      CommandLine.withoutVerbosity words = CommandLine.withoutVerbosity others →
        let one := execute p env m files a
        let two := execute p env m files b
        one.result = two.result ∧ one.calls = two.calls ∧ processes env m files a = processes env m files b ∧
          one.files = two.files ∧ one.stderr = two.stderr ∧ b = { a with verbosity := b.verbosity } ∧
          ShowsBlocks p ((told env m files a).filter fun n => !n.isError) fun v =>
            (execute p env m files { a with verbosity := v }).stdout := by
  constructor
  · intro runner setup request files host
    refine ⟨_, _, fun v => .of p v ((request.plan setup).run runner (.fresh files host)).2.notices, rfl,
      fun v => Plan.watch_eq p v runner (request.plan setup) (.fresh files host), fun v w => ?_,
      showsBlocks_printOut p _⟩
    exact (printErr_eq p v _).trans (printErr_eq p w _).symm
  · intro env m files words others a b accepted acceptedToo same one two
    have changed := CommandLine.eq_of_withoutVerbosity_eq accepted acceptedToo same
    obtain ⟨toldSame, processes, result, calls, left⟩ := execute_verbosity p env m files a b.verbosity
    rw [← changed] at toldSame processes result calls left
    refine ⟨result.symm, calls.symm, processes.symm, left.symm, ?_, changed, ?_⟩
    · rw [(execute_printed p env m files a).2, (execute_printed p env m files b).2, toldSame, printErr_eq,
        printErr_eq]
    · have printed (v : Verbosity) : (execute p env m files { a with verbosity := v }).stdout =
          printOut p v (told env m files a) := (execute_printed p env m files { a with verbosity := v }).1
      simp only [printed]
      exact showsBlocks_printOut p _

def quietWords : List String := ["-C", ".", "push", "-q", "--skip-tests", "--binaries", "speaker-local"]

def verboseWords : List String := ["-vC", ".", "push", "--skip-tests", "--binaries", "speaker-local"]

/-- A push that is denied, without a word on standard output and with details: all else is the same. -/
theorem verbosity_only_shows_denied :
    ∃ a b, CommandLine.parse [] quietWords = .ok a ∧ CommandLine.parse [] verboseWords = .ok b ∧
      CommandLine.withoutVerbosity quietWords = CommandLine.withoutVerbosity verboseWords ∧
      (processes [] denyingMachine emptyTree a).length = 5 ∧
      processes [] denyingMachine emptyTree a = processes [] denyingMachine emptyTree b ∧
      (execute .plain [] denyingMachine emptyTree a).stdout = "" ∧
      (execute .plain [] denyingMachine emptyTree b).stdout ≠ "" ∧
      (execute .plain [] denyingMachine emptyTree a).stderr =
        (execute .plain [] denyingMachine emptyTree b).stderr := by
  let a : Arguments := { pushArguments ["speaker-local"] with verbosity := { verbose := false, quiet := true } }
  let b : Arguments := { pushArguments ["speaker-local"] with verbosity := { verbose := true, quiet := false } }
  have accepted : CommandLine.parse [] quietWords = .ok a := by decide +kernel
  have acceptedToo : CommandLine.parse [] verboseWords = .ok b := by decide +kernel
  have same : CommandLine.withoutVerbosity quietWords = CommandLine.withoutVerbosity verboseWords := by
    decide +kernel
  obtain ⟨-, -, processes, -, stderr, -, blocks⟩ :=
    (@verbosity_only_shows Unit .plain).2 [] denyingMachine emptyTree _ _ a b accepted acceptedToo same
  exact ⟨a, b, accepted, acceptedToo, same, by decide +kernel, processes, blocks.quiet a.verbosity rfl,
    by decide +kernel, stderr⟩

end ImageRelease.Program
