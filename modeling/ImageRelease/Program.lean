import ImageRelease.CommandLine.Check
import ImageRelease.Config.Load
import ImageRelease.Machine.Runner
import ImageRelease.Notice.Print
import ImageRelease.Plan.Push
import ImageRelease.Plan.Release

/-!
The program as a whole: from the words of a command line to an exit code, printed text, started tools
and changed files. Arguments are judged before the configuration is read, and both before any command
is issued.
-/
namespace ImageRelease

def Request.plan (setup : Setup) : Request → Plan Unit
  | build images => Plan.build setup images
  | push images => Plan.push setup images
  | release r => Plan.release setup r

def Arguments.configPath (a : Arguments) : String :=
  a.config.getD (Path.join a.workspace Config.documentName)

def Arguments.setup (a : Arguments) (config : Config) : Setup :=
  { workspace := a.workspace, config, dryRun := a.dryRun }

def Arguments.settings (a : Arguments) (config : Config) : Machine.Settings :=
  { workspace := a.workspace, limits := config.limits, dryRun := a.dryRun }

def Failure.remedies (f : Failure) : List Notice :=
  if f.suggestions.isEmpty then []
  else .item "Recovery suggestions:" :: f.suggestions.map fun s => .item ("  • " ++ s)

namespace Program

/-- What a run leaves: an exit code or a failure that kept it from starting, the printed text, the
tools that were started, and the files. -/
structure Outcome where
  result : Except Failure Nat
  stdout : String
  stderr : String
  calls : List Machine.Call
  files : FileTree

def report (request : Request) : Except Failure Unit → List Notice
  | .ok _ => []
  | .error f =>
    .error ("Command '" ++ request.name ++ "' failed: " ++ f.message) :: f.remedies

def exitCode : Except Failure Unit → Nat
  | .ok _ => 0
  | .error _ => 1

def loud : Verbosity := { verbose := false, quiet := false }

def perform (m : Machine) (files : FileTree) (a : Arguments) (config : Config) :
    Except Failure Unit × Session (List Machine.Call) :=
  (a.request.plan (a.setup config)).run (Machine.runner m (a.settings config))
    (Session.fresh files [])

def refused (p : Palette) (result : Except Failure Nat) (files : FileTree) (notices : List Notice) :
    Outcome :=
  { result, stdout := printOut p loud notices, stderr := printErr p loud notices, calls := [], files }

def execute (p : Palette) (env : Environment) (m : Machine) (files : FileTree) (a : Arguments) :
    Outcome :=
  match a.check with
  | .error f => refused p (.ok 1) files [.error f.message]
  | .ok _ =>
    match Config.load files env a.configPath with
    | .error f => refused p (.error f) files []
    | .ok config =>
      let (result, session) := perform m files a config
      let notices := session.notices ++ report a.request result
      { result := .ok (exitCode result)
        stdout := printOut p a.verbosity notices
        stderr := printErr p a.verbosity notices
        calls := session.host
        files := session.files }

def versionText : String := "lb_tasks 0.1.0\n"

def usageText : String :=
  "Build, push and release the load-balancer container images\n\n" ++
    "Usage: lb_tasks [OPTIONS] <build | push | release VERSION>\n"

/-- What a command line without a request is answered by, on standard output and standard error. -/
def usageAnswer : CommandLine.UsageFault → String × String
  | .versionRequested => (versionText, "")
  | .helpRequested => (usageText, "")
  | _ => ("", usageText)

structure Ended where
  code : Nat
  outcome : Outcome

def fatal (f : Failure) : List Notice := .error ("Fatal error: " ++ f.message) :: f.remedies

def run (p : Palette) (env : Environment) (m : Machine) (files : FileTree) (words : List String) :
    Ended :=
  match CommandLine.parse env words with
  | .error fault =>
    let (stdout, stderr) := usageAnswer fault
    { code := fault.exitCode
      outcome := { result := .ok fault.exitCode, stdout, stderr, calls := [], files } }
  | .ok a =>
    let outcome := execute p env m files a
    match outcome.result with
    | .ok code => { code, outcome }
    | .error f =>
      { code := 1
        outcome :=
          { outcome with
            stdout := outcome.stdout ++ printOut p loud (fatal f)
            stderr := outcome.stderr ++ printErr p loud (fatal f) } }

end Program

end ImageRelease
