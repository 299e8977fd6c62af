import ImageRelease.Command.Line
import ImageRelease.Command.Runner
import ImageRelease.Machine.Install
import ImageRelease.Text.Blank

/-!
The runner that starts processes on a machine. Commands are echoed first. In a dry run only captured
commands are started, all others succeed with no output. The output of a process is always collected;
a process that does not succeed within its limit is a failed command.
-/
namespace ImageRelease.Machine

structure Settings where
  workspace : String
  limits : Limits
  dryRun : Bool

def Settings.limitOf (s : Settings) (c : Command) : Nat :=
  match c.patience with
  | .usual => s.limits.commandSeconds
  | .long => s.limits.buildSeconds

/-- A zero byte can be neither in an argument nor in the name of a directory. -/
def zeroByteReason : String := "nul byte found in provided data"

def hasZeroByte (s : String) : Bool := s.toList.contains '\x00'

def directoryAt (files : FileTree) (path : String) : Except FileFault Location := do
  let l ← files.resolve path
  match files.lookup l with
  | some .directory => return l
  | some (.file _) => throw .notDirectory
  | none => throw .notFound

/-- The program to start and the directory to start it in, or why it cannot be started. -/
def prepare (files : FileTree) (workspace : String) (c : Command) (e : Executable) :
    Except String ((String × Program) × Location) :=
  if c.args.any hasZeroByte || hasZeroByte workspace then .error zeroByteReason
  else
    match directoryAt files workspace, e with
    | .error fault, _ => .error fault.message
    | .ok _, .noInterpreter => .error FileFault.notFound.message
    | .ok l, .program name program => .ok ((name, program), l)

def outputOf (f : Finished) : Output :=
  { status :=
      match f.ending with
      | .exited code => some code
      | .killed | .outlived => none
    stdout := Text.decodeLossy f.stdout
    stderr := Text.decodeLossy f.stderr }

def failureReason (output : Output) : String :=
  match output.status with
  | none => "terminated by signal"
  | some code =>
    let message := Text.trim output.stderr
    "exit code " ++ toString code ++ (if message.isEmpty then "" else ": " ++ message)

def outcomeOf (c : Command) (limit : Nat) (f : Finished) : Except Failure Output :=
  if f.ending = .outlived then .error (.timedOut c.line limit)
  else
    let output := outputOf f
    if output.status = some 0 then .ok output
    else .error (.commandFailed c.line (failureReason output))

/-- Starts a program and waits for its end. Nothing can be done in no time at all. -/
def runProgram (name : String) (program : Program) (l : Location) (c : Command) (limit : Nat)
    (files : FileTree) (calls : List Call) : Finished × World :=
  let w : World := { files := { files with workingDirectory := l }, calls, remaining := limit }
  if limit = 0 then ({ Finished.success .empty with ending := .outlived }, w)
  else program (name :: c.args) .empty w

def execute (m : Machine) (s : Settings) (c : Command) (files : FileTree) (calls : List Call) :
    Answer (List Call) :=
  let refused (failure : Failure) : Answer (List Call) :=
    { reply := { outcome := .error failure, seconds := 0 }, notices := [], files, host := calls }
  match m.which? c.program with
  | none => refused (.missingTool c.program)
  | some e =>
    match prepare files s.workspace c e with
    | .error reason => refused (.commandFailed c.line reason)
    | .ok ((name, program), l) =>
      let limit := s.limitOf c
      let (finished, w) := runProgram name program l c limit files calls
      { reply :=
          { outcome := outcomeOf c limit finished
            seconds := if finished.ending = .outlived then limit else limit - w.remaining }
        notices := []
        files := { w.files with workingDirectory := files.workingDirectory }
        host := w.calls }

def echoOf (c : Command) : List Notice := if c.echo then [.command c.line] else []

def skipped (files : FileTree) (calls : List Call) : Answer (List Call) :=
  { reply := { outcome := .ok (Output.ofText ""), seconds := 0 }
    notices := [], files, host := calls }

def runner (m : Machine) (s : Settings) : Runner (List Call) := fun c files calls =>
  let a := if s.dryRun && !c.capture then skipped files calls else m.execute s c files calls
  { a with notices := echoOf c ++ a.notices }

end ImageRelease.Machine
