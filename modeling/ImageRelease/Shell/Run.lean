import ImageRelease.Machine.Utility
import ImageRelease.Shell.Script

/-!
Running shell scripts. Builtin commands are run by the shell itself, all others are started as
processes. In a pipeline every command is run by a shell of its own, whose changes are lost but for
those of the files.
-/
namespace ImageRelease.Shell

open Machine (Ending Finished World Program)

structure State where
  world : World
  name : String
  arguments : List String
  bindings : List (String × String)
  status : Nat
  stdout : ByteArray
  stderr : ByteArray
  ended : Option Ending

namespace State

def addError (s : State) (message : String) : State :=
  { s with stderr := s.stderr ++ (s.name ++ ": 1: " ++ message ++ "\n").toUTF8 }

/-- The number by which a script knows the shell that runs it. -/
def processNumber : String := "4321"

def valueOf (s : State) (name : String) : String :=
  match name with
  | "#" => toString s.arguments.length
  | "$" => processNumber
  | "?" => toString s.status
  | "@" | "*" => " ".intercalate s.arguments
  | "0" => s.name
  | _ =>
    match name.toNat? with
    | some n => s.arguments.getD (n - 1) ""
    | none => (s.bindings.lookup name).getD ""

/-- A character of an expanded word; a mark stands where a quoted part makes a word of its own. -/
inductive Glyph where
  | mark
  | char (separates : Bool) (c : Char)

def glyphs (s : State) : Part → List Glyph
  | .text quoted chars =>
    (if quoted then [.mark] else []) ++ chars.map (.char false)
  | .parameter quoted name =>
    (if quoted then [.mark] else []) ++
      (s.valueOf name).toList.map fun c =>
        .char (!quoted && (c == ' ' || c == '\t' || c == '\n')) c

/-- The arguments that expanded characters make, after one that is begun and in reverse order. -/
def fields : Option (List Char) → List Glyph → List String
  | begun, [] => (begun.map fun chars => String.ofList chars.reverse).toList
  | begun, .mark :: rest => fields (some (begun.getD [])) rest
  | begun, .char false c :: rest => fields (some (c :: begun.getD [])) rest
  | begun, .char true _ :: rest =>
    (begun.map fun chars => String.ofList chars.reverse).toList ++ fields none rest

def expand (s : State) (word : List Part) : List String := fields none (word.flatMap s.glyphs)

def expandOne (s : State) (word : List Part) : String := " ".intercalate (s.expand word)

end State

def assignment? (word : List Part) : Option (String × List Part) :=
  let name := word.takeWhile fun
    | .text false [c] => isNameChar c
    | _ => false
  let text := name.flatMap fun
    | .text _ chars => chars
    | .parameter _ _ => []
  match text, word.dropWhile fun
    | .text false [c] => isNameChar c
    | _ => false with
  | c :: _, .text false ['='] :: value =>
    if isNameStart c then some (String.ofList text, value) else none
  | _, _ => none

inductive Sink where
  | stdout
  | stderr
  | file (location : Location)
  | closed

structure Places where
  input : ByteArray
  stdout : Sink
  stderr : Sink

def Places.get (p : Places) (descriptor : Nat) : Sink :=
  match descriptor with
  | 1 => p.stdout
  | 2 => p.stderr
  | _ => .closed

def Places.set (p : Places) (descriptor : Nat) (sink : Sink) : Places :=
  match descriptor with
  | 1 => { p with stdout := sink }
  | 2 => { p with stderr := sink }
  | _ => p

def State.write (s : State) (sink : Sink) (bytes : ByteArray) : State :=
  if bytes.isEmpty then s
  else
    match sink with
    | .stdout => { s with stdout := s.stdout ++ bytes }
    | .stderr => { s with stderr := s.stderr ++ bytes }
    | .closed => s
    | .file l =>
      let files := s.world.files
      let old :=
        match files.lookup l with
        | some (.file content) => content
        | _ => .empty
      { s with world := { s.world with files := files.put l (.file (old ++ bytes)) } }

def createWords : FileFault → String
  | .notFound => "Directory nonexistent"
  | fault => Machine.faultWords fault

/-- Carries out one redirection; the message is that of a failure. -/
def redirect (s : State) (p : Places) : Redirection → Except String (State × Places)
  | .copy descriptor target =>
    match (s.expandOne target).toNat? with
    | some source => .ok (s, p.set descriptor (p.get source))
    | none => .error (s.expandOne target ++ ": bad file descriptor")
  | .input target =>
    let path := s.expandOne target
    if path = Machine.nullDevice then .ok (s, { p with input := .empty })
    else
      match s.world.files.read path with
      | .ok bytes => .ok (s, { p with input := bytes })
      | .error .notFound => .error ("cannot open " ++ path ++ ": No such file")
      | .error fault => .error ("cannot open " ++ path ++ ": " ++ Machine.faultWords fault)
  | .output descriptor append target =>
    let path := s.expandOne target
    if path = Machine.nullDevice then .ok (s, p.set descriptor .closed)
    else
      let files := s.world.files
      let opened : Except FileFault (FileTree × Location) := do
        let l ← files.resolve path
        match append, files.lookup l with
        | true, some (.file _) =>
          if files.locked.contains l then throw .notPermitted else return (files, l)
        | _, _ => return (← files.write path .empty, l)
      match opened with
      | .ok (files, l) =>
        .ok ({ s with world := { s.world with files } }, p.set descriptor (.file l))
      | .error fault => .error ("cannot create " ++ path ++ ": " ++ createWords fault)

def State.enter (s : State) (path : String) : Except String State :=
  let files := s.world.files
  match files.resolve path with
  | .ok l =>
    if files.lookup l = some .directory then
      .ok { s with world := { s.world with files := { files with workingDirectory := l } } }
    else .error ("cd: can't cd to " ++ path)
  | .error _ => .error ("cd: can't cd to " ++ path)

def harmless (signal : String) : Bool :=
  ["0", "17", "18", "23", "28", "CHLD", "CONT", "URG", "WINCH", "SIGCHLD", "SIGCONT"].contains signal

def killTarget? : List String → Option (String × String)
  | ["-s", signal, target] => some (signal, target)
  | [signal, target] =>
    match signal.toList with
    | '-' :: name => some (String.ofList name, target)
    | _ => none
  | [target] => some ("TERM", target)
  | _ => none

def condition (files : FileTree) : List String → Bool
  | ["!", a] => a.isEmpty
  | ["!", op, a] => !condition files [op, a]
  | ["-n", a] => !a.isEmpty
  | ["-z", a] => a.isEmpty
  | ["-e", a] => files.pathExists a
  | ["-f", a] => (files.read a).isOk
  | ["-d", a] => files.pathExists a && !(files.read a).isOk
  | [a, "=", b] => a == b
  | [a, "!=", b] => a != b
  | [a] => !a.isEmpty
  | _ => false

abbrev Effect := Finished × State

def done (status : Nat) (s : State) : Effect :=
  ({ ending := .exited status, stdout := .empty, stderr := .empty }, s)

def complain (status : Nat) (message : String) (s : State) : Effect :=
  (.failure status (s.name ++ ": 1: " ++ message ++ "\n"), s)

def exit (args : List String) (s : State) : Effect :=
  match args with
  | [] => done s.status { s with ended := some (.exited s.status) }
  | code :: _ =>
    match code.toNat? with
    | some n => done (n % 256) { s with ended := some (.exited (n % 256)) }
    | none =>
      complain 2 ("exit: Illegal number: " ++ code) { s with ended := some (.exited 2) }

def kill (args : List String) (s : State) : Effect :=
  match killTarget? args with
  | none => complain 2 "kill: Usage: kill [-s sigspec | -signum | -sigspec] [pid | job]..." s
  | some (signal, target) =>
    if target != State.processNumber then complain 1 "kill: No such process\n" s
    else if harmless signal then done 0 s
    else done 0 { s with ended := some .killed }

/-- Reads one line of input into a variable; without any line there is nothing to read. -/
def readLine (args : List String) (input : ByteArray) (s : State) : Effect :=
  let text := (Text.decodeLossy input).toList
  let line := Text.trim (String.ofList (text.takeWhile (· != '\n')))
  let s := { s with bindings := (args.headD "REPLY", line) :: s.bindings }
  done (if text.contains '\n' then 0 else 1) s

def echo (args : List String) : ByteArray :=
  let quiet := args.head? == some "-n"
  let (bytes, stopped) :=
    Machine.unescape ⟨true, false⟩ (" ".intercalate (if quiet then args.tail else args)).toList
  ⟨bytes.toArray⟩ ++ (if quiet || stopped then .empty else Machine.Utility.newline)

def start (program? : String → Option Program) (argv : List String) (input : ByteArray)
    (s : State) : Effect :=
  let name := argv.headD ""
  match program? name with
  | some program =>
    let (finished, world) := program argv input s.world
    (finished, { s with world })
  | none => complain 127 (name ++ ": not found") s

def perform (program? : String → Option Program) (input : ByteArray) (s : State) :
    List String → Effect
  | [] => done 0 s
  | "exit" :: args => exit args s
  | "kill" :: args => kill args s
  | "read" :: args => readLine args input s
  | "cd" :: args =>
    match s.enter (args.headD "/") with
    | .ok s => done 0 s
    | .error message => complain 2 message s
  | ":" :: _ => done 0 s
  | "test" :: args => done (if condition s.world.files args then 0 else 1) s
  | "[" :: args => done (if condition s.world.files args.dropLast then 0 else 1) s
  | "echo" :: args => (.success (echo args), s)
  | "printf" :: args =>
    if args.isEmpty then complain 2 "printf: usage: printf format [arg ...]" s
    else (Machine.Utility.printf ⟨false, false⟩ "printf" args, s)
  | "exec" :: argv =>
    if argv.isEmpty then done 0 s
    else
      let (finished, s) := start program? argv input s
      (finished, { s with ended := some finished.ending })
  | argv => start program? argv input s

def statusOf : Ending → Nat
  | .exited code => code
  | .killed | .outlived => 137

def redirectAll (s : State) (p : Places) : List Redirection → Except String (State × Places)
  | [] => .ok (s, p)
  | r :: rest => do
    let (s, p) ← redirect s p r
    redirectAll s p rest

def splitAssignments : List (List Part) → List (String × List Part) × List (List Part)
  | [] => ([], [])
  | word :: words =>
    match assignment? word with
    | some found =>
      let (more, rest) := splitAssignments words
      (found :: more, rest)
    | none => ([], word :: words)

def runSimple (program? : String → Option Program) (input : ByteArray) (s : State) (c : Simple) :
    State :=
  let (assignments, words) := splitAssignments c.words
  let argv := words.flatMap s.expand
  match redirectAll s ⟨input, .stdout, .stderr⟩ c.redirections with
  | .error message => { s.addError message with status := 2 }
  | .ok (s, p) =>
    if argv.isEmpty then
      { s with
        bindings := (assignments.map fun (name, value) => (name, s.expandOne value)).reverse ++
          s.bindings
        status := 0 }
    else
      let (finished, s) := perform program? p.input s argv
      let s := (s.write p.stdout finished.stdout).write p.stderr finished.stderr
      let ended := if finished.ending = .outlived then some .outlived else s.ended
      { s with status := statusOf finished.ending, ended }

/-- Runs the commands of a pipeline, each on the output of the one before. -/
def runPipeline (program? : String → Option Program) (input : ByteArray) (s : State) :
    List Simple → State
  | [] => s
  | [c] =>
    let own := runSimple program? input { s with stdout := .empty } c
    { s with
      world := { own.world with
        files := { own.world.files with workingDirectory := s.world.files.workingDirectory } }
      stdout := s.stdout ++ own.stdout
      stderr := own.stderr
      status := (own.ended.map statusOf).getD own.status
      ended := if own.ended = some .outlived then own.ended else s.ended }
  | c :: rest =>
    let own := runSimple program? input { s with stdout := .empty } c
    runPipeline program? own.stdout
      { s with
        world := { own.world with
          files := { own.world.files with workingDirectory := s.world.files.workingDirectory } }
        stderr := own.stderr }
      rest

def Condition.holds (c : Condition) (status : Nat) : Bool :=
  match c with
  | .always => true
  | .afterSuccess => status == 0
  | .afterFailure => status != 0

def runSteps (program? : String → Option Program) (input : ByteArray) : List Step → State → State
  | [], s => s
  | step :: steps, s =>
    if s.ended.isSome then s
    else if step.condition.holds s.status then
      runSteps program? input steps
        (match step.pipeline with
          | [c] => runSimple program? input s c
          | cs => runPipeline program? input s cs)
    else runSteps program? input steps s

def runScript (program? : String → Option Program) (name script : String) (arguments : List String)
    (input : ByteArray) (w : World) : Finished × World :=
  match parse? script with
  | none => (.failure 2 (name ++ ": 1: Syntax error\n"), w)
  | some steps =>
    let s := runSteps program? input steps
      { world := w, name, arguments, bindings := [], status := 0, stdout := .empty,
        stderr := .empty, ended := none }
    ({ ending := s.ended.getD (.exited s.status), stdout := s.stdout, stderr := s.stderr },
      { s.world with files := { s.world.files with workingDirectory := w.files.workingDirectory } })

/-- The shell as a program. A script is given as an argument, in a file, or on standard input. -/
def program (program? : String → Option Program) : Program := fun argv input w =>
  let name := argv.headD "sh"
  match argv.tail with
  | "-c" :: script :: zero :: arguments => runScript program? zero script arguments input w
  | ["-c", script] => runScript program? name script [] input w
  | ["-c"] => (.failure 2 (name ++ ": 0: -c requires an argument\n"), w)
  | [] => runScript program? name (Text.decodeLossy input) [] .empty w
  | path :: arguments =>
    match w.files.read path with
    | .ok content => runScript program? path (Text.decodeLossy content) arguments input w
    | .error _ => (.failure 2 (name ++ ": 0: cannot open " ++ path ++ ": No such file\n"), w)

end ImageRelease.Shell
