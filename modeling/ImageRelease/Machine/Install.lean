import ImageRelease.Shell.Run
import ImageRelease.Text.Search

/-!
The programs of a machine: installed tools, which may do anything, and the shell and utilities of the
system. A name is looked up among the tools first; a tool that may not be executed is passed over.
-/
namespace ImageRelease

namespace Machine

structure Deed where
  finished : Finished
  files : FileTree
  remaining : Nat

abbrev Behavior := World → List String → Deed

inductive Tool where
  | program (behavior : Behavior)
  | notExecutable
  | noInterpreter

/-- Runs a tool. That it was started is noted, and it cannot move its caller to another directory. -/
def Tool.run (name : String) (behavior : Behavior) : Program := fun argv _ w =>
  let deed := behavior w argv.tail
  (deed.finished,
    { files := { deed.files with workingDirectory := w.files.workingDirectory }
      calls := w.calls ++ [{ argv := name :: argv.tail, directory := w.files.workingDirectory }]
      remaining := deed.remaining })

structure ToolRule where
  /-- The arguments, joined by single spaces. -/
  arguments : String
  stdout : ByteArray
  stderr : ByteArray
  ending : Ending

/-- A tool that goes by rules at once and changes nothing: the first rule for its arguments counts, and
without one it succeeds silently. -/
def Tool.rules (rules : List ToolRule) : Tool :=
  .program fun w args =>
    { finished :=
        match rules.find? (·.arguments == " ".intercalate args) with
        | some r => { ending := r.ending, stdout := r.stdout, stderr := r.stderr }
        | none => Finished.success .empty
      files := w.files
      remaining := w.remaining }

end Machine

structure Machine where
  tools : List (String × Machine.Tool)
  hasUtilities : Bool

namespace Machine

inductive Executable where
  | program (name : String) (program : Program)
  | noInterpreter

def systemDirectory : String := "/usr/bin/"

def systemDirectories : List String := [systemDirectory, "/bin/"]

def shellNames : List String := ["sh", "dash"]

def shellDepth : Nat := 16

def tool? (m : Machine) (name : String) : Option Executable :=
  match m.tools.lookup name with
  | some (.program behavior) => some (.program name (Tool.run name behavior))
  | some .noInterpreter => some .noInterpreter
  | some .notExecutable | none => none

def programIn? (m : Machine) : Nat → String → Option Program
  | depth, name =>
    match m.tool? name with
    | some (.program _ program) => some program
    | some .noInterpreter => none
    | none =>
      if !m.hasUtilities then none
      else if shellNames.contains name then
        match depth with
        | 0 => none
        | depth + 1 => some (Shell.program (m.programIn? depth))
      else utility? name

def systemProgram? (m : Machine) (name : String) : Option Program :=
  if shellNames.contains name then some (Shell.program (m.programIn? shellDepth))
  else utility? name

def systemName? (path : String) : Option String :=
  systemDirectories.findSome? fun directory =>
    (Text.stripFront? directory.toList path.toList).map String.ofList

def which? (m : Machine) (name : String) : Option Executable :=
  if name.toList.contains Path.separator then
    (systemName? name).bind fun base => (m.systemProgram? base).map (.program name)
  else
    match m.tool? name with
    | some executable => some executable
    | none =>
      if m.hasUtilities then
        (m.systemProgram? name).map (.program (systemDirectory ++ name))
      else none

end Machine

end ImageRelease
