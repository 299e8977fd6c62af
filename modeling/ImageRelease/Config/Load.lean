import ImageRelease.Environment
import ImageRelease.Failure
import ImageRelease.FileTree
import ImageRelease.Text.Blank

/-!
Loading the configuration of a project: its document if there is one, and limits from environment
variables, which are cut to a greatest value. A variable that holds no number below `2 ^ 64` is left
alone.
-/
namespace ImageRelease

/-- The greatest value that a variable can give a limit. -/
def LimitField.ceiling : LimitField → Nat
  | buildSeconds => 4 * 3600
  | commandSeconds => 3600

def LimitField.overrideName : LimitField → String
  | buildSeconds => Environment.buildLimit
  | commandSeconds => Environment.commandLimit

namespace Config

def dropPlus : List Char → List Char
  | '+' :: s => s
  | s => s

def requestedSeconds? (value : String) : Option Nat :=
  let digits := dropPlus (Text.trimChars value.toList)
  if digits.isEmpty || !digits.all Char.isDigit then none
  else
    let n := Version.digitsValue digits
    if n < Version.numberBound then some n else none

def overrideLimit (env : Environment) (limits : Limits) (field : LimitField) : Limits :=
  match (env.get? field.overrideName).bind requestedSeconds? with
  | some n => limits.set field (min n field.ceiling)
  | none => limits

def overridden (env : Environment) (c : Config) : Config :=
  { c with limits := LimitField.all.foldl (overrideLimit env) c.limits }

/-- The configuration in the document at a path; the default one when nothing is there. -/
def readFrom (files : FileTree) (path : String) : Except Failure Config :=
  if files.pathExists path then
    match files.readText path with
    | .error fault => .error (.configUnreadable path fault.message)
    | .ok text => (parse text).mapError (.configInvalid path)
  else .ok default

def load (files : FileTree) (env : Environment) (path : String) : Except Failure Config :=
  (readFrom files path).map (overridden env)

end Config

end ImageRelease
