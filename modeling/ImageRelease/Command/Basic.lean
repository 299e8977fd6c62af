/-!
External commands: a program, its arguments and how it is to be run. Captured commands are queries:
they are meant to change nothing and run even when nothing else does.
-/
namespace ImageRelease

/-- Which of the two configured limits applies. -/
inductive Patience where
  | usual
  | long
deriving DecidableEq, Repr

structure Command where
  program : String
  args : List String
  echo : Bool
  capture : Bool
  patience : Patience
deriving DecidableEq, Repr

namespace Command

def of (program : String) (args : List String) : Command :=
  { program, args, echo := false, capture := false, patience := .usual }

def argv (c : Command) : List String := c.program :: c.args

def arg (c : Command) (a : String) : Command := { c with args := c.args ++ [a] }

def addArgs (c : Command) (more : List String) : Command := { c with args := c.args ++ more }

/-- The command line is shown before the command runs. -/
def echoed (c : Command) : Command := { c with echo := true }

/-- The output is wanted, and the command runs in a dry run too. -/
def captured (c : Command) : Command := { c with capture := true }

def patient (c : Command) : Command := { c with patience := .long }

end Command

structure Output where
  status : Option Nat
  stdout : String
  stderr : String
deriving DecidableEq, Repr

def Output.ofText (stdout : String) : Output :=
  { status := some 0, stdout, stderr := "" }

end ImageRelease
