import ImageRelease.Command.Line
import ImageRelease.Command.Runner

/-!
Runners that follow a script and run nothing. A rule answers the commands with its line, as often as
it may; the first such rule counts, and commands without a rule succeed with no output.
-/
namespace ImageRelease.Scripted

inductive Response where
  | fails (reason : String)
  | toolMissing
  | timesOut (seconds : Nat)
  | systemFails (reason : String)
  | prints (stdout : String)
deriving DecidableEq, Repr

structure Rule where
  line : String
  /-- How often the rule may still be used; not limited when absent. -/
  uses : Option Nat
  hangs : Bool
  response : Response
deriving DecidableEq, Repr

def hangSeconds : Nat := 3600

def Rule.applies (r : Rule) (c : Command) : Bool := r.line == c.line && r.uses != some 0

def Rule.used (r : Rule) : Rule := { r with uses := r.uses.map (· - 1) }

def Response.outcome (c : Command) : Response → Except Failure Output
  | .fails reason => .error (.commandFailed c.line reason)
  | .toolMissing => .error (.missingTool c.program)
  | .timesOut seconds => .error (.timedOut c.line seconds)
  | .systemFails reason => .error (.system reason)
  | .prints stdout => .ok (Output.ofText stdout)

def Rule.reply (r : Rule) (c : Command) : Reply :=
  { outcome := r.response.outcome c, seconds := if r.hangs then hangSeconds else 0 }

/-- The reply of a script to a command, and the rules left. -/
def respond (c : Command) : List Rule → Reply × List Rule
  | [] => ({ outcome := .ok (Output.ofText ""), seconds := 0 }, [])
  | r :: rules =>
    if r.applies c then (r.reply c, r.used :: rules)
    else
      let (reply, rules) := respond c rules
      (reply, r :: rules)

def runner : Runner (List Rule) := fun c files rules =>
  let (reply, rules) := respond c rules
  { reply, notices := [], files, host := rules }

end ImageRelease.Scripted
