import ImageRelease.Plan.Basic
import ImageRelease.Text.Blank

/-!
Plans on a git checkout. Queries are captured and answered by their trimmed output; changes are
echoed, and a command that fails fails the branch operation or the commit it was part of.
-/
namespace ImageRelease.Git

def queryCommand (args : List String) : Command := (Command.of "git" args).captured

def changeCommand (args : List String) : Command := (Command.of "git" args).echoed

def describeCommand : Command := queryCommand ["describe", "--dirty", "--always"]

def branchCommand : Command := queryCommand ["rev-parse", "--abbrev-ref", "HEAD"]

def statusCommand : Command := queryCommand ["status", "--porcelain"]

def checkoutCommand (branch : String) : Command := changeCommand ["checkout", branch]

def createCommand (branch : String) : Command := changeCommand ["checkout", "-b", branch]

def commitCommand (message : String) : Command := changeCommand ["commit", "-a", "-m", message]

/-- A failed command is the reason for another failure; failures of other kinds stay as they are. -/
def reworded (f : String → Failure) (failure : Failure) : Failure :=
  match failure.area with
  | .commands => f failure.detail
  | _ => failure

def ask (c : Command) : Plan String := do
  let output ← Plan.command c
  return Text.trim output.stdout

def describe : Plan String := ask describeCommand

def branch : Plan String := ask branchCommand

def isClean : Plan Bool := do
  let status ← ask statusCommand
  return status.isEmpty

def checkout (branch : String) : Plan Unit :=
  Plan.perform (checkoutCommand branch) (reworded .branchFailed)

def branchOff (branch : String) : Plan Unit :=
  Plan.perform (createCommand branch) (reworded .branchFailed)

def commit (message : String) : Plan Unit :=
  Plan.perform (commitCommand message) (reworded .commitFailed)

end ImageRelease.Git
