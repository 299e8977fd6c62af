import ImageRelease.Binary
import ImageRelease.Path
import ImageRelease.Plan.Basic

/-!
Container images and the docker commands for them. Before images are built the daemon is asked for
its version, and has a few seconds to answer.
-/
namespace ImageRelease.Docker

structure ImageName where
  user : String
  binary : Binary
  tag : String
deriving DecidableEq, Repr

def ImageName.text (i : ImageName) : String := i.user ++ "/" ++ i.binary.name ++ ":" ++ i.tag

def dockerfile (dir : String) (b : Binary) : String := Path.join dir ("Dockerfile." ++ b.name)

def build (image : ImageName) (commit branch dockerfileDir : String) : Command :=
  (Command.of "docker"
    ["build", "-t", image.text,
      "--build-arg", "cmd=" ++ image.binary.name,
      "--build-arg", "commit=" ++ commit,
      "--build-arg", "branch=" ++ branch,
      "-f", dockerfile dockerfileDir image.binary,
      "."]).echoed.patient

def push (image : ImageName) : Command :=
  (Command.of "docker" ["push", image.text]).echoed.patient

def info : Command :=
  (Command.of "docker" ["info", "--format", "\x7b\x7b.ServerVersion\x7d\x7d"]).captured

def daemonPatience : Nat := 5

/-- The name under which failures of the daemon check are reported. -/
def checkName : String := "docker info"

def startHint : String := "Start Docker daemon: sudo systemctl start docker"

def daemonSilent : Failure :=
  .commandFailed checkName
    ("Docker daemon check timed out after " ++ toString daemonPatience ++ " seconds.\n" ++ startHint)

def daemonFailure : Failure → Failure
  | .commandFailed _ reason =>
    .commandFailed checkName
      ("Docker daemon is not responding (" ++ reason ++ ").\n" ++ startHint)
  | failure => failure

def daemonVerdict (reply : Reply) : Except Failure Unit :=
  if daemonPatience < reply.seconds then .error daemonSilent
  else (reply.outcome.map fun _ => ()).mapError daemonFailure

def checkDaemon : Plan Unit := .issue info fun reply => .done (daemonVerdict reply)

end ImageRelease.Docker
