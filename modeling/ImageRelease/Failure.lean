import ImageRelease.Config.Decode
import ImageRelease.Version.Parse

/-!
Why a task fails: the causes, the message of each, and what a reader can do about it.
-/
namespace ImageRelease

inductive Failure where
  | unknownBinary (name : String) (known : List String)
  | badVersion (text : String) (fault : Version.Fault)
  | updateFailed (path reason : String)
  | notesUnreadable (path reason : String)
  | notesMissing (version path : String)
  | dirtyCheckout
  | branchFailed (reason : String)
  | commitFailed (reason : String)
  | configUnreadable (path reason : String)
  | configInvalid (path : String) (fault : Config.Fault)
  | badArguments (reason : String)
  | missingTool (tool : String)
  | commandFailed (command reason : String)
  | timedOut (command : String) (seconds : Nat)
  | system (reason : String)
deriving DecidableEq, Repr

namespace Failure

inductive Area where
  | selection
  | version
  | git
  | config
  | commands
  | system
deriving DecidableEq, Repr

def area : Failure → Area
  | unknownBinary _ _ => .selection
  | badVersion _ _ | updateFailed _ _ | notesUnreadable _ _ | notesMissing _ _ => .version
  | dirtyCheckout | branchFailed _ | commitFailed _ => .git
  | configUnreadable _ _ | configInvalid _ _ => .config
  | badArguments _ | missingTool _ | commandFailed _ _ | timedOut _ _ => .commands
  | system _ => .system

def Area.heading : Area → String
  | .selection => ""
  | .version => "Version error: "
  | .git => "Git error: "
  | .config => "Config error: "
  | .commands => "CLI error: "
  | .system => "IO error: "

def detail : Failure → String
  | unknownBinary name known =>
    "Unknown binary " ++ name ++ "\nKnown binaries: " ++ ", ".intercalate known
  | badVersion text fault => "Failed to parse version '" ++ text ++ "': " ++ fault.message
  | updateFailed path reason => "Failed to update " ++ path ++ ": " ++ reason
  | notesUnreadable path reason => "Failed to read release notes " ++ path ++ ": " ++ reason
  | notesMissing version path => "no release notes for v" ++ version ++ " in " ++ path
  | dirtyCheckout => "git checkout not clean, cannot release"
  | branchFailed reason => "Git branch operation failed: " ++ reason
  | commitFailed reason => "Git commit failed: " ++ reason
  | configUnreadable path reason => "Failed to read config file " ++ path ++ ": " ++ reason
  | configInvalid path fault => "Invalid config file " ++ path ++ ": " ++ fault.message
  | badArguments reason => "Invalid arguments: " ++ reason
  | missingTool tool => "Required tool '" ++ tool ++ "' not found in PATH"
  | commandFailed command reason => "Command execution failed: " ++ command ++ " - " ++ reason
  | timedOut command seconds =>
    "Command timed out after " ++ toString seconds ++ "s: " ++ command
  | system reason => reason

def message (f : Failure) : String := f.area.heading ++ f.detail

/-- Remedies. A message that already names them is followed by none. -/
def suggestions : Failure → List String
  | dirtyCheckout =>
    ["Commit pending changes: git add . && git commit -m 'message'",
      "Stash changes temporarily: git stash"]
  | badVersion _ _ => ["Pass a full semantic version such as 0.9.3 (no leading 'v')"]
  | notesMissing version _ =>
    ["Add a '## Version " ++ version ++ "' section to the release notes",
      "Or rerun with --skip-release-notes"]
  | missingTool tool => ["Install '" ++ tool ++ "' and make sure it is on PATH"]
  | timedOut _ _ =>
    ["Raise the limit with LB_TASKS_TIMEOUT_BUILD or LB_TASKS_TIMEOUT_COMMAND"]
  | unknownBinary _ _ => []
  | _ => ["Check the error message above for specific details"]

end Failure

end ImageRelease
