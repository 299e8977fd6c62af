import ImageRelease.Environment

/-!
The parameters of the command line, their spellings, and the levels at which each can be given: before
the name of what is asked for, or after it.
-/
namespace ImageRelease.CommandLine

inductive Parameter where
  | workspace
  | config
  | dryRun
  | verbose
  | quiet
  | binaries
  | tag
  | dockerUser
  | skipTests
  | skipNotes
  | help
  | version
deriving DecidableEq, Repr

namespace Parameter

def long : Parameter → String
  | workspace => "workspace"
  | config => "config"
  | dryRun => "dry-run"
  | verbose => "verbose"
  | quiet => "quiet"
  | binaries => "binaries"
  | tag => "tag"
  | dockerUser => "docker-user"
  | skipTests => "skip-tests"
  | skipNotes => "skip-release-notes"
  | help => "help"
  | version => "version"

def short? : Parameter → Option Char
  | workspace => some 'C'
  | verbose => some 'v'
  | quiet => some 'q'
  | help => some 'h'
  | version => some 'V'
  | _ => none

def takesValue : Parameter → Bool
  | workspace | config | binaries | tag | dockerUser => true
  | _ => false

def isPath : Parameter → Bool
  | workspace | config => true
  | _ => false

/-- Whether values given again are added to those before; all else is given once. -/
def collects : Parameter → Bool
  | binaries => true
  | _ => false

def environmentName? : Parameter → Option String
  | workspace => some Environment.workspace
  | tag => some Environment.tag
  | dockerUser => some Environment.dockerUser
  | _ => none

def shared : List Parameter := [workspace, config, dryRun, verbose, quiet, help]

end Parameter

inductive Subcommand where
  | build
  | push
  | release
deriving DecidableEq, Repr

namespace Subcommand

def all : List Subcommand := [build, push, release]

def name : Subcommand → String
  | build => "build"
  | push => "push"
  | release => "release"

def ofName? (word : String) : Option Subcommand := all.find? (·.name == word)

end Subcommand

def helpWord : String := "help"

/-- Words before the subcommand, or words after it. -/
inductive Level where
  | top
  | under (subcommand : Subcommand)
deriving DecidableEq, Repr

namespace Level

open Parameter

def parameters : Level → List Parameter
  | top => shared ++ [version]
  | under .release => shared ++ [skipNotes]
  | under _ => shared ++ [binaries, tag, dockerUser, skipTests]

def ofLong? (l : Level) (name : String) : Option Parameter := l.parameters.find? (·.long == name)

def ofShort? (l : Level) (c : Char) : Option Parameter :=
  l.parameters.find? (·.short? == some c)

/-- Whether a word that is no option can be the version to release. -/
def takesVersion : Level → Bool
  | under .release => true
  | _ => false

end Level

inductive UsageFault where
  | unknownArgument (word : String)
  | repeated (parameter : Parameter)
  | verboseAndQuiet
  | missingValue (parameter : Parameter)
  | emptyPath (parameter : Parameter)
  | needlessValue (parameter : Parameter)
  | unknownSubcommand (word : String)
  | missingSubcommand
  | nothingGiven
  | missingVersion
  | helpRequested
  | versionRequested
deriving DecidableEq, Repr

/-- Help and the program's version are answers, everything else is misuse. -/
def UsageFault.exitCode : UsageFault → Nat
  | .helpRequested | .versionRequested => 0
  | _ => 2

end ImageRelease.CommandLine
