import ImageRelease.CommandLine.Reading
import ImageRelease.Notice.Basic
import ImageRelease.Request

/-!
The command line as a whole. The words after the subcommand are read and judged before the pending
ones in front of it. Each level is completed from the environment; of the two levels the later one
decides, unless only the earlier one was given on the command line.
-/
namespace ImageRelease

structure Arguments where
  workspace : String
  config : Option String
  dryRun : Bool
  verbosity : Verbosity
  request : Request
deriving DecidableEq, Repr

namespace CommandLine

inductive Source where
  | environment
  | words
deriving DecidableEq, Repr

/-- The parameters that a level gives explicitly. -/
structure Matches where
  values : List (Parameter × Source × List String)
  version : Option String
deriving DecidableEq, Repr

namespace Matches

def get? (m : Matches) (p : Parameter) : Option (Source × List String) := m.values.lookup p

def has (m : Matches) (p : Parameter) : Bool := (m.get? p).isSome

def value? (m : Matches) (p : Parameter) : Option String :=
  (m.get? p).bind fun found => found.2.head?

def all (m : Matches) (p : Parameter) : List String :=
  ((m.get? p).map fun found => found.2).getD []

end Matches

/-- The values that the environment gives to parameters which the words leave open. -/
def fromEnvironment (env : Environment) (r : Reading) :
    List Parameter → Except UsageFault (List (Parameter × Source × List String))
  | [] => .ok []
  | p :: ps =>
    match p.environmentName?.bind env.get? with
    | some value =>
      if r.has p then fromEnvironment env r ps
      else if p.isPath && value.isEmpty then .error (.emptyPath p)
      else (fromEnvironment env r ps).map ((p, .environment, Reading.valuesOf p value) :: ·)
    | none => fromEnvironment env r ps

def complete (l : Level) (env : Environment) (r : Reading) : Except UsageFault Matches := do
  let r ← r.settle
  let others ← fromEnvironment env r l.parameters
  return { values := r.given.map (fun (p, values) => (p, .words, values)) ++ others
           version := r.version }

/-- Within one level only one of the two settings of verbosity is given. -/
def checkVerbosity (m : Matches) : Except UsageFault Unit :=
  if m.has .verbose && m.has .quiet then .error .verboseAndQuiet else .ok ()

def readUnder (s : Subcommand) (env : Environment) (words : List String) :
    Except UsageFault Matches := do
  let (r, _) ← readWords (.under s) .empty words
  let m ← complete (.under s) env r
  checkVerbosity m
  if s = .release ∧ m.version = none then throw .missingVersion
  return m

/-- Help may be asked for one subcommand; other words are none. -/
def helpFault : List String → UsageFault
  | [] => .helpRequested
  | word :: words =>
    if (Subcommand.ofName? word).isNone && word != helpWord then .unknownSubcommand word
    else
      match words with
      | [] => .helpRequested
      | other :: _ => .unknownSubcommand other

def noSubcommand (m : Matches) : UsageFault :=
  if m.values.isEmpty then .nothingGiven else .missingSubcommand

structure Levels where
  top : Matches
  subcommand : Subcommand
  under : Matches

def readLevels (env : Environment) (words : List String) : Except UsageFault Levels := do
  match ← readWords .top .empty words with
  | (r, none) => throw (noSubcommand (← complete .top env r))
  | (_, some (.help words)) => throw (helpFault words)
  | (r, some (.subcommand s words)) =>
    let under ← readUnder s env words
    let top ← complete .top env r
    checkVerbosity top
    return { top, subcommand := s, under }

namespace Levels

/-- The value of a shared parameter. The level under the subcommand decides unless it only has the
value from the environment and the top has one from the words. -/
def value? (ls : Levels) (p : Parameter) : Option String :=
  match ls.top.get? p, ls.under.get? p with
  | some (.words, values), some (.environment, _) => values.head?
  | _, some (_, values) => values.head?
  | some (_, values), none => values.head?
  | none, none => none

def has (ls : Levels) (p : Parameter) : Bool := ls.top.has p || ls.under.has p

def imageRequest (ls : Levels) : ImageRequest :=
  { binaries := ls.under.all .binaries
    tag := (ls.under.value? .tag).getD "dev"
    dockerUser := (ls.under.value? .dockerUser).getD "metallb"
    skipTests := ls.under.has .skipTests }

def releaseRequest (ls : Levels) : ReleaseRequest :=
  { version := ls.under.version.getD "", skipNotes := ls.under.has .skipNotes }

def request (ls : Levels) : Request :=
  match ls.subcommand with
  | .build => .build ls.imageRequest
  | .push => .push ls.imageRequest
  | .release => .release ls.releaseRequest

def arguments (ls : Levels) : Arguments :=
  { workspace := (ls.value? .workspace).getD "."
    config := ls.value? .config
    dryRun := ls.has .dryRun
    verbosity := { verbose := ls.has .verbose, quiet := ls.has .quiet }
    request := ls.request }

end Levels

def parse (env : Environment) (words : List String) : Except UsageFault Arguments :=
  (readLevels env words).map Levels.arguments

end CommandLine

end ImageRelease
