/-!
The layout of a project and the limits of its commands. Every value has a default.
-/
namespace ImageRelease

/-- Limits in seconds: for the long running commands, and for all others. -/
structure Limits where
  buildSeconds : Nat
  commandSeconds : Nat
deriving DecidableEq, Repr

def Limits.default : Limits := { buildSeconds := 1800, commandSeconds := 600 }

structure Config where
  dockerfileDir : String
  manifest : String
  versionFile : String
  releaseNotes : String
  mainBranch : String
  limits : Limits
deriving DecidableEq, Repr

inductive TextField where
  | dockerfileDir
  | manifest
  | versionFile
  | releaseNotes
  | mainBranch
deriving DecidableEq, Repr

namespace TextField

def all : List TextField := [dockerfileDir, manifest, versionFile, releaseNotes, mainBranch]

def key : TextField → String
  | dockerfileDir => "dockerfile_dir"
  | manifest => "manifest"
  | versionFile => "version_file"
  | releaseNotes => "release_notes"
  | mainBranch => "main_branch"

def ofKey? (key : String) : Option TextField := all.find? (·.key == key)

@[simp] theorem ofKey?_key (f : TextField) : ofKey? f.key = some f := by cases f <;> decide

theorem key_of_ofKey? {s : String} {f : TextField} (h : ofKey? s = some f) : f.key = s := by
  simpa using List.find?_some h

end TextField

/-- The values of the limits, in the order in which a list of them is read. -/
inductive LimitField where
  | buildSeconds
  | commandSeconds
deriving DecidableEq, Repr

namespace LimitField

def all : List LimitField := [buildSeconds, commandSeconds]

def key : LimitField → String
  | buildSeconds => "docker_build_secs"
  | commandSeconds => "command_secs"

def ofKey? (key : String) : Option LimitField := all.find? (·.key == key)

@[simp] theorem ofKey?_key (f : LimitField) : ofKey? f.key = some f := by cases f <;> decide

theorem key_of_ofKey? {s : String} {f : LimitField} (h : ofKey? s = some f) : f.key = s := by
  simpa using List.find?_some h

end LimitField

def Limits.get (l : Limits) : LimitField → Nat
  | .buildSeconds => l.buildSeconds
  | .commandSeconds => l.commandSeconds

def Limits.set (l : Limits) (f : LimitField) (n : Nat) : Limits :=
  match f with
  | .buildSeconds => { l with buildSeconds := n }
  | .commandSeconds => { l with commandSeconds := n }

namespace Config

def default : Config :=
  { dockerfileDir := "build/package"
    manifest := "deployments/metallb.yaml"
    versionFile := "internal/version/version.go"
    releaseNotes := "website/content/release-notes/_index.md"
    mainBranch := "main"
    limits := Limits.default }

def documentName : String := "lb-tasks.toml"

def limitsKey : String := "timeouts"

def get (c : Config) : TextField → String
  | .dockerfileDir => c.dockerfileDir
  | .manifest => c.manifest
  | .versionFile => c.versionFile
  | .releaseNotes => c.releaseNotes
  | .mainBranch => c.mainBranch

def set (c : Config) (f : TextField) (s : String) : Config :=
  match f with
  | .dockerfileDir => { c with dockerfileDir := s }
  | .manifest => { c with manifest := s }
  | .versionFile => { c with versionFile := s }
  | .releaseNotes => { c with releaseNotes := s }
  | .mainBranch => { c with mainBranch := s }

theorem get_set (c : Config) (f g : TextField) (s : String) :
    (c.set f s).get g = if g = f then s else c.get g := by
  cases f <;> cases g <;> rfl

@[simp] theorem limits_set (c : Config) (f : TextField) (s : String) :
    (c.set f s).limits = c.limits := by cases f <;> rfl

end Config

theorem Limits.get_set (l : Limits) (f g : LimitField) (n : Nat) :
    (l.set f n).get g = if g = f then n else l.get g := by
  cases f <;> cases g <;> rfl

end ImageRelease
