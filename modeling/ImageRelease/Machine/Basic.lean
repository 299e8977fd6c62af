import ImageRelease.FileTree

/-!
Processes of a machine: how they end, what they write, and the world that they see and change. Time
passes only while a process sleeps.
-/
namespace ImageRelease.Machine

inductive Ending where
  | exited (code : Nat)
  | killed
  /-- Still running when its time was up. -/
  | outlived
deriving DecidableEq, Repr

structure Finished where
  ending : Ending
  stdout : ByteArray
  stderr : ByteArray

namespace Finished

def success (stdout : ByteArray) : Finished :=
  { ending := .exited 0, stdout, stderr := .empty }

def failure (code : Nat) (message : String) : Finished :=
  { ending := .exited code, stdout := .empty, stderr := message.toUTF8 }

end Finished

def nullDevice : String := "/dev/null"

structure Call where
  argv : List String
  directory : Location
deriving DecidableEq, Repr

structure World where
  /-- The files; the working directory is that of the process. -/
  files : FileTree
  calls : List Call
  /-- The seconds until the time of the process is up. -/
  remaining : Nat

def World.pass? (w : World) (seconds : Nat) : Option World :=
  if w.remaining ≤ seconds then none else some { w with remaining := w.remaining - seconds }

/-- A program takes its arguments, of which the first is the name it was started under, and its
standard input. -/
abbrev Program := List String → ByteArray → World → Finished × World

end ImageRelease.Machine
