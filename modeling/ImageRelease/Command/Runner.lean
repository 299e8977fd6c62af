import ImageRelease.Command.Basic
import ImageRelease.Failure
import ImageRelease.FileTree
import ImageRelease.Notice.Basic

/-!
Runners answer commands. Besides its reply a runner may show notices, change files and change a state
of its own.
-/
namespace ImageRelease

structure Reply where
  outcome : Except Failure Output
  seconds : Nat

structure Answer (σ : Type) where
  reply : Reply
  notices : List Notice
  files : FileTree
  host : σ

abbrev Runner (σ : Type) := Command → FileTree → σ → Answer σ

structure Exchange where
  command : Command
  reply : Reply

end ImageRelease
