/-!
Notices: what a task tells its reader while it works. A notice has a kind and a message; how it looks
and whether it is shown is settled when it is printed.
-/
namespace ImageRelease

inductive Notice where
  | command (line : String)
  | success (message : String)
  | warning (message : String)
  | error (message : String)
  | detail (message : String)
  | section_ (title : String)
  /-- A sub-item of the notice before it. -/
  | item (message : String)
deriving DecidableEq, Repr

namespace Notice

def isError : Notice → Bool
  | error _ => true
  | _ => false

def isDetail : Notice → Bool
  | detail _ => true
  | _ => false

end Notice

structure Verbosity where
  verbose : Bool
  quiet : Bool
deriving DecidableEq, Repr

/-- Errors are always shown. Quiet hides all else, and details need to be asked for. -/
def Verbosity.shows (v : Verbosity) (n : Notice) : Bool :=
  n.isError || (!v.quiet && (!n.isDetail || v.verbose))

end ImageRelease
