import ImageRelease.Command.Runner

/-!
Plans: what to do, step by step, before it is known who answers the commands. A plan issues commands
and goes on with the replies, tells notices, and reads and writes files. Running it needs a runner and
gives its result together with everything that happened.
-/
namespace ImageRelease

inductive Plan (α : Type) : Type where
  | done (result : Except Failure α)
  | issue (command : Command) (next : Reply → Plan α)
  | tell (notice : Notice) (next : Plan α)
  | look (next : FileTree → Plan α)
  | store (files : FileTree) (next : Plan α)

namespace Plan

variable {α β : Type}

/-- Goes on with the value of a plan; a failure ends both. -/
def andThen : Plan α → (α → Plan β) → Plan β
  | done (.ok a), f => f a
  | done (.error failure), _ => done (.error failure)
  | issue c next, f => issue c fun reply => (next reply).andThen f
  | tell n next, f => tell n (next.andThen f)
  | look next, f => look fun files => (next files).andThen f
  | store files next, f => store files (next.andThen f)

instance : Monad Plan where
  pure a := done (.ok a)
  bind := andThen

def fail (failure : Failure) : Plan α := done (.error failure)

def ofExcept (result : Except Failure α) : Plan α := done result

def command (c : Command) : Plan Output := issue c fun reply => done reply.outcome

/-- Issues a command for its effect; its failure is seen through a function. -/
def perform (c : Command) (reword : Failure → Failure) : Plan Unit :=
  issue c fun reply => done ((reply.outcome.map fun _ => ()).mapError reword)

def notify (n : Notice) : Plan Unit := tell n (pure ())

def files : Plan FileTree := look pure

def replaceFiles (t : FileTree) : Plan Unit := store t (pure ())

end Plan

structure Session (σ : Type) where
  exchanges : List Exchange
  notices : List Notice
  files : FileTree
  host : σ

namespace Session

variable {σ : Type}

def fresh (files : FileTree) (host : σ) : Session σ :=
  { exchanges := [], notices := [], files, host }

def after (s : Session σ) (c : Command) (a : Answer σ) : Session σ :=
  { exchanges := s.exchanges ++ [⟨c, a.reply⟩]
    notices := s.notices ++ a.notices
    files := a.files
    host := a.host }

def told (s : Session σ) (n : Notice) : Session σ := { s with notices := s.notices ++ [n] }

def commands (s : Session σ) : List Command := s.exchanges.map Exchange.command

end Session

def Plan.run {α σ : Type} (runner : Runner σ) : Plan α → Session σ → Except Failure α × Session σ
  | done result, s => (result, s)
  | issue c next, s =>
    let a := runner c s.files s.host
    (next a.reply).run runner (s.after c a)
  | tell n next, s => next.run runner (s.told n)
  | look next, s => (next s.files).run runner s
  | store files next, s => next.run runner { s with files }

theorem Plan.run_andThen {α β σ : Type} (runner : Runner σ) (p : Plan α) (f : α → Plan β)
    (s : Session σ) :
    (p.andThen f).run runner s =
      match p.run runner s with
      | (.ok a, s) => (f a).run runner s
      | (.error failure, s) => (.error failure, s) := by
  induction p generalizing s with
  | done result => cases result <;> rfl
  | issue c next ih => exact ih _ _
  | tell n next ih => exact ih _
  | look next ih => exact ih _ _
  | store files next ih => exact ih _

end ImageRelease
