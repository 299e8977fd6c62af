import ImageRelease.Plan.Basic

/-! Running plans that are put together from smaller ones. A run of a composite plan is taken apart
into the runs of its parts, and a run adds to the session that it starts from without looking at
what was exchanged or told before. Nothing is assumed of the runner.
-/
namespace ImageRelease

variable {α β σ : Type}

instance decidableEqExcept {ε : Type} [DecidableEq ε] [DecidableEq α] : DecidableEq (Except ε α)
  | .ok a, .ok b => decidable_of_iff (a = b) (by simp)
  | .error e, .error f => decidable_of_iff (e = f) (by simp)
  | .ok _, .error _ => .isFalse nofun
  | .error _, .ok _ => .isFalse nofun

def Reply.Succeeds (r : Reply) : Prop := ∃ output, r.outcome = .ok output

namespace Plan

variable {runner : Runner σ} {p : Plan α} {f : α → Plan β} {s t : Session σ}

theorem run_bind (runner : Runner σ) (p : Plan α) (f : α → Plan β) (s : Session σ) :
    (p >>= f).run runner s =
      match p.run runner s with
      | (.ok a, s) => (f a).run runner s
      | (.error failure, s) => (.error failure, s) :=
  run_andThen runner p f s

theorem run_bind_ok {b : β} :
    (p >>= f).run runner s = (.ok b, t) ↔
      ∃ a mid, p.run runner s = (.ok a, mid) ∧ (f a).run runner mid = (.ok b, t) := by
  rw [run_bind]
  rcases p.run runner s with ⟨failure | a, mid⟩ <;> simp [and_assoc]

theorem run_bind_error {failure : Failure} :
    (p >>= f).run runner s = (.error failure, t) ↔
      p.run runner s = (.error failure, t) ∨
        ∃ a mid, p.run runner s = (.ok a, mid) ∧ (f a).run runner mid = (.error failure, t) := by
  rw [run_bind]
  rcases p.run runner s with ⟨failure | a, mid⟩ <;> simp [and_assoc]

theorem run_bind_of_ok {a : α} {mid : Session σ} (ran : p.run runner s = (.ok a, mid)) :
    (p >>= f).run runner s = (f a).run runner mid := by
  rw [run_bind, ran]

theorem run_bind_of_error {failure : Failure} {mid : Session σ}
    (ran : p.run runner s = (.error failure, mid)) :
    (p >>= f).run runner s = (.error failure, mid) := by
  rw [run_bind, ran]

@[simp] theorem run_pure (a : α) : (pure a : Plan α).run runner s = (.ok a, s) := rfl

@[simp] theorem run_ofExcept (result : Except Failure α) :
    (ofExcept result).run runner s = (result, s) := rfl

@[simp] theorem run_command (c : Command) :
    (command c).run runner s =
      ((runner c s.files s.host).reply.outcome, s.after c (runner c s.files s.host)) := rfl

@[simp] theorem run_perform (c : Command) (reword : Failure → Failure) :
    (perform c reword).run runner s =
      (((runner c s.files s.host).reply.outcome.map fun _ => ()).mapError reword,
        s.after c (runner c s.files s.host)) := rfl

@[simp] theorem run_notify (n : Notice) :
    (notify n).run runner s = (.ok (), s.told n) := rfl

@[simp] theorem run_files : (files : Plan FileTree).run runner s = (.ok s.files, s) := rfl

@[simp] theorem run_replaceFiles (tree : FileTree) :
    (replaceFiles tree).run runner s = (.ok (), { s with files := tree }) := rfl

end Plan

namespace Session

@[simp] theorem exchanges_fresh (files : FileTree) (host : σ) :
    (fresh files host).exchanges = [] := rfl

@[simp] theorem files_fresh (files : FileTree) (host : σ) : (fresh files host).files = files := rfl

@[simp] theorem host_fresh (files : FileTree) (host : σ) : (fresh files host).host = host := rfl

@[simp] theorem exchanges_after (s : Session σ) (c : Command) (a : Answer σ) :
    (s.after c a).exchanges = s.exchanges ++ [⟨c, a.reply⟩] := rfl

@[simp] theorem notices_after (s : Session σ) (c : Command) (a : Answer σ) :
    (s.after c a).notices = s.notices ++ a.notices := rfl

@[simp] theorem files_after (s : Session σ) (c : Command) (a : Answer σ) :
    (s.after c a).files = a.files := rfl

@[simp] theorem host_after (s : Session σ) (c : Command) (a : Answer σ) :
    (s.after c a).host = a.host := rfl

@[simp] theorem exchanges_told (s : Session σ) (n : Notice) :
    (s.told n).exchanges = s.exchanges := rfl

@[simp] theorem notices_told (s : Session σ) (n : Notice) :
    (s.told n).notices = s.notices ++ [n] := rfl

@[simp] theorem files_told (s : Session σ) (n : Notice) : (s.told n).files = s.files := rfl

@[simp] theorem host_told (s : Session σ) (n : Notice) : (s.told n).host = s.host := rfl

/-- One session, and then another that went on from where it ended. -/
def join (s t : Session σ) : Session σ :=
  { exchanges := s.exchanges ++ t.exchanges
    notices := s.notices ++ t.notices
    files := t.files
    host := t.host }

end Session

/-- A run only adds to its session: it does what it would have done from the same files and the same
state of the runner with nothing before. -/
theorem Plan.run_eq_join (runner : Runner σ) (p : Plan α) (s : Session σ) :
    p.run runner s =
      ((p.run runner (Session.fresh s.files s.host)).1,
        s.join (p.run runner (Session.fresh s.files s.host)).2) := by
  induction p generalizing s with
  | done result => simp [run, Session.join, Session.fresh]
  | issue c next ih =>
    simp only [run, Session.files_fresh, Session.host_fresh]
    rw [ih _ (s.after c (runner c s.files s.host)),
      ih _ ((Session.fresh s.files s.host).after c (runner c s.files s.host))]
    simp [Session.join, Session.after, Session.fresh]
  | tell n next ih =>
    simp only [run]
    rw [ih (s.told n), ih ((Session.fresh s.files s.host).told n)]
    simp [Session.join, Session.told, Session.fresh]
  | look next ih => exact ih s.files s
  | store files next ih =>
    simp only [run]
    rw [ih { s with files }, ih { Session.fresh s.files s.host with files }]
    simp [Session.join, Session.fresh]

theorem Plan.result_run (runner : Runner σ) (p : Plan α) (s : Session σ) :
    (p.run runner s).1 = (p.run runner (Session.fresh s.files s.host)).1 := by
  rw [run_eq_join]

theorem Plan.exchanges_run (runner : Runner σ) (p : Plan α) (s : Session σ) :
    (p.run runner s).2.exchanges =
      s.exchanges ++ (p.run runner (Session.fresh s.files s.host)).2.exchanges := by
  rw [run_eq_join]
  rfl

end ImageRelease
