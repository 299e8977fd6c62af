import ImageRelease.Proofs.Plan.Run

/-! What is told has no influence on what is done. A run with a runner that shows nothing comes to the same
result by the same exchanges, and its notices are the ones that the plan itself tells.
-/
namespace ImageRelease

variable {α σ : Type}

def Runner.muted (runner : Runner σ) : Runner σ := fun c files host =>
  { runner c files host with notices := [] }

/-- Two sessions differ in nothing but what was told. -/
structure Session.Alike (s t : Session σ) : Prop where
  exchanges : s.exchanges = t.exchanges
  files : s.files = t.files
  host : s.host = t.host

theorem Plan.run_alike {runner other : Runner σ} (same : runner.muted = other.muted) (p : Plan α)
    {s t : Session σ} (alike : s.Alike t) :
    (p.run runner s).1 = (p.run other t).1 ∧ (p.run runner s).2.Alike (p.run other t).2 := by
  induction p generalizing s t with
  | done result => exact ⟨rfl, alike⟩
  | issue c next ih =>
    have answered : runner.muted c s.files s.host = other.muted c t.files t.host := by
      rw [same, alike.files, alike.host]
    have replied : (runner c s.files s.host).reply = (other c t.files t.host).reply :=
      (congrArg Answer.reply answered :)
    have afterwards : (s.after c (runner c s.files s.host)).Alike (t.after c (other c t.files t.host)) :=
      ⟨by simp [alike.exchanges, replied], (congrArg Answer.files answered :),
        (congrArg Answer.host answered :)⟩
    simp only [run, replied]
    exact ih _ afterwards
  | tell n next ih => exact ih (s := s.told n) (t := t.told n) ⟨alike.exchanges, alike.files, alike.host⟩
  | look next ih =>
    simp only [run, alike.files]
    exact ih _ alike
  | store files next ih =>
    exact ih (s := { s with files }) (t := { t with files }) ⟨alike.exchanges, rfl, alike.host⟩

theorem Plan.run_muted (runner : Runner σ) (p : Plan α) (s : Session σ) :
    (p.run runner.muted s).1 = (p.run runner s).1 ∧
      (p.run runner.muted s).2.Alike (p.run runner s).2 := by
  have same : runner.muted.muted = runner.muted := rfl
  exact run_alike same p ⟨rfl, rfl, rfl⟩

def Notice.isSuccess : Notice → Bool
  | success _ => true
  | _ => false

/-- Notices of a kind without details are all shown, unless the reader wants quiet. -/
theorem Verbosity.filter_shown {v : Verbosity} {kind : Notice → Bool} (loud : v.quiet = false)
    (plain : ∀ n, kind n = true → n.isDetail = false) (notices : List Notice) :
    (notices.filter v.shows).filter kind = notices.filter kind := by
  rw [List.filter_filter]
  apply List.filter_congr
  intro n _
  cases ofKind : kind n with
  | false => rfl
  | true => simp [shows, loud, plain n ofKind]

theorem Verbosity.filter_isSuccess (v : Verbosity) (loud : v.quiet = false) (notices : List Notice) :
    (notices.filter v.shows).filter Notice.isSuccess = notices.filter Notice.isSuccess := by
  apply filter_shown loud
  intro n success
  cases n with
  | detail message => contradiction
  | _ => rfl

def Runner.Discreet (runner : Runner σ) : Prop :=
  ∀ c files host, ∀ n ∈ (runner c files host).notices, n.isSuccess = false

theorem Runner.discreet_muted (runner : Runner σ) : runner.muted.Discreet := by
  intro c files host n shown
  contradiction

end ImageRelease
