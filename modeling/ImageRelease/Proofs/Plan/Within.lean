import ImageRelease.Proofs.Plan.Run

/-! Plans that stay within bounds whatever they are answered: all commands that they can issue, notices
that they can tell and files that they can store are of some kind. What a runner preserves for the
commands of that kind a run preserves as a whole, if the plan stores nothing.
-/
namespace ImageRelease.Plan

inductive Step where
  | issue (command : Command)
  | tell (notice : Notice)
  | store (files : FileTree)

variable {α β σ : Type} {allowed wider : Step → Prop}

def Within (allowed : Step → Prop) : Plan α → Prop
  | done _ => True
  | issue c next => allowed (.issue c) ∧ ∀ reply, (next reply).Within allowed
  | tell n next => allowed (.tell n) ∧ next.Within allowed
  | look next => ∀ files, (next files).Within allowed
  | store files next => allowed (.store files) ∧ next.Within allowed

namespace Within

theorem pure (a : α) : Within allowed (pure a : Plan α) := trivial

theorem fail (failure : Failure) : Within allowed (fail failure : Plan α) := trivial

theorem ofExcept (result : Except Failure α) : Within allowed (ofExcept result) := trivial

theorem files : Within allowed files := fun _ => trivial

theorem notify {n : Notice} (permitted : allowed (.tell n)) : Within allowed (notify n) :=
  ⟨permitted, trivial⟩

theorem replaceFiles {tree : FileTree} (permitted : allowed (.store tree)) :
    Within allowed (replaceFiles tree) :=
  ⟨permitted, trivial⟩

theorem command {c : Command} (permitted : allowed (.issue c)) : Within allowed (command c) :=
  ⟨permitted, fun _ => trivial⟩

theorem perform {c : Command} (permitted : allowed (.issue c)) (reword : Failure → Failure) :
    Within allowed (perform c reword) :=
  ⟨permitted, fun _ => trivial⟩

theorem bind {p : Plan α} {f : α → Plan β} (first : p.Within allowed)
    (second : ∀ a, (f a).Within allowed) : (p >>= f).Within allowed := by
  change (p.andThen f).Within allowed
  induction p with
  | done result =>
    cases result with
    | error failure => trivial
    | ok a => exact second a
  | issue c next ih => exact ⟨first.1, fun reply => ih reply (first.2 reply)⟩
  | tell n next ih => exact ⟨first.1, ih first.2⟩
  | look next ih => exact fun files => ih files (first files)
  | store files next ih => exact ⟨first.1, ih first.2⟩

theorem mono {p : Plan α} (within : p.Within allowed) (widened : ∀ step, allowed step → wider step) :
    p.Within wider := by
  induction p with
  | done result => trivial
  | issue c next ih => exact ⟨widened _ within.1, fun reply => ih reply (within.2 reply)⟩
  | tell n next ih => exact ⟨widened _ within.1, ih within.2⟩
  | look next ih => exact fun files => ih files (within files)
  | store files next ih => exact ⟨widened _ within.1, ih within.2⟩

theorem commands_run {p : Plan α} (within : p.Within allowed) (runner : Runner σ) (s : Session σ) :
    ∀ c ∈ (p.run runner s).2.commands, c ∈ s.commands ∨ allowed (.issue c) := by
  induction p generalizing s with
  | done result => exact fun c issued => .inl issued
  | issue c next ih =>
    intro d issued
    rcases ih _ (within.2 _) _ d issued with earlier | permitted
    · rw [Session.commands, Session.exchanges_after, List.map_append, List.mem_append] at earlier
      rcases earlier with earlier | now
      · exact .inl earlier
      · obtain rfl : d = c := by simpa using now
        exact .inr within.1
    · exact .inr permitted
  | tell n next ih => exact ih within.2 (s.told n)
  | look next ih => exact ih s.files (within s.files) s
  | store files next ih => exact ih within.2 { s with files }

theorem notices_run {p : Plan α} {runner : Runner σ} (within : p.Within allowed)
    (shown : ∀ c files host, ∀ n ∈ (runner c files host).notices, allowed (.tell n)) (s : Session σ) :
    ∀ n ∈ (p.run runner s).2.notices, n ∈ s.notices ∨ allowed (.tell n) := by
  induction p generalizing s with
  | done result => exact fun n told => .inl told
  | issue c next ih =>
    intro n told
    rcases ih _ (within.2 _) _ n told with earlier | permitted
    · rw [Session.notices_after, List.mem_append] at earlier
      exact earlier.imp_right (shown c s.files s.host n)
    · exact .inr permitted
  | tell n next ih =>
    intro m told
    rcases ih within.2 (s.told n) m told with earlier | permitted
    · rw [Session.notices_told, List.mem_append, List.mem_singleton] at earlier
      rcases earlier with earlier | rfl
      · exact .inl earlier
      · exact .inr within.1
    · exact .inr permitted
  | look next ih => exact ih s.files (within s.files) s
  | store files next ih => exact ih within.2 { s with files }

/-- What allowed commands preserve of the files and of the runner's state, a plan that stores nothing
preserves too. -/
theorem invariant_run {p : Plan α} {holds : FileTree → σ → Prop} {runner : Runner σ}
    (within : p.Within allowed) (never : ∀ files, ¬allowed (.store files))
    (preserved : ∀ c files host, allowed (.issue c) → holds files host →
      holds (runner c files host).files (runner c files host).host)
    (s : Session σ) (initially : holds s.files s.host) :
    holds (p.run runner s).2.files (p.run runner s).2.host := by
  induction p generalizing s with
  | done result => exact initially
  | issue c next ih =>
    exact ih _ (within.2 _) _ (preserved c s.files s.host within.1 initially)
  | tell n next ih => exact ih within.2 _ initially
  | look next ih => exact ih s.files (within s.files) s initially
  | store files next ih => exact absurd within.1 (never files)

end Within

end ImageRelease.Plan
