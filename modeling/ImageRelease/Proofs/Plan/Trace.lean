import ImageRelease.Git
import ImageRelease.Proofs.Plan.Run

/-! What a plan can exchange, whoever answers it. A plan yields a trace and a result when some replies, and
some files wherever it looks at them, lead it there. Every run is such a case, and what a composite
plan yields is put together from what its parts yield.
-/
namespace ImageRelease.Plan

variable {α β σ : Type} {p : Plan α} {f : α → Plan β} {trace : List Exchange} {result : Except Failure α}

def Yields : Plan α → List Exchange → Except Failure α → Prop
  | done ended, trace, result => trace = [] ∧ result = ended
  | issue c next, trace, result =>
      ∃ reply later, trace = ⟨c, reply⟩ :: later ∧ (next reply).Yields later result
  | tell _ next, trace, result => next.Yields trace result
  | look next, trace, result => ∃ files, (next files).Yields trace result
  | store _ next, trace, result => next.Yields trace result

theorem yields_run (runner : Runner σ) (p : Plan α) (s : Session σ) :
    ∃ later, (p.run runner s).2.exchanges = s.exchanges ++ later ∧
      p.Yields later (p.run runner s).1 := by
  induction p generalizing s with
  | done ended => exact ⟨[], (List.append_nil _).symm, rfl, rfl⟩
  | issue c next ih =>
    obtain ⟨later, exchanged, yielded⟩ :=
      ih (runner c s.files s.host).reply (s.after c (runner c s.files s.host))
    refine ⟨⟨c, (runner c s.files s.host).reply⟩ :: later, ?_, _, later, rfl, yielded⟩
    have appended := exchanged
    rw [Session.exchanges_after, List.append_assoc] at appended
    exact appended
  | tell n next ih => exact ih (s.told n)
  | look next ih =>
    obtain ⟨later, exchanged, yielded⟩ := ih s.files s
    exact ⟨later, exchanged, s.files, yielded⟩
  | store files next ih => exact ih { s with files }

theorem yields_run_fresh (runner : Runner σ) (p : Plan α) (files : FileTree) (host : σ) :
    p.Yields (p.run runner (.fresh files host)).2.exchanges (p.run runner (.fresh files host)).1 := by
  obtain ⟨later, exchanged, yielded⟩ := yields_run runner p (.fresh files host)
  rw [Session.exchanges_fresh, List.nil_append] at exchanged
  rw [exchanged]
  exact yielded

theorem yields_bind {result : Except Failure β} (yielded : (p >>= f).Yields trace result) :
    (∃ failure, p.Yields trace (.error failure) ∧ result = .error failure) ∨
      ∃ a first second, trace = first ++ second ∧ p.Yields first (.ok a) ∧
        (f a).Yields second result := by
  change (p.andThen f).Yields trace result at yielded
  induction p generalizing trace with
  | done ended =>
    cases ended with
    | error failure =>
      obtain ⟨rfl, rfl⟩ := yielded
      exact .inl ⟨failure, ⟨rfl, rfl⟩, rfl⟩
    | ok a => exact .inr ⟨a, [], trace, rfl, ⟨rfl, rfl⟩, yielded⟩
  | issue c next ih =>
    obtain ⟨reply, later, rfl, yielded⟩ := yielded
    rcases ih reply yielded with ⟨failure, stopped, failed⟩ | ⟨a, first, second, rfl, went, rest⟩
    · exact .inl ⟨failure, ⟨reply, later, rfl, stopped⟩, failed⟩
    · exact .inr ⟨a, ⟨c, reply⟩ :: first, second, rfl, ⟨reply, first, rfl, went⟩, rest⟩
  | tell n next ih => exact ih yielded
  | look next ih =>
    obtain ⟨files, yielded⟩ := yielded
    rcases ih files yielded with ⟨failure, stopped, failed⟩ | ⟨a, first, second, split, went, rest⟩
    · exact .inl ⟨failure, ⟨files, stopped⟩, failed⟩
    · exact .inr ⟨a, first, second, split, ⟨files, went⟩, rest⟩
  | store files next ih => exact ih yielded

@[simp] theorem yields_pure {a : α} :
    (pure a : Plan α).Yields trace result ↔ trace = [] ∧ result = .ok a := Iff.rfl

@[simp] theorem yields_notify {n : Notice} {result : Except Failure Unit} :
    (notify n).Yields trace result ↔ trace = [] ∧ result = .ok () := Iff.rfl

theorem yields_notify_bind {n : Notice} {f : Unit → Plan α} :
    (notify n >>= f).Yields trace result ↔ (f ()).Yields trace result := Iff.rfl

/-- A command is answered and the plan goes on with its output, or everything ends there. -/
theorem yields_command_bind {c : Command} {f : Output → Plan α}
    (yielded : (command c >>= f).Yields trace result) :
    ∃ reply, (∃ failure, reply.outcome = .error failure ∧ trace = [⟨c, reply⟩] ∧
        result = .error failure) ∨
      ∃ output later, reply.outcome = .ok output ∧ trace = ⟨c, reply⟩ :: later ∧
        (f output).Yields later result := by
  obtain ⟨reply, later, rfl, yielded⟩ := yielded
  change ((done reply.outcome).andThen f).Yields later result at yielded
  refine ⟨reply, ?_⟩
  cases outcome : reply.outcome with
  | error failure =>
    rw [outcome] at yielded
    obtain ⟨rfl, rfl⟩ := yielded
    exact .inl ⟨failure, rfl, rfl, rfl⟩
  | ok output =>
    rw [outcome] at yielded
    exact .inr ⟨output, later, rfl, rfl, yielded⟩

theorem ask_bind {c : Command} {f : String → Plan α} :
    Git.ask c >>= f = command c >>= fun output => f (Text.trim output.stdout) := by
  apply congrArg (issue c)
  funext reply
  change ((done reply.outcome).andThen _).andThen f = (done reply.outcome).andThen _
  cases reply.outcome with
  | error failure => rfl
  | ok output => rfl

end ImageRelease.Plan
