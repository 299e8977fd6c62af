import ImageRelease.Git
import ImageRelease.Proofs.Plan.Run

/-! Where the failures of a plan come from. A plan only passes on failures of some kind when each of
them is the reply to the last command: then it is the runner's own, and the plan raises none of that
kind itself.
-/
namespace ImageRelease.Plan

variable {α β : Type} {kind : Failure → Prop}

/-- Every failure of a kind is the runner's reply to the last command. -/
def PassesOn (kind : Failure → Prop) (p : Plan α) : Prop :=
  ∀ (σ : Type) (runner : Runner σ) (s t : Session σ) (failure : Failure),
    p.run runner s = (.error failure, t) → kind failure →
      ∃ earlier last, t.exchanges = s.exchanges ++ earlier ++ [last] ∧
        last.reply.outcome = .error failure

namespace PassesOn

theorem notify (n : Notice) : PassesOn kind (notify n) := by
  intro σ runner s t failure ended
  simp at ended

theorem files : PassesOn kind files := by
  intro σ runner s t failure ended
  simp at ended

theorem replaceFiles (tree : FileTree) : PassesOn kind (replaceFiles tree) := by
  intro σ runner s t failure ended
  simp at ended

theorem ofExcept {result : Except Failure α} (other : ∀ failure, result = .error failure → ¬kind failure) :
    PassesOn kind (ofExcept result) := by
  intro σ runner s t failure ended ofKind
  simp only [run_ofExcept, Prod.mk.injEq] at ended
  exact absurd ofKind (other failure ended.1)

theorem command (c : Command) : PassesOn kind (command c) := by
  intro σ runner s t failure ended _
  simp only [run_command, Prod.mk.injEq] at ended
  obtain ⟨replied, rfl⟩ := ended
  exact ⟨[], ⟨c, _⟩, by simp, replied⟩

/-- A command whose failures are reworded passes on the kinds that the new words are not of. -/
theorem perform {c : Command} {reword : Failure → Failure}
    (kept : ∀ failure, kind (reword failure) → reword failure = failure) :
    PassesOn kind (perform c reword) := by
  intro σ runner s t failure ended ofKind
  simp only [run_perform, Prod.mk.injEq] at ended
  obtain ⟨replied, rfl⟩ := ended
  cases outcome : (runner c s.files s.host).reply.outcome with
  | ok output =>
    rw [outcome] at replied
    contradiction
  | error raised =>
    rw [outcome] at replied
    obtain rfl := Except.error.inj replied
    exact ⟨[], ⟨c, (runner c s.files s.host).reply⟩, by simp, by rw [outcome, kept raised ofKind]⟩

theorem bind {p : Plan α} {f : α → Plan β} (first : PassesOn kind p)
    (second : ∀ a, PassesOn kind (f a)) : PassesOn kind (p >>= f) := by
  intro σ runner s t failure ended ofKind
  rcases run_bind_error.mp ended with ended | ⟨a, mid, passed, ended⟩
  · exact first σ runner s t failure ended ofKind
  · obtain ⟨earlier, last, exchanged, replied⟩ := second a σ runner mid t failure ended ofKind
    have extended := congrArg (fun run => run.2.exchanges) (run_eq_join runner p s)
    rw [passed] at extended
    refine ⟨(p.run runner (Session.fresh s.files s.host)).2.exchanges ++ earlier, last, ?_, replied⟩
    rw [exchanged, extended]
    simp [Session.join]

end PassesOn

end ImageRelease.Plan
