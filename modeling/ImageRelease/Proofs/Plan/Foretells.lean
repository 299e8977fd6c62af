import ImageRelease.Plan.Push
import ImageRelease.Plan.Release
import ImageRelease.Proofs.Plan.Trace

/-! When one plan foretells another. The two plans issue the same commands: they go on alike after the
same answer to a question, and after every other command the second one goes on without its output. So
a run of the first plan that ends well is told from the second one, whose changes are left out.
-/
namespace ImageRelease

deriving instance DecidableEq for Reply

def questions (trace : List Exchange) : List Exchange := trace.filter (·.command.capture)

/-- The questions of two traces have the same answers, as far as both traces go. -/
def AnsweredAlike (first second : List Exchange) : Prop :=
  ∀ pair ∈ (questions first).zip (questions second), pair.1.reply = pair.2.reply

/-- Every command but the questions is left out: it succeeds with no output. -/
def ChangesSkipped (trace : List Exchange) : Prop :=
  ∀ e ∈ trace, e.command.capture = false → e.reply.outcome = .ok (Output.ofText "")

instance (first second : List Exchange) : Decidable (AnsweredAlike first second) :=
  inferInstanceAs (Decidable (∀ pair ∈ _, _))

variable {c : Command} {first second : List Exchange} {reply other : Reply}

theorem questions_cons_of_captured (captured : c.capture = true) :
    questions (⟨c, reply⟩ :: first) = ⟨c, reply⟩ :: questions first :=
  List.filter_cons_of_pos captured

theorem questions_cons_of_uncaptured (uncaptured : c.capture = false) :
    questions (⟨c, reply⟩ :: first) = questions first :=
  List.filter_cons_of_neg (by simp [uncaptured])

theorem answeredAlike_cons_of_captured (captured : c.capture = true) :
    AnsweredAlike (⟨c, reply⟩ :: first) (⟨c, other⟩ :: second) ↔
      reply = other ∧ AnsweredAlike first second := by
  rw [AnsweredAlike, questions_cons_of_captured captured, questions_cons_of_captured captured,
    List.zip_cons_cons, List.forall_mem_cons]
  rfl

theorem answeredAlike_cons_of_uncaptured (uncaptured : c.capture = false) :
    AnsweredAlike (⟨c, reply⟩ :: first) (⟨c, other⟩ :: second) ↔ AnsweredAlike first second := by
  rw [AnsweredAlike, questions_cons_of_uncaptured uncaptured, questions_cons_of_uncaptured uncaptured]
  rfl

theorem changesSkipped_cons {e : Exchange} :
    ChangesSkipped (e :: first) ↔
      (e.command.capture = false → e.reply.outcome = .ok (Output.ofText "")) ∧ ChangesSkipped first :=
  List.forall_mem_cons

namespace Plan

variable {α β γ δ : Type} {R : α → β → Prop} {S : γ → δ → Prop}

inductive Foretells (R : α → β → Prop) : Plan α → Plan β → Prop where
  | done {a : α} {b : β} (related : R a b) : Foretells R (done (.ok a)) (done (.ok b))
  | failed (failure : Failure) (q : Plan β) : Foretells R (done (.error failure)) q
  | question {c : Command} {next : Reply → Plan α} {preview : Reply → Plan β}
      (captured : c.capture = true) (rest : ∀ reply, Foretells R (next reply) (preview reply)) :
      Foretells R (issue c next) (issue c preview)
  | change {c : Command} {next : Reply → Plan α} {preview : Reply → Plan β}
      (uncaptured : c.capture = false)
      (rest : ∀ reply skipped, skipped.outcome = .ok (Output.ofText "") →
        Foretells R (next reply) (preview skipped)) :
      Foretells R (issue c next) (issue c preview)
  | toldFirst {n : Notice} {p : Plan α} {q : Plan β} (rest : Foretells R p q) : Foretells R (tell n p) q
  | toldSecond {n : Notice} {p : Plan α} {q : Plan β} (rest : Foretells R p q) : Foretells R p (tell n q)
  | looked {next : FileTree → Plan α} {q : Plan β} (rest : ∀ files, Foretells R (next files) q) :
      Foretells R (look next) q
  | stored {files : FileTree} {p : Plan α} {q : Plan β} (rest : Foretells R p q) :
      Foretells R (store files p) q

namespace Foretells

theorem bind {p : Plan α} {q : Plan β} {f : α → Plan γ} {g : β → Plan δ} (foretold : Foretells R p q)
    (rest : ∀ a b, R a b → Foretells S (f a) (g b)) : Foretells S (p >>= f) (q >>= g) := by
  change Foretells S (p.andThen f) (q.andThen g)
  induction foretold with
  | done related => exact rest _ _ related
  | failed failure q => exact .failed failure _
  | question captured _ ih => exact .question captured ih
  | change uncaptured _ ih => exact .change uncaptured ih
  | toldFirst _ ih => exact .toldFirst ih
  | toldSecond _ ih => exact .toldSecond ih
  | looked _ ih => exact .looked ih
  | stored _ ih => exact .stored ih

theorem pure {a : α} {b : β} (related : R a b) :
    Foretells R (pure a : Plan α) (pure b : Plan β) :=
  .done related

theorem notify (n m : Notice) : Foretells Eq (notify n) (notify m) :=
  .toldFirst (.toldSecond (.done rfl))

theorem ofExcept (result : Except Failure α) : Foretells Eq (ofExcept result) (ofExcept result) := by
  cases result with
  | error failure => exact .failed failure _
  | ok a => exact .done rfl

theorem asked {c : Command} (captured : c.capture = true) : Foretells Eq (command c) (command c) :=
  .question captured fun reply => .ofExcept reply.outcome

/-- The second plan does not know the output of a command that it skips. -/
theorem command {c : Command} (uncaptured : c.capture = false) :
    Foretells (fun _ _ => True) (command c) (command c) := by
  refine .change uncaptured fun reply skipped succeeds => ?_
  rw [succeeds]
  cases reply.outcome with
  | error failure => exact .failed failure _
  | ok output => exact .done trivial

theorem perform {c : Command} (uncaptured : c.capture = false) (reword : Failure → Failure) :
    Foretells Eq (perform c reword) (perform c reword) := by
  refine .change uncaptured fun reply skipped succeeds => ?_
  rw [succeeds]
  cases reply.outcome with
  | error failure => exact .failed _ _
  | ok output => exact .done rfl

/-- If the first plan comes to a value, the second one issues the same commands and comes to a value as
well. The induction follows both plans; their traces have the same commands so far, and so they pair
the same questions. -/
theorem commands_eq {p : Plan α} {q : Plan β} (foretold : Foretells R p q) {a : α}
    {result : Except Failure β} (yielded : p.Yields first (.ok a)) (previewed : q.Yields second result)
    (alike : AnsweredAlike first second) (skipped : ChangesSkipped second) :
    (∃ b, result = .ok b ∧ R a b) ∧ second.map Exchange.command = first.map Exchange.command := by
  induction foretold generalizing first second with
  | done related =>
    obtain ⟨rfl, ended⟩ := yielded
    obtain ⟨rfl, rfl⟩ := previewed
    obtain rfl := Except.ok.inj ended
    exact ⟨⟨_, rfl, related⟩, rfl⟩
  | failed failure q =>
    have ended := yielded.2
    contradiction
  | @question c _ _ captured _ ih =>
    obtain ⟨reply, later, rfl, yielded⟩ := yielded
    obtain ⟨other, laterToo, rfl, previewed⟩ := previewed
    obtain ⟨rfl, later⟩ := (answeredAlike_cons_of_captured captured).mp alike
    obtain ⟨-, skipped⟩ := changesSkipped_cons.mp skipped
    obtain ⟨ended, same⟩ := ih reply yielded previewed later skipped
    exact ⟨ended, congrArg (c :: ·) same⟩
  | @change c _ _ uncaptured _ ih =>
    obtain ⟨reply, later, rfl, yielded⟩ := yielded
    obtain ⟨other, laterToo, rfl, previewed⟩ := previewed
    have alike := (answeredAlike_cons_of_uncaptured uncaptured).mp alike
    obtain ⟨succeeds, skipped⟩ := changesSkipped_cons.mp skipped
    obtain ⟨ended, same⟩ := ih reply other (succeeds uncaptured) yielded previewed alike skipped
    exact ⟨ended, congrArg (c :: ·) same⟩
  | toldFirst _ ih => exact ih yielded previewed alike skipped
  | toldSecond _ ih => exact ih yielded previewed alike skipped
  | looked _ ih =>
    obtain ⟨files, yielded⟩ := yielded
    exact ih files yielded previewed alike skipped
  | stored _ ih => exact ih yielded previewed alike skipped

end Foretells

variable (setup : Setup) (request : ImageRequest)

end Plan

end ImageRelease
