import ImageRelease.Docker
import ImageRelease.Proofs.Plan.Run

/-! Plans that stop at the first command that does not succeed. A run of such a plan succeeds in all its
commands but perhaps the last one, and if the plan raises no failures of its own it ends well as soon
as all its commands succeed.
-/
namespace ImageRelease

/-- The command was carried out, and in time if it asked for the docker daemon. -/
def Exchange.Succeeded (e : Exchange) : Prop :=
  e.reply.Succeeds ∧ (e.command = Docker.info → e.reply.seconds ≤ Docker.daemonPatience)

instance (r : Reply) : Decidable r.Succeeds :=
  match outcome : r.outcome with
  | .ok output => .isTrue ⟨output, outcome⟩
  | .error _ => .isFalse fun ⟨_, succeeded⟩ => nomatch outcome.symm.trans succeeded

instance (e : Exchange) : Decidable e.Succeeded :=
  inferInstanceAs (Decidable (_ ∧ (_ → _)))

namespace Plan

variable {α β σ : Type} {mayRaise : Prop}

/-- A plan ends with a failure after a command that did not succeed, and otherwise only if it may raise
failures of its own. -/
def FailStop (mayRaise : Prop) : Plan α → Prop
  | done (.ok _) => True
  | done (.error _) => mayRaise
  | issue c next => ∀ reply,
      (Exchange.Succeeded ⟨c, reply⟩ → (next reply).FailStop mayRaise) ∧
        (¬Exchange.Succeeded ⟨c, reply⟩ → ∃ failure, next reply = fail failure)
  | tell _ next => next.FailStop mayRaise
  | look next => ∀ files, (next files).FailStop mayRaise
  | store _ next => next.FailStop mayRaise

namespace FailStop

theorem pure (a : α) : FailStop mayRaise (pure a : Plan α) := trivial

theorem notify (n : Notice) : FailStop mayRaise (notify n) := trivial

theorem ofExcept {a : α} {result : Except Failure α} (known : result = .ok a) :
    FailStop mayRaise (ofExcept result) := by
  subst known
  trivial

theorem files : FailStop mayRaise files := fun _ => trivial

theorem replaceFiles (tree : FileTree) : FailStop mayRaise (replaceFiles tree) := trivial

theorem raised (result : Except Failure α) : FailStop True (Plan.ofExcept result) := by
  cases result with
  | ok a => trivial
  | error failure => trivial

theorem answered {c : Command} {next : Reply → Plan α} (other : c ≠ Docker.info)
    (goesOn : ∀ reply output, reply.outcome = .ok output → (next reply).FailStop mayRaise)
    (stops : ∀ reply failure, reply.outcome = .error failure → ∃ raised, next reply = fail raised) :
    FailStop mayRaise (Plan.issue c next) := by
  intro reply
  have succeeded_iff : Exchange.Succeeded ⟨c, reply⟩ ↔ reply.Succeeds := by
    simp [Exchange.Succeeded, other]
  rw [succeeded_iff, Reply.Succeeds]
  cases replied : reply.outcome with
  | ok output => exact ⟨fun _ => goesOn reply output replied, fun refused => absurd ⟨output, rfl⟩ refused⟩
  | error failure => exact ⟨fun ⟨_, succeeded⟩ => by contradiction, fun _ => stops reply failure replied⟩

theorem command {c : Command} (other : c ≠ Docker.info) : FailStop mayRaise (command c) := by
  apply answered other
  · intro reply output replied
    rw [replied]
    trivial
  · intro reply failure replied
    exact ⟨failure, congrArg done replied⟩

theorem perform {c : Command} (other : c ≠ Docker.info) (reword : Failure → Failure) :
    FailStop mayRaise (perform c reword) := by
  apply answered other
  · intro reply output replied
    rw [replied]
    trivial
  · intro reply failure replied
    refine ⟨reword failure, ?_⟩
    rw [replied]
    rfl

theorem checkDaemon : FailStop mayRaise Docker.checkDaemon := by
  intro reply
  have succeeded_iff : Exchange.Succeeded ⟨Docker.info, reply⟩ ↔
      reply.Succeeds ∧ reply.seconds ≤ Docker.daemonPatience := by
    simp [Exchange.Succeeded]
  rw [succeeded_iff, Reply.Succeeds]
  simp only [Docker.daemonVerdict]
  by_cases late : Docker.daemonPatience < reply.seconds
  · rw [if_pos late]
    exact ⟨fun ⟨_, timely⟩ => absurd late (Nat.not_lt.mpr timely), fun _ => ⟨_, rfl⟩⟩
  · rw [if_neg late]
    cases reply.outcome with
    | ok output =>
      exact ⟨fun _ => trivial, fun refused => absurd ⟨⟨output, rfl⟩, Nat.not_lt.mp late⟩ refused⟩
    | error failure => exact ⟨fun ⟨⟨_, replied⟩, _⟩ => by contradiction, fun _ => ⟨_, rfl⟩⟩

theorem bind {p : Plan α} {f : α → Plan β} (first : p.FailStop mayRaise)
    (second : ∀ a, (f a).FailStop mayRaise) : (p >>= f).FailStop mayRaise := by
  change (p.andThen f).FailStop mayRaise
  induction p with
  | done result =>
    cases result with
    | error failure => exact first
    | ok a => exact second a
  | issue c next ih =>
    refine fun reply => ⟨fun succeeded => ih reply ((first reply).1 succeeded), fun refused => ?_⟩
    obtain ⟨failure, stopped⟩ := (first reply).2 refused
    exact ⟨failure, congrArg (andThen · f) stopped⟩
  | tell n next ih => exact ih first
  | look next ih => exact fun files => ih files (first files)
  | store files next ih => exact ih first

/-- All commands of a run succeed but perhaps the last, and all of them when it ends well. -/
theorem run {p : Plan α} (stops : p.FailStop mayRaise) (runner : Runner σ) (s : Session σ) :
    ∃ later, (p.run runner s).2.exchanges = s.exchanges ++ later ∧
      (∀ e ∈ later.dropLast, e.Succeeded) ∧
      (∀ a, (p.run runner s).1 = .ok a → ∀ e ∈ later, e.Succeeded) ∧
      ((∀ e ∈ later, e.Succeeded) → mayRaise ∨ ∃ a, (p.run runner s).1 = .ok a) := by
  induction p generalizing s with
  | done result =>
    refine ⟨[], by simp [Plan.run], by simp, by simp, fun _ => ?_⟩
    cases result with
    | ok a => exact .inr ⟨a, rfl⟩
    | error failure => exact .inl stops
  | issue c next ih =>
    let a := runner c s.files s.host
    by_cases succeeded : Exchange.Succeeded ⟨c, a.reply⟩
    · obtain ⟨later, exchanged, before, whole, ended⟩ :=
        ih a.reply ((stops a.reply).1 succeeded) (s.after c a)
      refine ⟨⟨c, a.reply⟩ :: later, by simpa [Plan.run, a] using exchanged, fun e member => ?_,
        fun b done e member => ?_, fun all => ?_⟩
      · cases later with
        | nil => simp at member
        | cons next rest =>
          rcases List.mem_cons.mp member with rfl | member
          · exact succeeded
          · exact before e member
      · rcases List.mem_cons.mp member with rfl | member
        · exact succeeded
        · exact whole b done e member
      · exact ended fun e member => all e (List.mem_cons_of_mem _ member)
    · -- Nothing comes after a command that did not succeed, so it is the last one.
      obtain ⟨failure, stopped⟩ := (stops a.reply).2 succeeded
      have ran : (issue c next).run runner s = (.error failure, s.after c a) := by
        simp only [Plan.run, stopped, a]
        rfl
      rw [ran]
      refine ⟨[⟨c, a.reply⟩], rfl, by simp, by simp, fun all => ?_⟩
      exact absurd (all _ List.mem_cons_self) succeeded
  | tell n next ih => exact ih stops (s.told n)
  | look next ih => exact ih s.files (stops s.files) s
  | store files next ih => exact ih stops { s with files }

end FailStop

end Plan

end ImageRelease
