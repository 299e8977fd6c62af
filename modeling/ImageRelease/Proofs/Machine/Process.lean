import ImageRelease.Machine.Runner
import ImageRelease.Proofs.Plan.FailStop

/-! The processes of a run. Each command is issued on an occasion, which settles whether it starts a process
and how that process ends; the command succeeds when its process does. So of the processes that are
started for a plan that stops at the first failure only the last one can fail. Started tools are recorded by
processes and by nothing else.
-/
namespace ImageRelease

variable {α σ : Type}

/-- The time at which a command is issued, by the files and the state that its runner then finds. -/
structure Occasion (σ : Type) where
  command : Command
  files : FileTree
  host : σ

def Occasion.exchange (runner : Runner σ) (o : Occasion σ) : Exchange :=
  ⟨o.command, (runner o.command o.files o.host).reply⟩

namespace Plan

def occasions (runner : Runner σ) : Plan α → FileTree → σ → List (Occasion σ)
  | done _, _, _ => []
  | issue c next, files, host =>
    let a := runner c files host
    ⟨c, files, host⟩ :: (next a.reply).occasions runner a.files a.host
  | tell _ next, files, host => next.occasions runner files host
  | look next, files, host => (next files).occasions runner files host
  | store files next, _, host => next.occasions runner files host

theorem exchanges_eq_occasions (runner : Runner σ) (p : Plan α) (s : Session σ) :
    (p.run runner s).2.exchanges =
      s.exchanges ++ (p.occasions runner s.files s.host).map (Occasion.exchange runner) := by
  induction p generalizing s with
  | done result => exact (List.append_nil _).symm
  | issue c next ih =>
    have rest := ih (runner c s.files s.host).reply (s.after c (runner c s.files s.host))
    rw [Session.exchanges_after, List.append_assoc] at rest
    exact rest
  | tell n next ih => exact ih (s.told n)
  | look next ih => exact ih s.files s
  | store files next ih => exact ih { s with files }

end Plan

namespace Machine

variable {m : Machine} {s : Settings} {c : Command} {files : FileTree} {calls : List Call}
  {finished : Finished} {w : World}

/-- What the process of a command comes to, if the command starts one. -/
def launch? (m : Machine) (s : Settings) (c : Command) (files : FileTree) (calls : List Call) :
    Option (Finished × World) :=
  if s.dryRun && !c.capture then none
  else
    match m.which? c.program with
    | none => none
    | some e =>
      match prepare files s.workspace c e with
      | .error _ => none
      | .ok ((name, program), l) => some (runProgram name program l c (s.limitOf c) files calls)

/-- The seconds that a process takes; one that outlives its limit takes all of it. -/
def secondsOf (limit : Nat) (finished : Finished) (w : World) : Nat :=
  if finished.ending = .outlived then limit else limit - w.remaining

theorem runner_of_launched (launched : m.launch? s c files calls = some (finished, w)) :
    m.runner s c files calls =
      { reply := ⟨outcomeOf c (s.limitOf c) finished, secondsOf (s.limitOf c) finished w⟩
        notices := echoOf c
        files := { w.files with workingDirectory := files.workingDirectory }
        host := w.calls } := by
  unfold launch? at launched
  unfold runner execute
  split at launched
  · contradiction
  · next runs =>
    rw [if_neg runs]
    cases found : m.which? c.program with
    | none => simp [found] at launched
    | some e =>
      cases prepared : prepare files s.workspace c e with
      | error reason => simp [found, prepared] at launched
      | ok start =>
        simp only [found, prepared, Option.some.injEq] at launched
        simp only [prepared, launched, List.append_nil]
        rfl

theorem runner_of_not_launched (unlaunched : m.launch? s c files calls = none) :
    (m.runner s c files calls).files = files ∧ (m.runner s c files calls).host = calls := by
  unfold launch? at unlaunched
  unfold runner execute
  split at unlaunched
  · next skips =>
    rw [if_pos skips]
    exact ⟨rfl, rfl⟩
  · next runs =>
    rw [if_neg runs]
    cases found : m.which? c.program with
    | none => exact ⟨rfl, rfl⟩
    | some e =>
      cases prepared : prepare files s.workspace c e with
      | error reason => simp only [prepared, and_self]
      | ok start => simp [found, prepared] at unlaunched

theorem outcomeOf_succeeds_iff {limit : Nat} :
    (∃ output, outcomeOf c limit finished = .ok output) ↔ finished.ending = .exited 0 := by
  unfold outcomeOf outputOf
  cases finished.ending with
  | exited code => by_cases zero : code = 0 <;> simp [zero]
  | killed => simp
  | outlived => simp

structure Process where
  command : Command
  ending : Ending
  seconds : Nat
deriving DecidableEq

/-- The process ended with status zero within its limit; the question for the docker daemon has the limit of
its check too. -/
def Process.Succeeded (p : Process) : Prop :=
  p.ending = .exited 0 ∧ (p.command = Docker.info → p.seconds ≤ Docker.daemonPatience)

instance (p : Process) : Decidable p.Succeeded :=
  inferInstanceAs (Decidable (_ ∧ (_ → _)))

def process? (m : Machine) (s : Settings) (o : Occasion (List Call)) : Option Process :=
  (m.launch? s o.command o.files o.host).map fun (finished, w) =>
    { command := o.command
      ending := finished.ending
      seconds := secondsOf (s.limitOf o.command) finished w }

theorem succeeded_iff_of_process {o : Occasion (List Call)} {p : Process}
    (started : m.process? s o = some p) : (o.exchange (m.runner s)).Succeeded ↔ p.Succeeded := by
  obtain ⟨⟨finished, w⟩, launched, rfl⟩ := Option.map_eq_some_iff.mp started
  rw [Exchange.Succeeded, Occasion.exchange, runner_of_launched launched, Reply.Succeeds,
    outcomeOf_succeeds_iff]
  rfl

theorem mem_dropLast_filterMap {β γ : Type} {f : β → Option γ} {xs : List β} {y : γ}
    (member : y ∈ (xs.filterMap f).dropLast) : ∃ x ∈ xs.dropLast, f x = some y := by
  induction xs with
  | nil => contradiction
  | cons x xs ih =>
    cases mapped : f x with
    | none =>
      rw [List.filterMap_cons_none mapped] at member
      obtain ⟨z, earlier, found⟩ := ih member
      have nonempty : xs ≠ [] := by
        rintro rfl
        contradiction
      rw [List.dropLast_cons_of_ne_nil nonempty]
      exact ⟨z, List.mem_cons_of_mem _ earlier, found⟩
    | some first =>
      rw [List.filterMap_cons_some mapped] at member
      have nonempty : xs ≠ [] := by
        rintro rfl
        simp at member
      rw [List.dropLast_cons_of_ne_nil nonempty]
      by_cases last : xs.filterMap f = []
      · simp [last] at member
      · rw [List.dropLast_cons_of_ne_nil last] at member
        rcases List.mem_cons.mp member with rfl | later
        · exact ⟨x, List.mem_cons_self, mapped⟩
        · obtain ⟨z, earlier, found⟩ := ih later
          exact ⟨z, List.mem_cons_of_mem _ earlier, found⟩

def processes (m : Machine) (s : Settings) (p : Plan α) (files : FileTree) : List Process :=
  (p.occasions (m.runner s) files []).filterMap (m.process? s)

/-- The record of started tools is handed on from one occasion to the next, and only a process adds to it. -/
inductive Recorded (m : Machine) (s : Settings) :
    List Call → List (Occasion (List Call)) → List Call → Prop where
  | done (calls : List Call) : Recorded m s calls [] calls
  | idle {o later left} (unlaunched : m.launch? s o.command o.files o.host = none)
      (rest : Recorded m s o.host later left) : Recorded m s o.host (o :: later) left
  | started {o later left finished w}
      (launched : m.launch? s o.command o.files o.host = some (finished, w))
      (rest : Recorded m s w.calls later left) : Recorded m s o.host (o :: later) left

theorem Recorded.issued {o : Occasion (List Call)} {later : List (Occasion (List Call))} {left : List Call}
    (rest : m.Recorded s (m.runner s o.command o.files o.host).host later left) :
    m.Recorded s o.host (o :: later) left := by
  cases launched : m.launch? s o.command o.files o.host with
  | none =>
    rw [(runner_of_not_launched launched).2] at rest
    exact .idle launched rest
  | some process =>
    rw [runner_of_launched launched] at rest
    exact .started launched rest

theorem recorded_run (m : Machine) (s : Settings) (p : Plan α) (t : Session (List Call)) :
    m.Recorded s t.host (p.occasions (m.runner s) t.files t.host) (p.run (m.runner s) t).2.host := by
  induction p generalizing t with
  | done result => exact .done t.host
  | issue c next ih =>
    have rest := ih (m.runner s c t.files t.host).reply (t.after c (m.runner s c t.files t.host))
    exact .issued (o := ⟨c, t.files, t.host⟩) rest
  | tell n next ih => exact ih (t.told n)
  | look next ih => exact ih t.files t
  | store files next ih => exact ih { t with files }

theorem Recorded.eq_of_no_process {os : List (Occasion (List Call))} {left : List Call}
    (recorded : m.Recorded s calls os left) (none : ∀ o ∈ os, m.process? s o = none) : left = calls := by
  induction recorded with
  | done calls => rfl
  | idle unlaunched rest ih => exact ih (List.forall_mem_cons.mp none).2
  | started launched rest ih =>
    have unstarted := (List.forall_mem_cons.mp none).1
    simp [process?, launched] at unstarted

/-- Only the last process of a plan that stops at the first failure can fail, and none does if the plan ends
well. -/
theorem succeeded_processes {p : Plan α} {mayRaise : Prop} (stops : p.FailStop mayRaise) (m : Machine)
    (s : Settings) (files : FileTree) :
    (∀ q ∈ (m.processes s p files).dropLast, q.Succeeded) ∧
      ∀ a, (p.run (m.runner s) (.fresh files [])).1 = .ok a → ∀ q ∈ m.processes s p files, q.Succeeded := by
  obtain ⟨later, exchanged, before, whole, -⟩ := stops.run (m.runner s) (.fresh files [])
  rw [Plan.exchanges_eq_occasions, List.append_cancel_left_eq] at exchanged
  subst exchanged
  constructor
  · intro q earlier
    obtain ⟨o, issued, started⟩ := mem_dropLast_filterMap earlier
    apply (succeeded_iff_of_process started).mp
    apply before
    rw [← List.map_dropLast]
    exact List.mem_map_of_mem issued
  · intro a ended q member
    obtain ⟨o, issued, started⟩ := List.mem_filterMap.mp member
    apply (succeeded_iff_of_process started).mp
    exact whole a ended _ (List.mem_map_of_mem issued)

end Machine

end ImageRelease
