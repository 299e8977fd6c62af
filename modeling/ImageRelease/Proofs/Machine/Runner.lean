import ImageRelease.Machine.Runner
import ImageRelease.Proofs.Plan.Muted
import ImageRelease.Proofs.Plan.Queries

/-! What the runner of a machine shows and starts. It shows the line of an echoed command and nothing else.
In a dry run commands that are not captured are left out; a question starts the installed tool of its
name or nothing, as no program of the system has that name.
-/
namespace ImageRelease.Machine

variable {m : Machine} {c : Command} {files : FileTree} {calls : List Call}

theorem notices_execute (m : Machine) (s : Settings) (c : Command) (files : FileTree)
    (calls : List Call) : (m.execute s c files calls).notices = [] := by
  unfold execute
  split
  · rfl
  · dsimp only
    split
    · rfl
    · rfl

theorem notices_runner (m : Machine) (s : Settings) (c : Command) (files : FileTree)
    (calls : List Call) : (m.runner s c files calls).notices = echoOf c := by
  simp only [runner]
  split
  · exact List.append_nil _
  · rw [notices_execute, List.append_nil]

theorem discreet_runner (m : Machine) (s : Settings) : (m.runner s).Discreet := by
  intro c files calls n shown
  rw [notices_runner, echoOf] at shown
  split at shown
  · obtain rfl := List.mem_singleton.mp shown
    rfl
  · contradiction

/-- Tools that are asked one of the questions leave the files as they find them. -/
def AsksSafely (m : Machine) : Prop :=
  ∀ name behavior, m.tools.lookup name = some (.program behavior) →
    ∀ args, name :: args ∈ queries → ∀ w, (behavior w args).files = w.files

theorem program_question (question : c.argv ∈ queries) : c.program = "docker" ∨ c.program = "git" := by
  simp only [queries, Command.argv, List.mem_cons, List.cons.injEq, List.not_mem_nil, or_false]
    at question
  rcases question with ⟨named, -⟩ | ⟨named, -⟩ | ⟨named, -⟩ | ⟨named, -⟩
  · exact .inl named
  · exact .inr named
  · exact .inr named
  · exact .inr named

theorem which?_of_absent {name : String} (plain : name.toList.contains Path.separator = false)
    (absent : m.systemProgram? name = none) : m.which? name = m.tool? name := by
  simp only [which?, plain, absent, Bool.false_eq_true, if_false, Option.map_none, ite_self]
  cases m.tool? name <;> rfl

theorem which?_question (m : Machine) (question : c.argv ∈ queries) :
    m.which? c.program = m.tool? c.program := by
  rcases program_question question with named | named
  · rw [named]
    exact which?_of_absent (by decide) rfl
  · rw [named]
    exact which?_of_absent (by decide) rfl

theorem tool?_eq_program {name found : String} {program : Program}
    (tool : m.tool? name = some (.program found program)) :
    found = name ∧ ∃ behavior, m.tools.lookup name = some (.program behavior) ∧
      program = Tool.run name behavior := by
  unfold tool? at tool
  split at tool
  · next behavior installed =>
    simp only [Option.some.injEq, Executable.program.injEq] at tool
    exact ⟨tool.1.symm, behavior, installed, tool.2.symm⟩
  · simp at tool
  · simp at tool
  · simp at tool

theorem prepare_ok {workspace : String} {e : Executable} {found : String} {program : Program}
    {l : Location} (prepared : prepare files workspace c e = .ok ((found, program), l)) :
    e = .program found program := by
  unfold prepare at prepared
  split at prepared
  · contradiction
  · split at prepared
    · contradiction
    · contradiction
    · obtain ⟨⟨rfl, rfl⟩, rfl⟩ := by simpa using prepared
      rfl

theorem execute_question (safe : m.AsksSafely) (question : c.argv ∈ queries) (s : Settings)
    (files : FileTree) (calls : List Call) :
    (m.execute s c files calls).files = files ∧
      ∀ call ∈ (m.execute s c files calls).host, call ∈ calls ∨ call.argv = c.argv := by
  unfold execute
  rw [which?_question m question]
  cases there : m.tool? c.program with
  | none => exact ⟨rfl, fun call earlier => .inl earlier⟩
  | some e =>
    cases prepared : prepare files s.workspace c e with
    | error reason =>
      simp only [prepared, true_and]
      exact fun call earlier => .inl earlier
    | ok start =>
      obtain ⟨⟨found, program⟩, l⟩ := start
      obtain rfl := prepare_ok prepared
      obtain ⟨rfl, behavior, installed, rfl⟩ := tool?_eq_program there
      simp only [prepared, runProgram]
      split
      · exact ⟨rfl, fun call earlier => .inl earlier⟩
      · have kept := safe _ behavior installed c.args question
        refine ⟨by simp [Tool.run, kept], fun call made => ?_⟩
        simp only [Tool.run, List.tail_cons, List.mem_append, List.mem_singleton] at made
        rcases made with earlier | rfl
        · exact .inl earlier
        · exact .inr rfl

/-- In a dry run a machine keeps the files and starts nothing but questions. -/
theorem runner_dryRun (safe : m.AsksSafely) {s : Settings} (dry : s.dryRun = true)
    (marked : c.Marked) (files : FileTree) (calls : List Call) :
    (m.runner s c files calls).files = files ∧
      ∀ call ∈ (m.runner s c files calls).host, call ∈ calls ∨ call.argv ∈ queries := by
  simp only [runner, dry, Bool.true_and]
  cases captured : c.capture with
  | false => exact ⟨rfl, fun call earlier => .inl earlier⟩
  | true =>
    have question := marked.captured.mp captured
    obtain ⟨kept, own⟩ := execute_question safe question s files calls
    refine ⟨kept, fun call made => ?_⟩
    rcases own call made with earlier | same
    · exact .inl earlier
    · exact .inr (same ▸ question)

end ImageRelease.Machine
