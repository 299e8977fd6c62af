import ImageRelease.Notice.Print
import ImageRelease.Proofs.Machine.Process
import ImageRelease.Proofs.Machine.Runner

/-! Where the output of a process goes. All of it goes into the reply, whether or not the command is captured, and
none of it is shown; a machine tells captured commands from others in a dry run only.
-/
namespace ImageRelease.Machine

variable {m : Machine} {s : Settings} {c : Command} {files : FileTree} {calls : List Call}
  {finished : Finished} {w : World}

theorem runner_capture (wet : s.dryRun = false) (capture : Bool) (files : FileTree) (calls : List Call) :
    m.runner s { c with capture } files calls = m.runner s c files calls := by
  have executed : m.execute s { c with capture } files calls = m.execute s c files calls := rfl
  have echoed : echoOf { c with capture } = echoOf c := rfl
  simp only [runner, wet, Bool.false_and, Bool.false_eq_true, if_false, executed, echoed]

theorem outcomeOf_exited (c : Command) (limit : Nat) (well : finished.ending = .exited 0) :
    outcomeOf c limit finished =
      .ok ⟨some 0, Text.decodeLossy finished.stdout, Text.decodeLossy finished.stderr⟩ := by
  have inTime : finished.ending ≠ .outlived := by simp [well]
  have output : outputOf finished =
      ⟨some 0, Text.decodeLossy finished.stdout, Text.decodeLossy finished.stderr⟩ := by
    rw [outputOf, well]
  rw [outcomeOf, if_neg inTime, output]
  rfl

/-- What a command is meant to do with the output of its process: pass it on to the reader and answer nothing, or, if
the command is captured, answer with it and show nothing of it. -/
structure Delivers (p : Palette) (v : Verbosity) (c : Command) (finished : Finished) (a : Answer (List Call)) :
    Prop where
  streamed : c.capture = false →
    printOut p v a.notices = printOut p v (echoOf c) ++ Text.decodeLossy finished.stdout ∧
      printErr p v a.notices = printErr p v (echoOf c) ++ Text.decodeLossy finished.stderr ∧
      a.reply.outcome = .ok (Output.ofText "")
  captured : c.capture = true →
    a.notices = echoOf c ∧ ∃ output, a.reply.outcome = .ok output ∧ output.stdout = Text.decodeLossy finished.stdout

/-- The answer to a command whose process ends well holds the whole output of the process, and nothing but the line of
an echoed command is shown. Except in a dry run it is the same answer for a captured command and for one that is not.
So a captured command delivers as it is meant to, and one that is not captured does if and only if its process writes
nothing. -/
theorem output_collected (launched : m.launch? s c files calls = some (finished, w))
    (well : finished.ending = .exited 0) :
    let a := m.runner s c files calls
    a.reply.outcome = .ok ⟨some 0, Text.decodeLossy finished.stdout, Text.decodeLossy finished.stderr⟩ ∧
      a.notices = echoOf c ∧
      (s.dryRun = false → ∀ capture, m.runner s { c with capture } files calls = a) ∧
      ∀ p v, Delivers p v c finished a ↔
        c.capture = true ∨ Text.decodeLossy finished.stdout = "" ∧ Text.decodeLossy finished.stderr = "" := by
  intro a
  have reply : a.reply = ⟨outcomeOf c (s.limitOf c) finished, secondsOf (s.limitOf c) finished w⟩ :=
    congrArg Answer.reply (runner_of_launched launched)
  have replied : a.reply.outcome =
      .ok ⟨some 0, Text.decodeLossy finished.stdout, Text.decodeLossy finished.stderr⟩ := by
    rw [reply]
    exact outcomeOf_exited c _ well
  have shown : a.notices = echoOf c := notices_runner m s c files calls
  refine ⟨replied, shown, fun wet capture => runner_capture wet capture files calls, fun p v => ⟨?_, ?_⟩⟩
  · intro delivers
    cases captured : c.capture with
    | true => exact .inl rfl
    | false =>
      obtain ⟨-, -, silent⟩ := delivers.streamed captured
      have same := Except.ok.inj (replied.symm.trans silent)
      exact .inr ⟨congrArg Output.stdout same, congrArg Output.stderr same⟩
  · intro harmless
    refine ⟨fun uncaptured => ?_, fun _ => ⟨shown, _, replied, rfl⟩⟩
    obtain ⟨out, err⟩ := harmless.resolve_left (by simp [uncaptured])
    rw [replied, shown, out, err]
    exact ⟨(String.append_empty).symm, (String.append_empty).symm, rfl⟩

def systemMachine : Machine := { tools := [], hasUtilities := true }

def unreadableMachine : Machine :=
  { tools :=
      [("docker", .rules
        [{ arguments := "info --format \x7b\x7b.ServerVersion\x7d\x7d"
           stdout := ⟨#[0x32, 0xFF, 0x0A]⟩
           stderr := "no swap".toUTF8
           ending := .exited 0 }])]
    hasUtilities := true }

def bareTree : FileTree := { workingDirectory := [], entries := [] }

def settings (dryRun : Bool) : Settings := { workspace := ".", limits := Limits.default, dryRun }

/-- A question is answered in a dry run too, with a replacement character where its output is no text. -/
theorem output_collected_unreadable :
    ∃ finished w, unreadableMachine.launch? (settings true) Docker.info bareTree [] = some (finished, w) ∧
      finished.ending = .exited 0 ∧
      (unreadableMachine.runner (settings true) Docker.info bareTree []).reply.outcome =
        .ok ⟨some 0, "2\uFFFD\n", "no swap"⟩ ∧
      Delivers .plain ⟨false, false⟩ Docker.info finished
        (unreadableMachine.runner (settings true) Docker.info bareTree []) := by
  have started : (unreadableMachine.launch? (settings true) Docker.info bareTree []).map (fun launched =>
      (launched.1.ending, Text.decodeLossy launched.1.stdout, Text.decodeLossy launched.1.stderr)) =
        some (.exited 0, "2\uFFFD\n", "no swap") := by decide +kernel
  obtain ⟨⟨finished, w⟩, launched, ended⟩ := Option.map_eq_some_iff.mp started
  obtain ⟨well, out, err⟩ := by simpa using ended
  obtain ⟨replied, -, -, delivers⟩ := output_collected launched well
  rw [out, err] at replied
  exact ⟨finished, w, launched, well, replied, (delivers _ _).mpr (.inl rfl)⟩

def greeting : Command := Command.of "echo" ["hi"]

/-- A command that is not captured writes a line, which is answered and not shown. -/
theorem output_kept_back :
    ∃ finished w, systemMachine.launch? (settings false) greeting bareTree [] = some (finished, w) ∧
      finished.ending = .exited 0 ∧ greeting.capture = false ∧ Text.decodeLossy finished.stdout = "hi\n" ∧
      (systemMachine.runner (settings false) greeting bareTree []).reply.outcome = .ok (Output.ofText "hi\n") ∧
      printOut .plain ⟨true, false⟩ (systemMachine.runner (settings false) greeting bareTree []).notices = "" ∧
      ¬Delivers .plain ⟨true, false⟩ greeting finished
        (systemMachine.runner (settings false) greeting bareTree []) := by
  have started : (systemMachine.launch? (settings false) greeting bareTree []).map (fun launched =>
      (launched.1.ending, Text.decodeLossy launched.1.stdout)) = some (.exited 0, "hi\n") := by decide +kernel
  obtain ⟨⟨finished, w⟩, launched, ended⟩ := Option.map_eq_some_iff.mp started
  obtain ⟨well, out⟩ := by simpa using ended
  have replied : (systemMachine.runner (settings false) greeting bareTree []).reply.outcome =
      .ok (Output.ofText "hi\n") := by decide +kernel
  have silent : printOut .plain ⟨true, false⟩ (systemMachine.runner (settings false) greeting bareTree []).notices =
      "" := by decide +kernel
  refine ⟨finished, w, launched, well, rfl, out, replied, silent, fun delivers => ?_⟩
  have shown := (delivers.streamed rfl).1
  rw [silent, out] at shown
  exact absurd shown (by decide)

end ImageRelease.Machine
