import ImageRelease.Command.Scripted
import ImageRelease.Plan.Release
import ImageRelease.Proofs.Edit.File
import ImageRelease.Proofs.Plan.Failures

/-! Nothing is changed before a release is cleared. The first command asks for the status of the checkout;
another one is issued, or a file is changed, only when the checkout is clean, the version is one and
the release notes allow it. The runner is arbitrary: it may answer anything, also with a failure that
looks like a refusal, and may change files itself.
-/
namespace ImageRelease

variable {σ : Type}

/-- The failures by which a release refuses to begin. -/
def Failure.isRefusal : Failure → Bool
  | dirtyCheckout | badVersion _ _ | notesMissing _ _ | notesUnreadable _ _ => true
  | _ => false

def ReleaseNotes.Allow (files : FileTree) (path : String) (v : Version) : Prop :=
  files.find path = .error .notFound ∨
    ∃ notes, files.readText path = .ok notes ∧ ("## Version " ++ v.text).toList <:+: notes.toList

theorem ReleaseNotes.toList_heading (v : Version) : ("## Version " ++ v.text).toList = heading v :=
  String.toList_append.trans (congrArg _ v.toList_text)

theorem ReleaseNotes.check_ok_iff {files : FileTree} {path : String} {v : Version} :
    (∃ found, check files path v = .ok found) ↔ Allow files path v := by
  rw [Allow, ← FileTree.readText_notFound_iff, toList_heading]
  cases read : files.readText path with
  | error fault => cases fault <;> simp [check, read]
  | ok notes =>
    simp only [check, read, reduceCtorEq, Except.ok.injEq, exists_eq_left', false_or,
      ← Text.occurs_iff_infix]
    cases Text.occurs (heading v) notes.toList <;> simp

namespace Plan

variable {runner : Runner σ} {s t : Session σ} {setup : Setup} {request : ReleaseRequest} {v : Version}

/-- What a release needs before it may begin, by the reply to the question for the status of the
checkout and by the files at that time. -/
structure Cleared (setup : Setup) (request : ReleaseRequest) (status : Reply) (files : FileTree)
    (v : Version) : Prop where
  clean : ∃ output, status.outcome = .ok output ∧ Text.trim output.stdout = ""
  parsed : Version.parse request.version = .ok v
  noted : request.skipNotes = true ∨
    ReleaseNotes.Allow files (setup.pathOf setup.config.releaseNotes) v

theorem run_requireClean (runner : Runner σ) (s : Session σ) :
    requireClean.run runner s =
      ((runner Git.statusCommand s.files s.host).reply.outcome.bind fun output =>
          if Text.trim output.stdout = "" then .ok () else .error .dirtyCheckout,
        s.after Git.statusCommand (runner Git.statusCommand s.files s.host)) := by
  simp only [requireClean, Git.isClean, Git.ask, run_bind, run_command]
  cases (runner Git.statusCommand s.files s.host).reply.outcome with
  | error failure => rfl
  | ok output =>
    simp only [run_pure, Except.bind, String.isEmpty_iff]
    split <;> rfl

theorem run_checkNotes (runner : Runner σ) (setup : Setup) (skip : Bool) (v : Version) (s : Session σ) :
    ∃ result notices, (checkNotes setup skip v).run runner s = (result, { s with notices }) ∧
      (result = .ok () ↔
        skip = true ∨ ReleaseNotes.Allow s.files (setup.pathOf setup.config.releaseNotes) v) := by
  cases skip with
  | true => exact ⟨_, _, rfl, by simp⟩
  | false =>
    simp only [checkNotes, Bool.false_eq_true, if_false, run_bind, run_files, run_ofExcept, false_or,
      ← ReleaseNotes.check_ok_iff]
    cases ReleaseNotes.check s.files (setup.pathOf setup.config.releaseNotes) v with
    | error failure => exact ⟨_, s.notices, rfl, by simp⟩
    | ok found => cases found <;> exact ⟨_, _, rfl, by simp⟩

/-- Clearing a release asks one question and changes nothing; it succeeds exactly when the release is
cleared. -/
theorem run_clear (runner : Runner σ) (setup : Setup) (request : ReleaseRequest) (s : Session σ) :
    ∃ result notices, (clear setup request).run runner s =
        (result, { s.after Git.statusCommand (runner Git.statusCommand s.files s.host) with notices }) ∧
      ∀ v, result = .ok v ↔ Cleared setup request (runner Git.statusCommand s.files s.host).reply
        (runner Git.statusCommand s.files s.host).files v := by
  simp only [clear, run_bind, run_requireClean]
  generalize runner Git.statusCommand s.files s.host = a
  cases status : a.reply.outcome with
  | error failure =>
    refine ⟨_, _, rfl, fun v => ⟨nofun, fun cleared => ?_⟩⟩
    obtain ⟨output, answered, -⟩ := cleared.clean
    simp [status] at answered
  | ok output =>
    by_cases clean : Text.trim output.stdout = ""
    · simp only [Except.bind, clean, if_true, run_ofExcept]
      cases parsed : Version.parse request.version with
      | error fault =>
        refine ⟨_, _, rfl, fun v => ⟨nofun, fun cleared => ?_⟩⟩
        have known := cleared.parsed
        simp [parsed] at known
      | ok v =>
        have accepted : (Except.ok v).mapError (Failure.badVersion request.version) = .ok v := rfl
        simp only [accepted, run_notify]
        obtain ⟨result, notices, looked, allowed⟩ := run_checkNotes runner setup request.skipNotes v
          ((s.after Git.statusCommand a).told (.section_ ("Release " ++ v.tag)))
        rw [looked]
        cases result with
        | error failure =>
          refine ⟨_, _, rfl, fun w => ⟨nofun, fun cleared => ?_⟩⟩
          have same : v = w := Except.ok.inj (parsed.symm.trans cleared.parsed)
          subst same
          exact absurd (allowed.mpr cleared.noted) nofun
        | ok _ =>
          refine ⟨_, _, rfl, fun w => ⟨fun same => ?_, fun cleared => ?_⟩⟩
          · obtain rfl := Except.ok.inj same
            exact ⟨⟨output, status, clean⟩, parsed, allowed.mp rfl⟩
          · exact congrArg _ (Except.ok.inj (parsed.symm.trans cleared.parsed))
    · simp only [Except.bind, clean, if_false]
      refine ⟨_, _, rfl, fun v => ⟨nofun, fun cleared => ?_⟩⟩
      obtain ⟨other, answered, trimmed⟩ := cleared.clean
      obtain rfl := Except.ok.inj (status.symm.trans answered)
      contradiction

theorem passesOn_reworded {c : Command} {words : String → Failure}
    (raised : ∀ reason, (words reason).isRefusal = false) :
    PassesOn (fun failure => failure.isRefusal = true) (perform c (Git.reworded words)) := by
  apply PassesOn.perform
  intro failure refusal
  unfold Git.reworded at refusal ⊢
  split at refusal
  · simp [raised] at refusal
  · rfl

theorem passesOn_changeFile (setup : Setup) (path : String) (rs : List Edit.Replacement) :
    PassesOn (fun failure => failure.isRefusal = true) (changeFile setup path rs) := by
  unfold changeFile
  split
  · exact .notify _
  · refine .bind .files fun tree => .bind (.ofExcept ?_) fun (changed, updated) => ?_
    · intro failure failed
      obtain ⟨reason, rfl⟩ := Edit.editFile_error failed
      simp [Failure.isRefusal]
    · refine .bind (.replaceFiles updated) fun _ => ?_
      split
      · exact .notify _
      · exact .notify _

theorem passesOn_cut (setup : Setup) (v : Version) :
    PassesOn (fun failure => failure.isRefusal = true) (cut setup v) := by
  refine .bind ?_ fun _ =>
    .bind (passesOn_changeFile _ _ _) fun _ => .bind (passesOn_changeFile _ _ _) fun _ =>
    .bind (.command _) fun _ => .bind (passesOn_reworded fun _ => rfl) fun _ =>
    .bind (passesOn_reworded fun _ => rfl) fun _ => .notify _
  unfold enterBranch
  split
  · exact passesOn_reworded fun _ => rfl
  · exact passesOn_reworded fun _ => rfl

/-- A release is refused at once, or it is cleared and goes on to be cut; either way it has asked one
question and changed nothing until then. -/
theorem release_cases (runner : Runner σ) (files : FileTree) (host : σ) (setup : Setup)
    (request : ReleaseRequest) :
    ∃ mid : Session σ,
      mid.exchanges = [⟨Git.statusCommand, (runner Git.statusCommand files host).reply⟩] ∧
      mid.files = (runner Git.statusCommand files host).files ∧
      mid.host = (runner Git.statusCommand files host).host ∧
      ((∃ failure, (release setup request).run runner (.fresh files host) = (.error failure, mid) ∧
          ∀ v, ¬Cleared setup request (runner Git.statusCommand files host).reply mid.files v) ∨
        ∃ v, Cleared setup request (runner Git.statusCommand files host).reply mid.files v ∧
          (release setup request).run runner (.fresh files host) = (cut setup v).run runner mid) := by
  obtain ⟨result, notices, ended, cleared⟩ := run_clear runner setup request (.fresh files host)
  refine ⟨{ (Session.fresh files host).after Git.statusCommand (runner Git.statusCommand files host) with
    notices }, rfl, rfl, rfl, ?_⟩
  rw [release, run_bind, ended]
  cases result with
  | error failure => exact .inl ⟨failure, rfl, fun v satisfied => nomatch (cleared v).mpr satisfied⟩
  | ok v => exact .inr ⟨v, (cleared v).mp rfl, rfl⟩

/-- The guard of a release. Its first command asks for the status of the checkout. If any other one is
issued, or a file is changed after the reply, then the release was cleared by that reply and by the
files of that time. So a run that ends in a refusal has issued that question only and changed no file,
unless the release was cleared and the refusal is what the runner itself replied to the last command. -/
theorem release_guarded (runner : Runner σ) (files : FileTree) (host : σ) (setup : Setup)
    (request : ReleaseRequest) :
    let answer := runner Git.statusCommand files host
    let ended := (release setup request).run runner (Session.fresh files host)
    ∃ later, ended.2.exchanges = ⟨Git.statusCommand, answer.reply⟩ :: later ∧
      (later ≠ [] ∨ ended.2.files ≠ answer.files →
        ∃ v, Cleared setup request answer.reply answer.files v) ∧
      ∀ failure, ended.1 = .error failure → failure.isRefusal = true →
        (later = [] ∧ ended.2.files = answer.files) ∨
          (∃ v, Cleared setup request answer.reply answer.files v) ∧
            ∃ earlier last, later = earlier ++ [last] ∧ last.reply.outcome = .error failure := by
  intro answer ended
  obtain ⟨mid, asked, kept, -, ⟨failure, refused, -⟩ | ⟨v, cleared, went⟩⟩ :=
    release_cases runner files host setup request
  · have ended_eq : ended = (.error failure, mid) := refused
    rw [ended_eq]
    exact ⟨[], asked, by simp [kept, answer], fun _ _ _ => .inl ⟨rfl, kept⟩⟩
  · have ended_eq : ended = (cut setup v).run runner mid := went
    refine ⟨((cut setup v).run runner (.fresh mid.files mid.host)).2.exchanges, ?_, ?_, ?_⟩
    · rw [ended_eq, exchanges_run, asked]
      rfl
    · exact fun _ => ⟨v, kept ▸ cleared⟩
    · intro failure failed refusal
      have failed : ((cut setup v).run runner (.fresh mid.files mid.host)).1 = .error failure := by
        rw [← result_run, ← ended_eq, failed]
      obtain ⟨earlier, last, exchanged, replied⟩ := passesOn_cut setup v σ runner _ _ failure
        (Prod.ext failed rfl) refusal
      exact .inr ⟨⟨v, kept ▸ cleared⟩, earlier, last, exchanged, replied⟩

def notedSetup : Setup :=
  { workspace := ".", config := { Config.default with releaseNotes := "notes" }, dryRun := false }

def notedFiles : FileTree :=
  { workingDirectory := [], entries := [(["notes"], .file "## Version 0.9.3\n".toUTF8)] }

def releaseNoted (version : String) : Except Failure Unit × Session (List Scripted.Rule) :=
  (release notedSetup ⟨version, false⟩).run Scripted.runner (.fresh notedFiles [])

theorem release_guarded_mentioned :
    (2 ≤ (releaseNoted "0.9.3").2.exchanges.length ∧
        ∃ v, Cleared notedSetup ⟨"0.9.3", false⟩ ⟨.ok (Output.ofText ""), 0⟩ notedFiles v) ∧
      (releaseNoted "0.9.4").1 = .error (.notesMissing "0.9.4" "./notes") ∧
        (releaseNoted "0.9.4").2.exchanges.length = 1 ∧ (releaseNoted "0.9.4").2.files = notedFiles := by
  constructor
  · obtain ⟨later, exchanged, cleared, -⟩ :=
      release_guarded Scripted.runner notedFiles [] notedSetup ⟨"0.9.3", false⟩
    have issued : 2 ≤ (releaseNoted "0.9.3").2.exchanges.length := by decide +kernel
    refine ⟨issued, cleared (.inl ?_)⟩
    rintro rfl
    rw [releaseNoted, exchanged] at issued
    simp at issued
  · obtain ⟨later, exchanged, -, refused⟩ :=
      release_guarded Scripted.runner notedFiles [] notedSetup ⟨"0.9.4", false⟩
    have missing : (releaseNoted "0.9.4").1 = .error (.notesMissing "0.9.4" "./notes") := rfl
    have alone : (releaseNoted "0.9.4").2.exchanges.length = 1 := by decide +kernel
    refine ⟨missing, alone, ?_⟩
    rcases refused _ missing rfl with ⟨-, kept⟩ | ⟨-, earlier, last, rfl, -⟩
    · exact kept
    · rw [releaseNoted, exchanged] at alone
      simp at alone

def failingAt (c : Command) (failure : Failure) : Runner Unit := fun issued files _ =>
  { reply := { outcome := if issued = c then .error failure else .ok (Output.ofText ""), seconds := 0 }
    notices := []
    files
    host := () }

def releaseReplied : Except Failure Unit × Session Unit :=
  (release notedSetup ⟨"0.9.3", false⟩).run (failingAt (Git.checkoutCommand "v0.9") .dirtyCheckout)
    (.fresh notedFiles ())

/-- A runner may answer like a release that is refused: then the refusal comes after two commands, not one. -/
theorem refusal_replied :
    releaseReplied.1 = .error .dirtyCheckout ∧ Failure.dirtyCheckout.isRefusal = true ∧
      releaseReplied.2.commands = [Git.statusCommand, Git.checkoutCommand "v0.9"] := by
  decide +kernel

end Plan

end ImageRelease
