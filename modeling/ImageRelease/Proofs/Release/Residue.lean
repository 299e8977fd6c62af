import ImageRelease.Proofs.Release.Outcome

/-! What a failed release leaves. A cleared release can fail when it enters the branch, when it edits the
manifest or the version file, and at each of the three commands after that; the stage says which files
are edited by then, and no command is issued after the one that fails.
-/
namespace ImageRelease.Plan

open Edit

variable {σ : Type} {setup : Setup} {v : Version} {files after : FileTree} {entry : Reply}
  {trace later : List Exchange} {result : Except Failure Unit}

theorem outcome_ne_error {reply : Reply} {failure : Failure} (succeeded : reply.Succeeds) :
    reply.outcome ≠ .error failure := by
  obtain ⟨output, replied⟩ := succeeded
  simp [replied]

/-- Both files are edited, the one after the other, and no other file is changed. -/
def Rewritten (setup : Setup) (v : Version) (files after : FileTree) : Prop :=
  ∃ manifest versionFile between,
    files.resolve (setup.pathOf setup.config.manifest) = .ok manifest ∧
      files.resolve (setup.pathOf setup.config.versionFile) = .ok versionFile ∧
      Edited (pinImages v) manifest files between ∧ Edited [assignVersion v] versionFile between after ∧
      ∀ l, l ≠ manifest → l ≠ versionFile → after.lookup l = files.lookup l

theorem Rewrites.rewritten (rewrites : Rewrites setup v files after) : Rewritten setup v files after := by
  obtain ⟨manifest, versionFile, between, found, foundLater, pinned, assigned⟩ := rewrites.edited
  refine ⟨manifest, versionFile, between, found, foundLater, pinned, assigned, ?_⟩
  intro l notManifest notVersionFile
  rw [assigned.lookup_other notVersionFile, pinned.lookup_other notManifest]

/-- The commands after both edits, in order and up to the first that fails. -/
structure Concluded (setup : Setup) (v : Version) (later : List Exchange) (result : Except Failure Unit) :
    Prop where
  issued : later ≠ []
  isPrefix : later.map Exchange.command <+:
    [formatCommand setup.config.versionFile, Git.commitCommand (commitMessage v),
      Git.checkoutCommand setup.config.mainBranch]
  succeeded : ∀ e ∈ later.dropLast, e.reply.Succeeds
  ended : (∀ e ∈ later, e.reply.Succeeds) ∧ result = .ok () ∨
    ∃ before last cause failure, later = before ++ [last] ∧ last.reply.outcome = .error cause ∧
      result = .error failure

theorem gitChange_ne_format {args : List String} {versionFile : String} :
    Git.changeCommand args ≠ formatCommand versionFile := by
  intro same
  exact absurd (congrArg Command.program same) (show "git" ≠ "gofmt" by decide)

/-- How far a cut has come when it ends, by what is done after the branch command. -/
inductive CutStage (setup : Setup) (v : Version) (files : FileTree) (entry : Reply) :
    List Exchange → Except Failure Unit → FileTree → Prop where
  | notEntered {cause : Failure} (failed : entry.outcome = .error cause) :
      CutStage setup v files entry [] (.error (Git.reworded .branchFailed cause)) files
  | manifestKept {failure : Failure} (entered : entry.Succeeds)
      (failed : editFile (pinImages v) (setup.pathOf setup.config.manifest) files = .error failure) :
      CutStage setup v files entry [] (.error failure) files
  | versionKept {failure : Failure} {pinned : Nat} {between : FileTree} (entered : entry.Succeeds)
      (first : editFile (pinImages v) (setup.pathOf setup.config.manifest) files = .ok (pinned, between))
      (failed : editFile [assignVersion v] (setup.pathOf setup.config.versionFile) between =
        .error failure) :
      CutStage setup v files entry [] (.error failure) between
  | edited {later : List Exchange} {result : Except Failure Unit} {after : FileTree}
      (entered : entry.Succeeds) (rewrites : Rewrites setup v files after)
      (concluded : Concluded setup v later result) :
      CutStage setup v files entry later result after

theorem CutEnds.stage (ends : CutEnds setup v files trace result after) :
    ∃ entry later, trace = ⟨branchCommand v, entry⟩ :: later ∧
      CutStage setup v files entry later result after := by
  cases ends with
  | notEntered failed => exact ⟨_, _, rfl, .notEntered failed⟩
  | manifestKept entered failed => exact ⟨_, _, rfl, .manifestKept entered failed⟩
  | versionKept entered first failed => exact ⟨_, _, rfl, .versionKept entered first failed⟩
  | notFormatted entered rewrites failed =>
    exact ⟨_, _, rfl, .edited entered rewrites
      ⟨by simp, ⟨_, rfl⟩, by simp, .inr ⟨[], _, _, _, rfl, failed, rfl⟩⟩⟩
  | notCommitted entered rewrites formatted failed =>
    exact ⟨_, _, rfl, .edited entered rewrites
      ⟨by simp, ⟨_, rfl⟩, by simp [formatted], .inr ⟨[_], _, _, _, rfl, failed, rfl⟩⟩⟩
  | notReturned entered rewrites formatted committed failed =>
    exact ⟨_, _, rfl, .edited entered rewrites
      ⟨by simp, ⟨_, rfl⟩, by simp [formatted, committed], .inr ⟨[_, _], _, _, _, rfl, failed, rfl⟩⟩⟩
  | finished entered rewrites formatted committed returned =>
    exact ⟨_, _, rfl, .edited entered rewrites
      ⟨by simp, ⟨_, rfl⟩, by simp [formatted, committed],
        .inl ⟨by simp [formatted, committed, returned], rfl⟩⟩⟩

namespace CutStage

variable {fault : FileFault} {cause : Failure}

theorem of_entry_failed (stage : CutStage setup v files entry later result after)
    (failed : entry.outcome = .error cause) :
    later = [] ∧ after = files ∧ result = .error (Git.reworded .branchFailed cause) := by
  cases stage with
  | notEntered other =>
    obtain rfl := Except.error.inj (failed.symm.trans other)
    exact ⟨rfl, rfl, rfl⟩
  | manifestKept entered => exact absurd failed (outcome_ne_error entered)
  | versionKept entered => exact absurd failed (outcome_ne_error entered)
  | edited entered => exact absurd failed (outcome_ne_error entered)

theorem of_manifest_unread (stage : CutStage setup v files entry later result after)
    (entered : entry.Succeeds)
    (unread : files.readText (setup.pathOf setup.config.manifest) = .error fault) :
    later = [] ∧ after = files ∧
      result = .error (.updateFailed (setup.pathOf setup.config.manifest)
        ("Failed to read file: " ++ fault.message)) := by
  have refused := editFile_of_unreadable (pinImages v) unread
  cases stage with
  | notEntered failed => exact absurd failed (outcome_ne_error entered)
  | manifestKept _ failed =>
    obtain rfl := Except.error.inj (failed.symm.trans refused)
    exact ⟨rfl, rfl, rfl⟩
  | versionKept _ first => exact nomatch first.symm.trans refused
  | edited _ rewrites =>
    obtain ⟨pinned, between, assigned, first, -⟩ := rewrites
    exact nomatch first.symm.trans refused

theorem of_version_unread (stage : CutStage setup v files entry later result after)
    (entered : entry.Succeeds) (admitted : Admits (pinImages v) (setup.pathOf setup.config.manifest) files)
    (unread : files.readText (setup.pathOf setup.config.versionFile) = .error fault) :
    later = [] ∧
      (∃ l, files.resolve (setup.pathOf setup.config.manifest) = .ok l ∧
        Edited (pinImages v) l files after) ∧
      result = .error (.updateFailed (setup.pathOf setup.config.versionFile)
        ("Failed to read file: " ++ fault.message)) := by
  obtain ⟨changed, between, done⟩ := editFile_of_admits admitted
  obtain ⟨l, found, pinnedThere⟩ := editFile_ok done
  -- Pinning the images cannot have made the version file readable.
  have refused := editFile_of_unreadable [assignVersion v] (pinnedThere.readText_error unread)
  have same {pinned : Nat} {other : FileTree}
      (first : editFile (pinImages v) (setup.pathOf setup.config.manifest) files = .ok (pinned, other)) :
      other = between :=
    (Prod.mk.inj (Except.ok.inj (first.symm.trans done))).2
  cases stage with
  | notEntered failed => exact absurd failed (outcome_ne_error entered)
  | manifestKept _ failed => exact nomatch failed.symm.trans done
  | versionKept _ first failed =>
    obtain rfl := same first
    obtain rfl := Except.error.inj (failed.symm.trans refused)
    exact ⟨rfl, ⟨l, found, pinnedThere⟩, rfl⟩
  | edited _ rewrites =>
    obtain ⟨pinned, other, assigned, first, second⟩ := rewrites
    obtain rfl := same first
    exact nomatch second.symm.trans refused

theorem concluded (stage : CutStage setup v files entry later result after) (issued : later ≠ []) :
    Rewritten setup v files after ∧ Concluded setup v later result := by
  cases stage with
  | notEntered => contradiction
  | manifestKept => contradiction
  | versionKept => contradiction
  | edited _ rewrites concluded => exact ⟨rewrites.rewritten, concluded⟩

theorem failed_cases {failure : Failure}
    (stage : CutStage setup v files entry later (.error failure) after) :
    (∃ cause, entry.outcome = .error cause) ∨
      (later = [] ∧ after = files ∧
        ∃ reason, failure = .updateFailed (setup.pathOf setup.config.manifest) reason) ∨
      (later = [] ∧
        (∃ l, files.resolve (setup.pathOf setup.config.manifest) = .ok l ∧
          Edited (pinImages v) l files after) ∧
        ∃ reason, failure = .updateFailed (setup.pathOf setup.config.versionFile) reason) ∨
      Rewritten setup v files after ∧ ∃ before last cause, later = before ++ [last] ∧
        last.reply.outcome = .error cause := by
  cases stage with
  | notEntered failed => exact .inl ⟨_, failed⟩
  | manifestKept _ failed => exact .inr (.inl ⟨rfl, rfl, editFile_error failed⟩)
  | versionKept _ first failed =>
    exact .inr (.inr (.inl ⟨rfl, editFile_ok first, editFile_error failed⟩))
  | edited _ rewrites concluded =>
    rcases concluded.ended with ⟨-, well⟩ | ⟨before, last, cause, _, issued, failed, -⟩
    · contradiction
    · exact .inr (.inr (.inr ⟨rewrites.rewritten, before, last, cause, issued, failed⟩))

theorem commands_isPrefix (stage : CutStage setup v files entry later result after) :
    later.map Exchange.command <+:
      [formatCommand setup.config.versionFile, Git.commitCommand (commitMessage v),
        Git.checkoutCommand setup.config.mainBranch] := by
  by_cases issued : later = []
  · rw [issued]
    exact List.nil_prefix
  · exact (stage.concluded issued).2.isPrefix

end CutStage

namespace Concluded

theorem eq_append_of_failed (concluded : Concluded setup v later result) {e : Exchange} (issued : e ∈ later)
    {cause : Failure} (failed : e.reply.outcome = .error cause) :
    (∃ before, later = before ++ [e]) ∧ ∃ failure, result = .error failure := by
  rcases concluded.ended with ⟨succeeded, -⟩ | ⟨before, last, _, failure, rfl, -, stopped⟩
  · exact absurd failed (outcome_ne_error (succeeded e issued))
  · have earlier := concluded.succeeded
    rw [List.dropLast_concat] at earlier
    rcases List.mem_append.mp issued with member | member
    · exact absurd failed (outcome_ne_error (earlier e member))
    · obtain rfl := List.mem_singleton.mp member
      exact ⟨⟨before, rfl⟩, failure, stopped⟩

theorem formatted (concluded : Concluded setup v later result) {e : Exchange} (issued : e ∈ later)
    (other : e.command ≠ formatCommand setup.config.versionFile) :
    ∃ format rest, later = format :: rest ∧ e ∈ rest ∧
      format.command = formatCommand setup.config.versionFile ∧ format.reply.Succeeds := by
  obtain ⟨-, listed, succeeded, -⟩ := concluded
  cases later with
  | nil => contradiction
  | cons format rest =>
    have named := (List.cons_prefix_cons.mp listed).1
    have after : e ∈ rest := by
      rcases List.mem_cons.mp issued with rfl | after
      · contradiction
      · exact after
    refine ⟨format, rest, rfl, after, named, succeeded format ?_⟩
    rw [List.dropLast_cons_of_ne_nil (List.ne_nil_of_mem after)]
    exact List.mem_cons_self

theorem committed (concluded : Concluded setup v later result) {e : Exchange} (issued : e ∈ later)
    (back : e.command = Git.checkoutCommand setup.config.mainBranch) :
    ∃ commit ∈ later, commit.command = Git.commitCommand (commitMessage v) ∧ commit.reply.Succeeds := by
  have notFormat : e.command ≠ formatCommand setup.config.versionFile := by
    rw [back]
    exact gitChange_ne_format
  obtain ⟨format, rest, rfl, after, -, -⟩ := concluded.formatted issued notFormat
  obtain ⟨-, listed, succeeded, -⟩ := concluded
  cases rest with
  | nil => contradiction
  | cons commit rest =>
    have named := (List.cons_prefix_cons.mp (List.cons_prefix_cons.mp listed).2).1
    have later : e ∈ rest := by
      rcases List.mem_cons.mp after with rfl | later
      · rw [back] at named
        exact absurd (congrArg (·.args.head?) named)
            (show some "checkout" ≠ some "commit" by decide)
      · exact later
    refine ⟨commit, by simp, named, succeeded commit ?_⟩
    rw [List.dropLast_cons_of_ne_nil (by simp), List.dropLast_cons_of_ne_nil (List.ne_nil_of_mem later)]
    simp

end Concluded

theorem reworded_of_commands {words : String → Failure} {cause : Failure}
    (ofCommands : cause.area = .commands) : Git.reworded words cause = words cause.detail := by
  rw [Git.reworded, ofCommands]

/-- What a release leaves that is cleared, changes files and is answered by a runner that changes none.
It fails at entering the branch or at reading a file with two commands issued, and then no file is
changed but the manifest when it is the version file that cannot be read. It fails at a later command
with both files edited, and that command is the last one. So it commits only formatted edits, and it
returns to the main branch only after a commit. -/
theorem release_residue (runner : Runner σ) (keeps : runner.KeepsFiles) (files : FileTree) (host : σ)
    (setup : Setup) (wet : setup.dryRun = false) (request : ReleaseRequest) (v : Version)
    (cleared : Cleared setup request (runner Git.statusCommand files host).reply files v) :
    let ended := (release setup request).run runner (Session.fresh files host)
    let manifest := setup.pathOf setup.config.manifest
    let versionFile := setup.pathOf setup.config.versionFile
    ∃ entry later,
      ended.2.exchanges =
        ⟨Git.statusCommand, (runner Git.statusCommand files host).reply⟩ ::
          ⟨branchCommand v, entry⟩ :: later ∧
      later.map Exchange.command <+:
        [formatCommand setup.config.versionFile, Git.commitCommand (commitMessage v),
          Git.checkoutCommand setup.config.mainBranch] ∧
      (∀ cause, entry.outcome = .error cause →
        later = [] ∧ ended.2.files = files ∧ ended.1 = .error (Git.reworded .branchFailed cause) ∧
          (cause.area = .commands → ended.1 = .error (.branchFailed cause.detail))) ∧
      (entry.Succeeds → ∀ fault, files.readText manifest = .error fault →
        later = [] ∧ ended.2.files = files ∧
          ended.1 = .error (.updateFailed manifest ("Failed to read file: " ++ fault.message))) ∧
      (entry.Succeeds → Admits (pinImages v) manifest files →
        ∀ fault, files.readText versionFile = .error fault →
          later = [] ∧ (∃ l, files.resolve manifest = .ok l ∧ Edited (pinImages v) l files ended.2.files) ∧
            ended.1 = .error (.updateFailed versionFile ("Failed to read file: " ++ fault.message))) ∧
      (∀ e ∈ later, Rewritten setup v files ended.2.files ∧
        ∀ cause, e.reply.outcome = .error cause →
          (∃ before, later = before ++ [e]) ∧ ∃ failure, ended.1 = .error failure) ∧
      (∀ e ∈ later, e.command = Git.commitCommand (commitMessage v) →
        ∃ format ∈ later, format.command = formatCommand setup.config.versionFile ∧ format.reply.Succeeds) ∧
      (∀ e ∈ later, e.command = Git.checkoutCommand setup.config.mainBranch →
        ∃ commit ∈ later, commit.command = Git.commitCommand (commitMessage v) ∧ commit.reply.Succeeds) ∧
      ∀ failure, ended.1 = .error failure →
        (∃ cause, entry.outcome = .error cause) ∨
          (later = [] ∧ ended.2.files = files ∧ ∃ reason, failure = .updateFailed manifest reason) ∨
          (later = [] ∧ (∃ l, files.resolve manifest = .ok l ∧ Edited (pinImages v) l files ended.2.files) ∧
            ∃ reason, failure = .updateFailed versionFile reason) ∨
          Rewritten setup v files ended.2.files ∧ ∃ before last cause, later = before ++ [last] ∧
            last.reply.outcome = .error cause := by
  intro ended manifest versionFile
  obtain ⟨mid, asked, kept, -, ⟨failure, -, uncleared⟩ | ⟨w, clearedToo, went⟩⟩ :=
    release_cases runner files host setup request
  · rw [kept, keeps] at uncleared
    exact absurd cleared (uncleared v)
  have same : v = w := Except.ok.inj (cleared.parsed.symm.trans clearedToo.parsed)
  subst same
  obtain ⟨trace, result, t, ran, exchanged, ends⟩ := run_cut keeps wet v mid
  have ended_eq : ended = (result, t) := went.trans ran
  rw [kept, keeps] at ends
  obtain ⟨entry, later, rfl, stage⟩ := ends.stage
  rw [ended_eq]
  refine ⟨entry, later, ?_, stage.commands_isPrefix, ?_, ?_, ?_, ?_, ?_, ?_, ?_⟩
  · rw [exchanged, asked]
    rfl
  · intro cause failed
    obtain ⟨none, unchanged, stopped⟩ := stage.of_entry_failed failed
    refine ⟨none, unchanged, stopped, fun ofCommands => ?_⟩
    rw [stopped, reworded_of_commands ofCommands]
  · intro entered fault unread
    exact stage.of_manifest_unread entered unread
  · intro entered admitted fault unread
    exact stage.of_version_unread entered admitted unread
  · intro e issued
    obtain ⟨rewritten, concluded⟩ := stage.concluded (List.ne_nil_of_mem issued)
    exact ⟨rewritten, fun cause failed => concluded.eq_append_of_failed issued failed⟩
  · intro e issued committing
    obtain ⟨-, concluded⟩ := stage.concluded (List.ne_nil_of_mem issued)
    obtain ⟨format, rest, rfl, -, named, succeeded⟩ :=
      concluded.formatted issued (by rw [committing]; exact gitChange_ne_format)
    exact ⟨format, List.mem_cons_self, named, succeeded⟩
  · intro e issued returning
    obtain ⟨-, concluded⟩ := stage.concluded (List.ne_nil_of_mem issued)
    exact concluded.committed issued returning
  · rintro failure rfl
    exact stage.failed_cases

def commitLine : String := "git commit -a -m 'Automated update for release v0.9.3'"

def uncommitted : List Scripted.Rule := [⟨commitLine, none, false, .fails "exit status 1"⟩]

def releaseUncommitted : Except Failure Unit × Session (List Scripted.Rule) :=
  (release sharedSetup ⟨"0.9.3", true⟩).run Scripted.runner (.fresh sharedFiles uncommitted)

/-- A commit that fails leaves both edits, here of one file, and the main branch is not entered. -/
theorem release_residue_uncommitted :
    releaseUncommitted.1 =
        .error (.commitFailed ("Command execution failed: " ++ commitLine ++ " - exit status 1")) ∧
      releaseUncommitted.2.exchanges.length = 4 ∧
      releaseUncommitted.2.files.lookup ["file"] =
        some (.file "image: metallb/speaker:v0.9.3\nversion = \"0.9.3\"\n".toUTF8) ∧
      ∃ v, Version.parse "0.9.3" = .ok v ∧
        Rewritten sharedSetup v sharedFiles releaseUncommitted.2.files := by
  obtain ⟨v, parsed⟩ : ∃ v, Version.parse "0.9.3" = .ok v := ⟨_, rfl⟩
  have issued : releaseUncommitted.2.exchanges.length = 4 := by decide +kernel
  have cleared : Cleared sharedSetup ⟨"0.9.3", true⟩
      (Scripted.runner Git.statusCommand sharedFiles uncommitted).reply sharedFiles v :=
    { clean := ⟨Output.ofText "", by rfl, by decide⟩
      parsed
      noted := .inl rfl }
  obtain ⟨entry, later, exchanged, -, -, -, -, residue, -⟩ :=
    release_residue Scripted.runner Scripted.runner_keepsFiles sharedFiles uncommitted sharedSetup rfl
      ⟨"0.9.3", true⟩ v cleared
  refine ⟨by decide +kernel, issued, by decide +kernel, v, parsed, ?_⟩
  rw [releaseUncommitted, exchanged] at issued
  cases later with
  | nil => simp at issued
  | cons e rest => exact (residue e List.mem_cons_self).1

end ImageRelease.Plan
