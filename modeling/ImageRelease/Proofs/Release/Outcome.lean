import ImageRelease.Proofs.Release.Clearance
import ImageRelease.Proofs.Release.Stages

/-! What a release comes to. One that ends well was cleared, issued its five commands and left the two
edited files; one that is cleared, whose commands succeed and whose files can be edited ends well.
-/
namespace ImageRelease

variable {σ : Type}

theorem Version.branch_eq (v : Version) :
    v.branch = "v" ++ toString v.major ++ "." ++ toString v.minor := by
  apply String.toList_inj.mp
  simp [branch, numeral, Nat.toString_eq_repr, Nat.repr]

theorem Scripted.runner_keepsFiles : Runner.KeepsFiles runner := fun _ _ _ => rfl

namespace Plan

open Edit

variable {runner : Runner σ} {s t : Session σ} {setup : Setup} {v : Version} {files after : FileTree}

theorem Rewrites.edited (rewritten : Rewrites setup v files after) :
    ∃ manifest versionFile between,
      files.resolve (setup.pathOf setup.config.manifest) = .ok manifest ∧
        files.resolve (setup.pathOf setup.config.versionFile) = .ok versionFile ∧
        Edited (pinImages v) manifest files between ∧
        Edited [assignVersion v] versionFile between after := by
  obtain ⟨pinned, between, assigned, first, second⟩ := rewritten
  obtain ⟨manifest, found, pinnedThere⟩ := editFile_ok first
  obtain ⟨versionFile, foundLater, assignedThere⟩ := editFile_ok second
  rw [pinnedThere.resolve_eq] at foundLater
  exact ⟨manifest, versionFile, between, found, foundLater, pinnedThere, assignedThere⟩

theorem argv_branchCommand (v : Version) :
    (branchCommand v).argv =
      if v.patch ≠ 0 then ["git", "checkout", "v" ++ toString v.major ++ "." ++ toString v.minor]
      else ["git", "checkout", "-b", "v" ++ toString v.major ++ "." ++ toString v.minor] := by
  rw [← Version.branch_eq]
  by_cases patch : v.patch = 0
  · simp [branchCommand, Version.isPatch, patch]
    rfl
  · simp [branchCommand, Version.isPatch, patch]
    rfl

theorem CutEnds.ok {later : List Exchange} (ended : CutEnds setup v files later (.ok ()) after) :
    (∀ e ∈ later, e.reply.Succeeds) ∧ Rewrites setup v files after ∧
      later.map Exchange.command =
        [branchCommand v, formatCommand setup.config.versionFile, Git.commitCommand (commitMessage v),
          Git.checkoutCommand setup.config.mainBranch] := by
  cases ended with
  | finished entered rewritten formatted committed returned =>
    refine ⟨?_, rewritten, rfl⟩
    simp [entered, formatted, committed, returned]

theorem CutEnds.ok_of_succeeds {later : List Exchange} {result : Except Failure Unit}
    (ended : CutEnds setup v files later result after)
    (succeeded : ∀ e ∈ later, e.reply.Succeeds)
    (manifest : files.Editable (setup.pathOf setup.config.manifest))
    (versionFile : files.Editable (setup.pathOf setup.config.versionFile)) :
    result = .ok () := by
  have unfailed {reply : Reply} {failure : Failure} (member : reply ∈ later.map Exchange.reply) :
      reply.outcome ≠ .error failure := by
    obtain ⟨e, issued, rfl⟩ := List.mem_map.mp member
    obtain ⟨output, replied⟩ := succeeded e issued
    simp [replied]
  cases ended with
  | notEntered failed => exact absurd failed (unfailed (by simp))
  | manifestKept entered failed =>
    obtain ⟨changed, between, edited⟩ := editFile_of_editable manifest
    rw [edited] at failed
    contradiction
  | versionKept entered first failed =>
    obtain ⟨l, found, pinnedThere⟩ := editFile_ok first
    obtain ⟨changed, last, edited⟩ := editFile_of_editable (pinnedThere.editable versionFile)
    rw [edited] at failed
    contradiction
  | notFormatted entered rewritten failed => exact absurd failed (unfailed (by simp))
  | notCommitted entered rewritten formatted failed => exact absurd failed (unfailed (by simp))
  | notReturned entered rewritten formatted committed failed => exact absurd failed (unfailed (by simp))
  | finished => rfl

/-- The outcome of a release whose commands touch no files. When it ends well it was cleared, its five
commands were issued in this order and succeeded, and the files are those from before with the images
pinned in the manifest and then the version set in the version file, which may be the same file. It
ends well when it is cleared, every command succeeds and both files are readable as text and writable. -/
theorem release_outcome (runner : Runner σ) (keeps : runner.KeepsFiles) (files : FileTree) (host : σ)
    (setup : Setup) (wet : setup.dryRun = false) (request : ReleaseRequest) :
    let status := (runner Git.statusCommand files host).reply
    let ended := (release setup request).run runner (Session.fresh files host)
    (ended.1 = .ok () →
      ∃ v manifest versionFile between, Cleared setup request status files v ∧
        (∀ e ∈ ended.2.exchanges, e.reply.Succeeds) ∧
        ended.2.commands.map Command.argv =
          [["git", "status", "--porcelain"],
            if v.patch ≠ 0 then ["git", "checkout", "v" ++ toString v.major ++ "." ++ toString v.minor]
            else ["git", "checkout", "-b", "v" ++ toString v.major ++ "." ++ toString v.minor],
            ["gofmt", "-w", setup.config.versionFile],
            ["git", "commit", "-a", "-m", "Automated update for release v" ++ v.text],
            ["git", "checkout", setup.config.mainBranch]] ∧
        files.resolve (setup.pathOf setup.config.manifest) = .ok manifest ∧
        files.resolve (setup.pathOf setup.config.versionFile) = .ok versionFile ∧
        Edited (pinImages v) manifest files between ∧
        Edited [assignVersion v] versionFile between ended.2.files ∧
        ∀ l, l ≠ manifest → l ≠ versionFile → ended.2.files.lookup l = files.lookup l) ∧
      ((∃ v, Cleared setup request status files v) →
        (∀ e ∈ ended.2.exchanges, e.reply.Succeeds) →
        files.Editable (setup.pathOf setup.config.manifest) →
        files.Editable (setup.pathOf setup.config.versionFile) → ended.1 = .ok ()) := by
  intro status ended
  obtain ⟨mid, asked, kept, -, ⟨failure, refused, uncleared⟩ | ⟨v, cleared, went⟩⟩ :=
    release_cases runner files host setup request
  · have ended_eq : ended = (.error failure, mid) := refused
    rw [keeps] at kept
    rw [ended_eq]
    refine ⟨nofun, fun ⟨v, cleared⟩ => ?_⟩
    exact absurd cleared (kept ▸ uncleared v)
  · obtain ⟨later, result, t, ran, exchanged, ends⟩ := run_cut keeps wet v mid
    have ended_eq : ended = (result, t) := went.trans ran
    rw [keeps] at kept
    rw [kept] at cleared ends
    rw [ended_eq]
    constructor
    · rintro rfl
      obtain ⟨succeeded, rewritten, issued⟩ := ends.ok
      obtain ⟨manifest, versionFile, between, found, foundLater, pinned, assigned⟩ := rewritten.edited
      refine ⟨v, manifest, versionFile, between, cleared, ?_, ?_, found, foundLater, pinned, assigned, ?_⟩
      · obtain ⟨output, replied, -⟩ := cleared.clean
        rw [exchanged, asked]
        simpa using ⟨⟨output, replied⟩, succeeded⟩
      · rw [Session.commands, exchanged, asked, List.map_append, issued, ← argv_branchCommand]
        rfl
      · intro l notManifest notVersionFile
        rw [assigned.lookup_other notVersionFile, pinned.lookup_other notManifest]
    · intro _ succeeded manifest versionFile
      rw [exchanged] at succeeded
      exact ends.ok_of_succeeds (fun e member => succeeded e (List.mem_append_right _ member)) manifest
        versionFile

/-- One file under two paths is both the manifest and the version file. -/
def sharedSetup : Setup :=
  { workspace := "."
    config := { Config.default with manifest := "file", versionFile := "./file" }
    dryRun := false }

def sharedFiles : FileTree :=
  { workingDirectory := []
    entries := [(["file"], .file "image: metallb/speaker:old\nversion = 0\n".toUTF8)] }

def releaseShared : Except Failure Unit × Session (List Scripted.Rule) :=
  (release sharedSetup ⟨"0.9.3", true⟩).run Scripted.runner (.fresh sharedFiles [])

theorem release_outcome_shared :
    releaseShared.1 = .ok () ∧
      (∃ v between, Edited (pinImages v) ["file"] sharedFiles between ∧
        Edited [assignVersion v] ["file"] between releaseShared.2.files) ∧
      releaseShared.2.files.lookup ["file"] =
        some (.file "image: metallb/speaker:v0.9.3\nversion = \"0.9.3\"\n".toUTF8) := by
  have ended : releaseShared.1 = .ok () := by decide +kernel
  refine ⟨ended, ?_, by decide +kernel⟩
  obtain ⟨v, manifest, versionFile, between, -, -, -, found, foundLater, pinned, assigned, -⟩ :=
    (release_outcome Scripted.runner Scripted.runner_keepsFiles sharedFiles [] sharedSetup rfl
      ⟨"0.9.3", true⟩).1 ended
  have there : sharedFiles.resolve "./file" = .ok ["file"] := by decide +kernel
  have thereToo : sharedFiles.resolve "././file" = .ok ["file"] := by decide +kernel
  obtain rfl := Except.ok.inj (found.symm.trans there)
  obtain rfl := Except.ok.inj (foundLater.symm.trans thereToo)
  exact ⟨v, between, pinned, assigned⟩

end Plan

end ImageRelease
