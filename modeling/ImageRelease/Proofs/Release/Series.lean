import Mathlib.Data.List.Forall2
import ImageRelease.Proofs.Release.Branches
import ImageRelease.Proofs.Version.Chars
import ImageRelease.Version.Order

/-! Releases one after the other. The branch of a release forgets all but the first two numbers of its version, and
whether it is created is decided by the third one alone. So all releases of a series pass their branch step when
only the first version of each line has zero for its third number, and main is not named like one of their
branches.
-/
namespace ImageRelease

variable {σ : Type}

namespace Version

def SameLine (v w : Version) : Prop := v.major = w.major ∧ v.minor = w.minor

instance (v w : Version) : Decidable (v.SameLine w) := inferInstanceAs (Decidable (_ ∧ _))

theorem numeral_injective : Function.Injective numeral := by
  intro m n same
  have read := congrArg (fun digits => Nat.ofDigitChars 10 digits 0) same
  simpa [numeral] using read

theorem branch_eq_iff {v w : Version} : v.branch = w.branch ↔ v.SameLine w := by
  constructor
  · intro same
    have texts : numeral v.major ++ '.' :: numeral v.minor = numeral w.major ++ '.' :: numeral w.minor := by
      simpa [branch] using congrArg String.toList same
    obtain ⟨major, minor⟩ := numeral_dot_inj texts
    exact ⟨numeral_injective major, numeral_injective minor⟩
  · rintro ⟨major, minor⟩
    rw [branch, branch, major, minor]

end Version

namespace Plan

variable {runner : Runner σ} {setup : Setup} {branches : σ → Set String} {main : String} {vs : List Version}

/-- Releases of versions one after the other on a host. The files are those of the checkout at the time of each. -/
def series (runner : Runner σ) (setup : Setup) :
    List (String × FileTree) → σ → List (Except Failure Unit × Session σ)
  | [], _ => []
  | (text, files) :: releases, host =>
    let ended := (release setup ⟨text, true⟩).run runner (.fresh files host)
    ended :: series runner setup releases ended.2.host

/-- The branch step can be passed for one version after the other, when each leaves its branch. -/
def AllEnterable : Set String → List Version → Prop
  | _, [] => True
  | branches, v :: vs => v.Enterable branches ∧ AllEnterable (insert v.branch branches) vs

/-- A release is for a version and finds files that it can edit. -/
structure Releases (setup : Setup) (r : String × FileTree) (v : Version) : Prop where
  parsed : Version.parse r.1 = .ok v
  ready : r.2.Ready setup

theorem series_entered_iff (git : runner.Branching setup branches) {releases : List (String × FileTree)}
    (read : List.Forall₂ (Releases setup) releases vs) {host : σ}
    (there : setup.config.mainBranch ∈ branches host) :
    (List.Forall₂ Entered vs (series runner setup releases host) ↔ AllEnterable (branches host) vs) ∧
      (AllEnterable (branches host) vs → ∀ ended ∈ series runner setup releases host, ended.1 = .ok ()) := by
  induction read generalizing host with
  | nil => exact ⟨iff_of_true .nil trivial, by simp [series]⟩
  | @cons r v releases vs first rest ih =>
    obtain ⟨text, files⟩ := r
    obtain ⟨entered_iff, goesOn⟩ := release_entered_iff git there first.ready first.parsed
    rw [series, List.forall₂_cons, AllEnterable, entered_iff]
    -- A release that is stopped leaves the other side of both statements false, whatever comes after it.
    by_cases enterable : v.Enterable (branches host)
    · obtain ⟨ended, left⟩ := goesOn enterable
      obtain ⟨restEntered, restEnded⟩ := ih (left ▸ Set.mem_insert_of_mem _ there)
      rw [left] at restEntered restEnded
      refine ⟨and_congr_right fun _ => restEntered, fun all => ?_⟩
      exact List.forall_mem_cons.mpr ⟨ended, restEnded all.2⟩
    · exact ⟨iff_of_false (fun both => enterable both.1) fun both => enterable both.1,
        fun all => absurd all.1 enterable⟩

/-- The first version of each line has zero for its third number. -/
def BeginsLines (vs : List Version) : Prop :=
  ∀ before v after, vs = before ++ v :: after → (∀ w ∈ before, ¬w.SameLine v) → v.patch = 0

def branchesOf (main : String) (vs : List Version) : Set String := insert main {b | ∃ v ∈ vs, v.branch = b}

theorem mem_branchesOf {v : Version} :
    v.branch ∈ branchesOf main vs ↔ v.branch = main ∨ ∃ w ∈ vs, w.SameLine v := by
  simp only [branchesOf, Set.mem_insert_iff, Set.mem_ofPred_eq, Version.branch_eq_iff]

theorem insert_branchesOf (main : String) (vs : List Version) (v : Version) :
    insert v.branch (branchesOf main vs) = branchesOf main (vs ++ [v]) := by
  ext b
  simp only [branchesOf, Set.mem_insert_iff, Set.mem_ofPred_eq, List.mem_append, List.mem_singleton, or_and_right,
    exists_or, exists_eq_left, eq_comm (a := b) (b := v.branch)]
  exact or_comm.trans or_assoc

/-- A version that is the first of its line only if its third number is zero can pass its branch step if and only if
its branch is not main, and its third number is not zero after another version of its line. -/
theorem enterable_branchesOf {before : List Version} {v : Version} (free : ∀ w ∈ before, w.branch ≠ main)
    (begins : (∀ w ∈ before, ¬w.SameLine v) → v.patch = 0) :
    v.Enterable (branchesOf main before) ↔
      v.branch ≠ main ∧ ∀ w ∈ before, w.SameLine v → v.patch ≠ 0 := by
  by_cases patch : v.patch = 0
  · have creates : v.isPatch = false := by simp [Version.isPatch, patch]
    simp [Version.Enterable, creates, mem_branchesOf, patch, not_or]
  · have enters : v.isPatch = true := by simp [Version.isPatch, patch]
    obtain ⟨w, earlier, same⟩ : ∃ w ∈ before, w.SameLine v := by
      by_contra none
      exact patch (begins fun w earlier same => none ⟨w, earlier, same⟩)
    have other : v.branch ≠ main := Version.branch_eq_iff.mpr same ▸ free w earlier
    simp only [Version.Enterable, enters, if_true, mem_branchesOf]
    exact iff_of_true (.inr ⟨w, earlier, same⟩) ⟨other, fun _ _ _ => patch⟩

theorem allEnterable_iff {before : List Version} (free : ∀ w ∈ before, w.branch ≠ main)
    (begins : BeginsLines (before ++ vs)) :
    AllEnterable (branchesOf main before) vs ↔
      (∀ v ∈ vs, v.branch ≠ main) ∧ (∀ w ∈ before, ∀ v ∈ vs, w.SameLine v → v.patch ≠ 0) ∧
        vs.Pairwise fun w v => w.SameLine v → v.patch ≠ 0 := by
  induction vs generalizing before with
  | nil => simp [AllEnterable]
  | cons v vs ih =>
    have first := enterable_branchesOf free (begins before v vs rfl)
    have next : before ++ v :: vs = (before ++ [v]) ++ vs := by simp
    rw [next] at begins
    rw [AllEnterable, insert_branchesOf, first, List.pairwise_cons]
    constructor
    · rintro ⟨⟨other, fresh⟩, rest⟩
      have freeToo : ∀ w ∈ before ++ [v], w.branch ≠ main :=
        List.forall_mem_append.mpr ⟨free, List.forall_mem_singleton.mpr other⟩
      obtain ⟨others, later, pairwise⟩ := (ih freeToo begins).mp rest
      obtain ⟨earlier, here⟩ := List.forall_mem_append.mp later
      exact ⟨List.forall_mem_cons.mpr ⟨other, others⟩,
        fun w member => List.forall_mem_cons.mpr ⟨fresh w member, earlier w member⟩,
        here v List.mem_cons_self, pairwise⟩
    · rintro ⟨others, earlier, here, pairwise⟩
      obtain ⟨other, others⟩ := List.forall_mem_cons.mp others
      have freeToo : ∀ w ∈ before ++ [v], w.branch ≠ main :=
        List.forall_mem_append.mpr ⟨free, List.forall_mem_singleton.mpr other⟩
      have later : ∀ w ∈ before ++ [v], ∀ u ∈ vs, w.SameLine u → u.patch ≠ 0 :=
        List.forall_mem_append.mpr
          ⟨fun w member u behind => earlier w member u (List.mem_cons_of_mem v behind),
            List.forall_mem_singleton.mpr here⟩
      exact ⟨⟨other, fun w member => earlier w member v List.mem_cons_self⟩,
        (ih freeToo begins).mpr ⟨others, later, pairwise⟩⟩

/-- A series of releases on a clean checkout that has nothing but main, with files that can be read and written, in
which the first version of each line has zero for its third number. All releases pass their branch step if and only
if no branch of theirs is named like main and no later version of a line has zero for its third number. Then all end
well, the first release of each line creates its branch, and all later ones of the line enter it. -/
theorem series_lines (runner : Runner σ) (setup : Setup) (branches : σ → Set String)
    (git : runner.Branching setup branches) (host : σ) (alone : branches host = {setup.config.mainBranch})
    (releases : List (String × FileTree)) (vs : List Version) (read : List.Forall₂ (Releases setup) releases vs)
    (begins : BeginsLines vs) :
    let ended := series runner setup releases host
    (List.Forall₂ Entered vs ended ↔
      (∀ v ∈ vs, v.branch ≠ setup.config.mainBranch) ∧ vs.Pairwise fun w v => w.SameLine v → v.patch ≠ 0) ∧
    (List.Forall₂ Entered vs ended →
      (∀ e ∈ ended, e.1 = .ok ()) ∧
      ∀ before v after, vs = before ++ v :: after →
        branchCommand v =
          if ∃ w ∈ before, w.SameLine v then Git.checkoutCommand v.branch else Git.createCommand v.branch) := by
  intro ended
  have start : branches host = branchesOf setup.config.mainBranch [] := by
    rw [alone]
    ext b
    simp [branchesOf]
  have there : setup.config.mainBranch ∈ branches host := by
    rw [alone]
    exact Set.mem_singleton _
  obtain ⟨entered, endsWell⟩ := series_entered_iff git read there
  have free : ∀ w ∈ ([] : List Version), w.branch ≠ setup.config.mainBranch := by simp
  have enterable := allEnterable_iff free begins
  rw [← start] at enterable
  have passed : List.Forall₂ Entered vs ended ↔
      (∀ v ∈ vs, v.branch ≠ setup.config.mainBranch) ∧ vs.Pairwise fun w v => w.SameLine v → v.patch ≠ 0 := by
    simpa using entered.trans enterable
  refine ⟨passed, fun all => ⟨endsWell (entered.mp all), ?_⟩⟩
  rintro before v after rfl
  obtain ⟨-, pairwise⟩ := passed.mp all
  have once := (List.pairwise_append.mp pairwise).2.2
  by_cases earlier : ∃ w ∈ before, w.SameLine v
  · obtain ⟨w, member, same⟩ := earlier
    have patch : v.patch ≠ 0 := once w member v List.mem_cons_self same
    rw [if_pos ⟨w, member, same⟩, branchCommand, if_pos (by simpa [Version.isPatch] using patch)]
  · have patch : v.patch = 0 := begins before v after rfl fun w member same => earlier ⟨w, member, same⟩
    rw [if_neg earlier, branchCommand, if_neg (by simp [Version.isPatch, patch])]

def branchRunner : Runner (List String) := fun c files host =>
  let refused := Failure.commandFailed c.line "exit code 128"
  let answer (outcome : Except Failure Output) (host : List String) : Answer (List String) :=
    { reply := { outcome, seconds := 0 }, notices := [], files, host }
  match c.argv with
  | ["git", "checkout", "-b", b] =>
    if b ∈ host then answer (.error refused) host else answer (.ok (Output.ofText "")) (b :: host)
  | ["git", "checkout", b] =>
    if b ∈ host then answer (.ok (Output.ofText "")) host else answer (.error refused) host
  | _ => answer (.ok (Output.ofText "")) host

theorem branchRunner_create (b : String) (files : FileTree) (host : List String) :
    ((branchRunner (Git.createCommand b) files host).reply.Succeeds ↔ b ∉ host) ∧
      (branchRunner (Git.createCommand b) files host).host = if b ∈ host then host else b :: host := by
  have argv : (Git.createCommand b).argv = ["git", "checkout", "-b", b] := rfl
  simp only [branchRunner, argv]
  by_cases member : b ∈ host <;> simp [member, Reply.Succeeds]

theorem branchRunner_checkout (b : String) (files : FileTree) (host : List String) :
    (branchRunner (Git.checkoutCommand b) files host).reply.Succeeds ↔ b ∈ host := by
  have argv : (Git.checkoutCommand b).argv = ["git", "checkout", b] := rfl
  simp only [branchRunner, argv]
  by_cases member : b ∈ host <;> simp [member, Reply.Succeeds]

theorem branchRunner_host {c : Command} (other : ∀ b, c.argv ≠ (Git.createCommand b).argv) (files : FileTree)
    (host : List String) : (branchRunner c files host).host = host := by
  unfold branchRunner
  dsimp only
  split
  · next b same => exact absurd same (other b)
  · split <;> rfl
  · rfl

theorem branchRunner_files (c : Command) (files : FileTree) (host : List String) :
    (branchRunner c files host).files = files := by
  unfold branchRunner
  dsimp only
  split
  · split <;> rfl
  · split <;> rfl
  · rfl

theorem branching_branchRunner (setup : Setup) : branchRunner.Branching setup fun host => {b | b ∈ host} where
  clean files host := ⟨Output.ofText "", rfl, by decide⟩
  creates b files host := (branchRunner_create b files host).1
  enters := branchRunner_checkout
  succeeds c files host other := by
    unfold branchRunner
    dsimp only
    split
    · next b same => exact absurd same (other b).1
    · next b same => exact absurd same (other b).2
    · exact ⟨_, rfl⟩
  created b files host := by
    rw [(branchRunner_create b files host).2]
    split
    · next member => exact (Set.insert_eq_of_mem (s := {b | b ∈ host}) member).symm
    · ext other
      exact List.mem_cons
  kept c files host other := by rw [branchRunner_host other]
  ready c files host ready := by rwa [branchRunner_files]

def seriesFiles : FileTree :=
  { workingDirectory := []
    entries := [(["manifest"], .file "image: metallb/speaker:main\n".toUTF8),
      (["version"], .file "version = 0\n".toUTF8)] }

def seriesSetup : Setup :=
  { workspace := ""
    config := { Config.default with manifest := "manifest", versionFile := "version" }
    dryRun := false }

theorem ready_seriesFiles : seriesFiles.Ready seriesSetup where
  manifest := FileTree.editable_iff.mpr
    ⟨["manifest"], "image: metallb/speaker:main\n", by decide +kernel, rfl, by simp [seriesFiles]⟩
  versionFile := FileTree.editable_iff.mpr
    ⟨["version"], "version = 0\n", by decide +kernel, rfl, by simp [seriesFiles]⟩

def candidate : Version := ⟨0, 10, 0, ["rc".toList, "1".toList], []⟩

def plain (major minor patch : Nat) : Version := ⟨major, minor, patch, [], []⟩

theorem series_lines_interleaved :
    let vs := [plain 0 10 0, plain 0 11 0, plain 0 10 1]
    let releases := ["0.10.0", "0.11.0", "0.10.1"].map fun text => (text, seriesFiles)
    List.Forall₂ (Releases seriesSetup) releases vs ∧ BeginsLines vs ∧
      List.Forall₂ Entered vs (series branchRunner seriesSetup releases ["main"]) ∧
      ∀ e ∈ series branchRunner seriesSetup releases ["main"], e.1 = .ok () := by
  intro vs releases
  have read : List.Forall₂ (Releases seriesSetup) releases vs :=
    .cons ⟨by decide +kernel, ready_seriesFiles⟩ (.cons ⟨by decide +kernel, ready_seriesFiles⟩
      (.cons ⟨by decide +kernel, ready_seriesFiles⟩ .nil))
  have begins : BeginsLines vs := by
    rintro (_ | ⟨a, _ | ⟨b, _ | ⟨c, before⟩⟩⟩) v after split first
    · obtain ⟨rfl, -⟩ := List.cons.inj split
      rfl
    · obtain ⟨rfl, -⟩ := List.cons.inj (List.cons.inj split).2
      rfl
    · obtain ⟨rfl, rest⟩ := List.cons.inj split
      obtain ⟨rfl, -⟩ := List.cons.inj (List.cons.inj rest).2
      exact absurd ⟨rfl, rfl⟩ (first _ List.mem_cons_self)
    · simp [vs] at split
  obtain ⟨passed, endsWell⟩ := series_lines branchRunner seriesSetup _ (branching_branchRunner seriesSetup) ["main"]
    (by ext b; simp [seriesSetup, Config.default]) releases vs read begins
  have entered := passed.mpr ⟨by decide +kernel, by decide +kernel⟩
  exact ⟨read, begins, entered, (endsWell entered).1⟩

/-- A candidate creates the branch of its line, and the version that it is a candidate for cannot create it again. -/
theorem series_stopped_candidate :
    let vs := [candidate, plain 0 10 0]
    let releases := ["0.10.0-rc.1", "0.10.0"].map fun text => (text, seriesFiles)
    branchRunner.Branching seriesSetup (fun host => {b | b ∈ host}) ∧
      List.Forall₂ (Releases seriesSetup) releases vs ∧ vs.Pairwise (fun v w => Version.compare v w = .lt) ∧
      BeginsLines vs ∧
      (series branchRunner seriesSetup releases ["main"]).map (·.1) =
        [.ok (), .error (.branchFailed "Command execution failed: git checkout -b v0.10 - exit code 128")] ∧
      ¬List.Forall₂ Entered vs (series branchRunner seriesSetup releases ["main"]) := by
  intro vs releases
  have git := branching_branchRunner seriesSetup
  have read : List.Forall₂ (Releases seriesSetup) releases vs :=
    .cons ⟨by decide +kernel, ready_seriesFiles⟩ (.cons ⟨by decide +kernel, ready_seriesFiles⟩ .nil)
  have zero : ∀ v ∈ vs, v.patch = 0 := by decide +kernel
  have begins : BeginsLines vs := by
    intro before v after split _
    exact zero v (split ▸ List.mem_append_right before List.mem_cons_self)
  refine ⟨git, read, by decide +kernel, begins, by decide +kernel, ?_⟩
  rw [(series_entered_iff git read (by simp [seriesSetup, Config.default])).1]
  rintro ⟨-, second, -⟩
  have shared : (plain 0 10 0).branch = candidate.branch := Version.branch_eq_iff.mpr ⟨rfl, rfl⟩
  rw [Version.Enterable, if_neg (by decide), shared] at second
  exact second (Set.mem_insert _ _)

end Plan

end ImageRelease
