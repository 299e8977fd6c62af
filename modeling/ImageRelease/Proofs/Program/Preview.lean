import ImageRelease.Proofs.Plan.Foretells
import ImageRelease.Proofs.Program.DryRun
import ImageRelease.Proofs.Release.Outcome

/-! What a dry run shows of the run that it stands for. If the questions have the same answers and the run
itself ends well, the dry run ends well after the same commands, and shows the line of each one that it
leaves out.
-/
namespace ImageRelease

variable {α σ τ : Type}

/-- A second run shows what the first one does, if that ends well and the questions are answered alike. -/
def Foretold (ended : Except Failure Unit × Session σ) (preview : Except Failure Unit × Session τ) : Prop :=
  ended.1 = .ok () → AnsweredAlike ended.2.exchanges preview.2.exchanges →
    ChangesSkipped preview.2.exchanges → preview.1 = .ok () ∧ preview.2.commands = ended.2.commands

namespace Plan

variable {setup : Setup} {real : Runner σ} {dry : Runner τ} {files other : FileTree} {host : σ} {guest : τ}

theorem Foretells.foretold {p q : Plan Unit} (foretells : Foretells Eq p q) :
    Foretold (p.run real (.fresh files host)) (q.run dry (.fresh other guest)) := by
  intro ended alike skipped
  have yielded := yields_run_fresh real p files host
  have previewed := yields_run_fresh dry q other guest
  rw [ended] at yielded
  obtain ⟨⟨_, well, rfl⟩, same⟩ := foretells.commands_eq yielded previewed alike skipped
  exact ⟨well, same⟩

end Plan

namespace Program

end Program

end ImageRelease
