import ImageRelease.CommandLine.Arguments
import ImageRelease.Proofs.CommandLine.Words

/-! Command lines without verbosity. A command line that is accepted is accepted still when the words and letters that
settle how much is shown are left out, and asks for the same. The environment gives no verbosity, so nothing
takes their place.
-/
namespace ImageRelease.CommandLine

open Reading

variable {l : Level} {p : Parameter} {env : Environment} {words : List String} {r behind : Reading}

theorem fromEnvironment_bare (env : Environment) (r : Reading) (ps : List Parameter) :
    fromEnvironment env r.bare ps = fromEnvironment env r ps := by
  induction ps with
  | nil => rfl
  | cons p ps ih =>
    cases named : p.environmentName? with
    | none => simp [fromEnvironment, named, ih]
    | some name =>
      have other : p.isVerbosity = false := by cases p <;> first | rfl | contradiction
      simp only [fromEnvironment, has_bare other, ih]

theorem fromEnvironment_other {ps : List Parameter} {values : List (Parameter × Source × List String)}
    (found : fromEnvironment env r ps = .ok values) : ∀ e ∈ values, e.1.isVerbosity = false := by
  induction ps generalizing values with
  | nil =>
    obtain rfl := Except.ok.inj found
    simp
  | cons p ps ih =>
    rw [fromEnvironment] at found
    split at found
    · next value given =>
      have other : p.isVerbosity = false := by cases p <;> first | rfl | contradiction
      split at found
      · exact ih found
      · split at found
        · contradiction
        · cases later : fromEnvironment env r ps with
          | error fault => simp [later, Except.map] at found
          | ok rest =>
            rw [later] at found
            obtain rfl := Except.ok.inj found
            exact List.forall_mem_cons.mpr ⟨other, ih later⟩
    · exact ih found

namespace Matches

variable {m : Matches}

def bare (m : Matches) : Matches := { m with values := m.values.filter fun e => !e.1.isVerbosity }

theorem get?_bare (other : p.isVerbosity = false) : m.bare.get? p = m.get? p := lookup_filter_of_other other

theorem has_bare (other : p.isVerbosity = false) : m.bare.has p = m.has p := by
  rw [has, get?_bare other, has]

theorem value?_bare (other : p.isVerbosity = false) : m.bare.value? p = m.value? p := by
  rw [value?, get?_bare other, value?]

theorem all_bare (other : p.isVerbosity = false) : m.bare.all p = m.all p := by
  rw [all, get?_bare other, all]

theorem has_bare_of_verbosity (settles : p.isVerbosity = true) : m.bare.has p = false := by
  rw [has, get?, bare, lookup_filter_of_verbosity settles]
  rfl

theorem checkVerbosity_bare (m : Matches) : checkVerbosity m.bare = .ok () := by
  simp [checkVerbosity, has_bare_of_verbosity (p := .verbose) rfl]

end Matches

theorem complete_trails {m : Matches} (trails : Trails r behind) (completed : complete l env r = .ok m) :
    complete l env behind = .ok m.bare := by
  obtain ⟨s, settled, completed⟩ := except_bind_ok.mp completed
  obtain ⟨others, found, completed⟩ := except_bind_ok.mp completed
  obtain rfl := Except.ok.inj completed
  have kept : (others.filter fun e => !e.1.isVerbosity) = others := by
    rw [List.filter_eq_self]
    intro e member
    simp [fromEnvironment_other found e member]
  refine except_bind_ok.mpr ⟨s.bare, trails.settle settled, except_bind_ok.mpr ⟨others, ?_, ?_⟩⟩
  · rw [fromEnvironment_bare, found]
  · simp only [pure, Except.pure, Matches.bare, List.filter_append, List.filter_map, kept, Reading.bare]
    rfl

theorem readUnder_bare {s : Subcommand} {m : Matches} (read : readUnder s env words = .ok m) :
    readUnder s env (withoutVerbosity words) = .ok m.bare := by
  obtain ⟨⟨r, stop⟩, readWhole, read⟩ := except_bind_ok.mp read
  obtain ⟨found, completed, read⟩ := except_bind_ok.mp read
  obtain ⟨-, -, read⟩ := except_bind_ok.mp read
  obtain ⟨t, readToo, trails⟩ := readWords_trails (Trails.refl_bare rfl) readWhole
  refine except_bind_ok.mpr ⟨(t, stop.map Stop.bare), readToo,
    except_bind_ok.mpr ⟨found.bare, complete_trails trails completed, ?_⟩⟩
  refine except_bind_ok.mpr ⟨(), found.checkVerbosity_bare, ?_⟩
  split at read
  · contradiction
  · next versioned =>
    obtain rfl := Except.ok.inj read
    exact if_neg versioned

def Levels.bare (ls : Levels) : Levels := { ls with top := ls.top.bare, under := ls.under.bare }

theorem readLevels_bare {ls : Levels} (read : readLevels env words = .ok ls) :
    readLevels env (withoutVerbosity words) = .ok ls.bare := by
  obtain ⟨⟨r, stop⟩, readTop, read⟩ := except_bind_ok.mp read
  obtain ⟨t, readToo, trails⟩ := readWords_trails (Trails.refl_bare rfl) readTop
  refine except_bind_ok.mpr ⟨(t, stop.map Stop.bare), readToo, ?_⟩
  rcases stop with _ | ⟨s, later⟩ | later
  · obtain ⟨_, -, failed⟩ := except_bind_ok.mp read
    contradiction
  · obtain ⟨under, readBelow, read⟩ := except_bind_ok.mp read
    obtain ⟨top, completed, read⟩ := except_bind_ok.mp read
    obtain ⟨-, -, read⟩ := except_bind_ok.mp read
    obtain rfl := Except.ok.inj read
    exact except_bind_ok.mpr ⟨under.bare, readUnder_bare readBelow,
      except_bind_ok.mpr ⟨top.bare, complete_trails trails completed,
        except_bind_ok.mpr ⟨(), top.checkVerbosity_bare, rfl⟩⟩⟩
  · contradiction

theorem Levels.arguments_bare (ls : Levels) :
    ls.bare.arguments = { ls.arguments with verbosity := { verbose := false, quiet := false } } := by
  have value (p : Parameter) (other : p.isVerbosity = false) : ls.bare.value? p = ls.value? p := by
    simp only [Levels.value?, Levels.bare, Matches.get?_bare other]
  have request : ls.bare.request = ls.request := by
    simp only [Levels.request, Levels.imageRequest, Levels.releaseRequest, Levels.bare,
      Matches.all_bare (p := .binaries) rfl, Matches.value?_bare (p := .tag) rfl,
      Matches.value?_bare (p := .dockerUser) rfl, Matches.has_bare (p := .skipTests) rfl,
      Matches.has_bare (p := .skipNotes) rfl]
    rfl
  have has (p : Parameter) (other : p.isVerbosity = false) : ls.bare.has p = ls.has p := by
    simp only [Levels.has, Levels.bare, Matches.has_bare other]
  have hidden (p : Parameter) (settles : p.isVerbosity = true) : ls.bare.has p = false := by
    simp only [Levels.has, Levels.bare, Matches.has_bare_of_verbosity settles, Bool.or_self]
  simp only [Levels.arguments, value .workspace rfl, value .config rfl, request, has .dryRun rfl,
    hidden .verbose rfl, hidden .quiet rfl]

theorem parse_withoutVerbosity {a : Arguments} (accepted : parse env words = .ok a) :
    parse env (withoutVerbosity words) = .ok { a with verbosity := { verbose := false, quiet := false } } := by
  unfold parse at accepted ⊢
  cases read : readLevels env words with
  | error fault => simp [read, Except.map] at accepted
  | ok ls =>
    rw [read] at accepted
    obtain rfl := Except.ok.inj accepted
    rw [readLevels_bare read, ← ls.arguments_bare]
    rfl

/-- Command lines that differ in nothing but verbosity ask for the same. -/
theorem eq_of_withoutVerbosity_eq {others : List String} {a b : Arguments} (accepted : parse env words = .ok a)
    (acceptedToo : parse env others = .ok b) (same : withoutVerbosity words = withoutVerbosity others) :
    b = { a with verbosity := b.verbosity } := by
  have first := parse_withoutVerbosity accepted
  rw [same, parse_withoutVerbosity acceptedToo] at first
  have equal := Except.ok.inj first
  simp only [Arguments.mk.injEq, true_and] at equal
  obtain ⟨workspace, config, dryRun, request⟩ := equal
  cases b
  simp_all

end ImageRelease.CommandLine
