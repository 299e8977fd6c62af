import ImageRelease.Config.Load
import ImageRelease.Proofs.Version.Grammar

/-! Limits from environment variables. A variable that asks for a number of seconds gives its limit that number, cut to
the ceiling of the limit, as long as the number is below the bound. All else is as the document says, or its default.
-/
namespace ImageRelease

namespace Config

variable {env : Environment} {files : FileTree} {path value : String} {own config : Config} {n : Nat} {f : LimitField}

/-- A variable asks for a number: between blanks it has nothing but the decimal digits of it. -/
structure Asks (value : String) (n : Nat) : Prop where
  present : (Text.trim value).toList ≠ []
  decimal : ∀ c ∈ (Text.trim value).toList, c.isDigit = true
  meant : Nat.ofDigitChars 10 (Text.trim value).toList 0 = n

/-- The configuration before variables are looked at: the default one, or that of the document. -/
inductive Own (files : FileTree) (path : String) : Config → Prop where
  | absent (absent : files.pathExists path = false) : Own files path default
  | document {text : String} {config : Config} (present : files.pathExists path = true)
      (read : files.readText path = .ok text) (parsed : parse text = .ok config) : Own files path config

theorem readFrom_ok_iff : readFrom files path = .ok own ↔ Own files path own := by
  unfold readFrom
  constructor
  · intro read
    split at read
    · next present =>
      split at read
      · contradiction
      · next text found =>
        cases parsed : parse text with
        | error fault => simp [parsed, Except.mapError] at read
        | ok config =>
          rw [parsed] at read
          obtain rfl := Except.ok.inj read
          exact .document present found parsed
    · next absent =>
      obtain rfl := Except.ok.inj read
      exact .absent (by simpa using absent)
  · rintro (absent | ⟨present, read, parsed⟩)
    · simp [absent]
    · simp [present, read, parsed, Except.mapError]

theorem load_ok_iff : load files env path = .ok config ↔ ∃ own, Own files path own ∧ config = overridden env own := by
  simp only [← readFrom_ok_iff, load]
  cases readFrom files path with
  | error failure => simp [Except.map]
  | ok own => simp [Except.map, eq_comm]

theorem requestedSeconds?_of_asks (asks : Asks value n) :
    requestedSeconds? value = if n < Version.numberBound then some n else none := by
  obtain ⟨present, decimal, rfl⟩ := asks
  rw [Text.toList_trim] at *
  have unsigned : dropPlus (Text.trimChars value.toList) = Text.trimChars value.toList := by
    unfold dropPlus
    split
    · next s signed =>
      rw [signed] at decimal
      exact absurd (decimal '+' List.mem_cons_self) (by decide)
    · rfl
  have all : (Text.trimChars value.toList).all Char.isDigit = true := List.all_eq_true.mpr decimal
  simp [requestedSeconds?, unsigned, present, all, Version.digitsValue_eq]

theorem get_overrideLimit (env : Environment) (limits : Limits) (f g : LimitField) :
    (overrideLimit env limits g).get f =
      if f = g then ((env.get? g.overrideName).bind requestedSeconds?).elim (limits.get f) (min · g.ceiling)
      else limits.get f := by
  unfold overrideLimit
  split
  · next n asked => rw [Limits.get_set, asked, Option.elim_some]
  · next unasked => rw [unasked, Option.elim_none, ite_self]

theorem get_limits_overridden (env : Environment) (own : Config) (f : LimitField) :
    (overridden env own).limits.get f =
      ((env.get? f.overrideName).bind requestedSeconds?).elim (own.limits.get f) (min · f.ceiling) := by
  simp only [overridden, LimitField.all, List.foldl_cons, List.foldl_nil, get_overrideLimit]
  cases f <;> simp

theorem get_overridden (env : Environment) (own : Config) (f : TextField) :
    (overridden env own).get f = own.get f := by
  cases f <;> rfl

/-- The texts are those of the document, or the default ones, whatever the variables hold. A limit is so too when its
variable is not set. When its variable asks for a number, the limit is the lower one of the number and the ceiling if and
only if the number is below the bound, or the ceiling is what the document says. Otherwise the variable is left alone. -/
theorem limits_overridden (loaded : load files env path = .ok config) :
    ∃ own, Own files path own ∧ (∀ f : TextField, config.get f = own.get f) ∧ ∀ f : LimitField,
      (env.get? f.overrideName = none → config.limits.get f = own.limits.get f) ∧
      ∀ value n, env.get? f.overrideName = some value → Asks value n →
        (config.limits.get f = min n f.ceiling ↔ n < Nat.pow 2 64 ∨ own.limits.get f = f.ceiling) ∧
        (Nat.pow 2 64 ≤ n → config.limits.get f = own.limits.get f) := by
  obtain ⟨own, origin, rfl⟩ := load_ok_iff.mp loaded
  refine ⟨own, origin, get_overridden env own, fun f => ⟨fun unset => ?_, fun value n set asks => ?_⟩⟩
  · rw [get_limits_overridden, unset]
    rfl
  · rw [get_limits_overridden, set, Option.bind_some, requestedSeconds?_of_asks asks]
    have bound : Version.numberBound = Nat.pow 2 64 := rfl
    rw [bound]
    have ceiling : f.ceiling ≤ Nat.pow 2 64 := by cases f <;> decide
    by_cases small : n < Nat.pow 2 64
    · rw [if_pos small, Option.elim_some]
      exact ⟨⟨fun _ => .inl small, fun _ => rfl⟩, fun great => absurd small (Nat.not_lt.mpr great)⟩
    · have cut : min n f.ceiling = f.ceiling := Nat.min_eq_right (ceiling.trans (Nat.not_lt.mp small))
      rw [if_neg small, Option.elim_none, cut]
      exact ⟨⟨.inr, fun either => either.resolve_left small⟩, fun _ => rfl⟩

def limitedFiles : FileTree :=
  { workingDirectory := [], entries := [(["tasks"], .file "timeouts.command_secs = 9\n".toUTF8)] }

def requests : Environment :=
  [(Environment.buildLimit, " 007200\t"), (Environment.commandLimit, "18446744073709551616")]

theorem limits_overridden_padded :
    ∃ config own, load limitedFiles requests "tasks" = .ok config ∧ Own limitedFiles "tasks" own ∧
      Asks " 007200\t" 7200 ∧ Asks "18446744073709551616" (Nat.pow 2 64) ∧ config.mainBranch = own.mainBranch ∧
      config.limits.buildSeconds = 7200 ∧ config.limits.commandSeconds = own.limits.commandSeconds := by
  have loads : (load limitedFiles requests "tasks").toOption.isSome = true := by decide +kernel
  obtain ⟨config, loaded⟩ := Option.isSome_iff_exists.mp loads
  have loaded := except_toOption_eq_some.mp loaded
  have padded : Asks " 007200\t" 7200 :=
    ⟨by decide +kernel, List.all_eq_true.mp (by decide +kernel), by decide +kernel⟩
  have great : Asks "18446744073709551616" (Nat.pow 2 64) :=
    ⟨by decide +kernel, List.all_eq_true.mp (by decide +kernel), by decide +kernel⟩
  obtain ⟨own, origin, texts, limits⟩ := limits_overridden loaded
  have build := ((limits .buildSeconds).2 _ _ rfl padded).1.mpr (.inl (by decide))
  have command := ((limits .commandSeconds).2 _ _ (by decide) great).2 (Nat.le_refl _)
  exact ⟨config, own, loaded, origin, padded, great, texts .mainBranch, build, command⟩

def noFiles : FileTree := { workingDirectory := [], entries := [] }

/-- A greater number is asked for, and the limit is lower: the one below the bound is cut to the ceiling, and the next
number is dropped. -/
theorem override_beyond_bound_dropped :
    Asks "18446744073709551615" 18446744073709551615 ∧ Asks "18446744073709551616" 18446744073709551616 ∧
    (load noFiles [(Environment.buildLimit, "18446744073709551615")] documentName).toOption.map
      (·.limits.buildSeconds) = some 14400 ∧
    (load noFiles [(Environment.buildLimit, "18446744073709551616")] documentName).toOption.map
      (·.limits.buildSeconds) = some 1800 ∧
    min 18446744073709551616 LimitField.buildSeconds.ceiling = 14400 :=
  ⟨⟨by decide +kernel, List.all_eq_true.mp (by decide +kernel), by decide +kernel⟩,
    ⟨by decide +kernel, List.all_eq_true.mp (by decide +kernel), by decide +kernel⟩,
    by decide +kernel, by decide +kernel, by decide +kernel⟩

end Config

end ImageRelease
