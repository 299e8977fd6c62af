import ImageRelease.CommandLine.Reading
import ImageRelease.Proofs.Except

/-! Words without verbosity. The words and letters that settle how much is shown can be left out of what is read at a
level: the rest is read as before. The reading of the shorter line may be one step behind, since what is left
out would have had the value of the option before it looked at.
-/
namespace ImageRelease.CommandLine

variable {l : Level} {p : Parameter} {value word : String} {words : List String}

def Parameter.isVerbosity : Parameter → Bool
  | verbose | quiet => true
  | _ => false

def isVerbosityName (name : String) : Bool := name == Parameter.verbose.long || name == Parameter.quiet.long

def isVerbosityLetter (c : Char) : Bool := c == 'v' || c == 'q'

theorem Parameter.takesValue_of_isVerbosity (settles : p.isVerbosity = true) : p.takesValue = false := by
  cases p <;> first | rfl | contradiction

theorem Parameter.isVerbosity_of_takesValue (takes : p.takesValue = true) : p.isVerbosity = false := by
  cases p <;> first | rfl | contradiction

theorem isVerbosityName_of_ofLong? {name : String} (found : l.ofLong? name = some p) :
    isVerbosityName name = p.isVerbosity := by
  have named : p.long = name := by simpa using List.find?_some found
  rw [← named]
  cases p <;> decide

def spared (word : String) : List String :=
  match Word.ofChars word.toList with
  | .long name none => if isVerbosityName name then [] else [word]
  | .letters letters =>
    match letters.dropWhile isVerbosityLetter with
    | [] => []
    | c :: rest => [String.ofList ('-' :: c :: rest)]
  | _ => [word]

/-- A command line without verbosity. The words after two dashes are no options and stay. -/
def withoutVerbosity : List String → List String
  | [] => []
  | word :: words =>
    match Word.ofChars word.toList with
    | .dashes => word :: words
    | _ => spared word ++ withoutVerbosity words

/-! ### Readings without verbosity -/

section Lookup

variable {β : Type} {entries : List (Parameter × β)}

theorem lookup_filter_of_other (other : p.isVerbosity = false) :
    (entries.filter fun e => !e.1.isVerbosity).lookup p = entries.lookup p := by
  induction entries with
  | nil => rfl
  | cons e entries ih =>
    obtain ⟨q, b⟩ := e
    by_cases same : p = q
    · subst same
      simp [other]
    · have apart : (p == q) = false := by simpa using same
      cases kept : q.isVerbosity <;> simp [List.lookup_cons, kept, apart, ih]

theorem lookup_filter_of_verbosity (settles : p.isVerbosity = true) :
    (entries.filter fun e => !e.1.isVerbosity).lookup p = none := by
  induction entries with
  | nil => rfl
  | cons e entries ih =>
    obtain ⟨q, b⟩ := e
    cases kept : q.isVerbosity with
    | true => simp [kept, ih]
    | false =>
      have apart : (p == q) = false := by
        rw [beq_eq_false_iff_ne]
        rintro rfl
        exact nomatch kept.symm.trans settles
      simp [List.lookup_cons, kept, apart, ih]

end Lookup

namespace Reading

variable {r s : Reading}

def bare (r : Reading) : Reading := { r with given := r.given.filter fun g => !g.1.isVerbosity }

@[simp] theorem bare_pending (r : Reading) : r.bare.pending = r.pending := rfl

@[simp] theorem bare_version (r : Reading) : r.bare.version = r.version := rfl

theorem has_bare (other : p.isVerbosity = false) : r.bare.has p = r.has p := by
  simp [has, get?, bare, lookup_filter_of_other other]

theorem filter_collect (other : p.isVerbosity = false) (values : List String)
    (given : List (Parameter × List String)) :
    (collect p values given).filter (fun g => !g.1.isVerbosity) =
      collect p values (given.filter fun g => !g.1.isVerbosity) := by
  induction given with
  | nil => simp [collect, other]
  | cons g given ih =>
    obtain ⟨q, old⟩ := g
    by_cases same : q = p
    · subst same
      simp [collect, other]
    · cases kept : q.isVerbosity <;> simp [collect, same, kept, ih]

theorem give_bare (other : p.isVerbosity = false) (given : r.give p value = .ok s) :
    r.bare.give p value = .ok s.bare := by
  unfold give at given ⊢
  rw [has_bare other]
  split at given
  · contradiction
  · split at given
    · contradiction
    · obtain rfl := Except.ok.inj given
      simp [*, bare, filter_collect other]

theorem give_eq (given : r.give p value = .ok s) :
    s = { r with given := collect p (valuesOf p value) r.given } := by
  unfold give at given
  split at given
  · contradiction
  · split at given
    · contradiction
    · exact (Except.ok.inj given).symm

theorem settle_of_none (none : r.pending = none) : r.settle = .ok r := by
  rw [settle, none]

theorem settle_pending (settled : r.settle = .ok s) : s.pending = none := by
  unfold settle at settled
  split at settled
  · next none =>
    obtain rfl := Except.ok.inj settled
    exact none
  · contradiction
  · rw [give_eq settled]

theorem settle_version (settled : r.settle = .ok s) : s.version = r.version := by
  unfold settle at settled
  split at settled
  · rw [Except.ok.inj settled]
  · contradiction
  · rw [give_eq settled]

/-- What waits for its value does not settle how much is shown. -/
def Plain (r : Reading) : Prop := ∀ waiting ∈ r.pending, waiting.1.isVerbosity = false

theorem plain_of_none (none : r.pending = none) : r.Plain := by
  simp [Plain, none]

theorem settle_bare (plain : r.Plain) (settled : r.settle = .ok s) : r.bare.settle = .ok s.bare := by
  unfold settle at settled ⊢
  rw [bare_pending]
  split at settled
  · obtain rfl := Except.ok.inj settled
    rfl
  · contradiction
  · next waiting => exact give_bare (plain _ waiting) settled

/-- A reading of the words without verbosity is where the one of all words is, or has yet to look at the value of
the last option. -/
structure Trails (r behind : Reading) : Prop where
  plain : r.Plain
  reach : behind = r.bare ∨ r.pending = none ∧ behind.settle = .ok r.bare

namespace Trails

variable {behind : Reading}

theorem settle (trails : Trails r behind) (settled : r.settle = .ok s) : behind.settle = .ok s.bare := by
  rcases trails.reach with rfl | ⟨none, reached⟩
  · exact settle_bare trails.plain settled
  · rw [settle_of_none none] at settled
    obtain rfl := Except.ok.inj settled
    exact reached

theorem refl_bare (none : s.pending = none) : Trails s s.bare := ⟨plain_of_none none, .inl rfl⟩

theorem awaitsValue (trails : Trails r behind) : behind.awaitsValue = r.awaitsValue := by
  rcases trails.reach with rfl | ⟨none, reached⟩
  · rfl
  · unfold Reading.settle at reached
    split at reached
    · next same => simp [Reading.awaitsValue, none, same]
    · contradiction
    · next found => simp [Reading.awaitsValue, none, found]

theorem supply (trails : Trails r behind) (waits : r.awaitsValue = true) (word : String) :
    Trails (r.supply word) (behind.supply word) := by
  refine ⟨?_, ?_⟩
  · intro waiting there
    obtain ⟨earlier, found, rfl⟩ := Option.map_eq_some_iff.mp there
    exact trails.plain earlier found
  · rcases trails.reach with rfl | ⟨none, -⟩
    · exact .inl rfl
    · simp [Reading.awaitsValue, none] at waits

theorem raise_verbosity (trails : Trails r behind) (settles : p.isVerbosity = true) (raised : r.raise p = .ok s) :
    Trails s behind := by
  obtain ⟨t, settled, raised⟩ := except_bind_ok.mp raised
  have none := settle_pending settled
  have same : s = { t with given := t.given ++ [(p, [])] } := by
    cases p <;> simp [Parameter.isVerbosity] at settles <;> dsimp only at raised <;> split at raised <;>
      first
      | contradiction
      | exact (Except.ok.inj raised).symm
  have bare : s.bare = t.bare := by simp [same, Reading.bare, settles]
  refine ⟨plain_of_none (by rw [same]; exact none), .inr ⟨by rw [same]; exact none, ?_⟩⟩
  rw [bare]
  exact trails.settle settled

theorem raise (trails : Trails r behind) (other : p.isVerbosity = false) (raised : r.raise p = .ok s) :
    ∃ t, behind.raise p = .ok t ∧ Trails s t := by
  obtain ⟨t, settled, raised⟩ := except_bind_ok.mp raised
  have none := settle_pending settled
  refine ⟨s.bare, except_bind_ok.mpr ⟨t.bare, trails.settle settled, ?_⟩, refl_bare ?_⟩
  · rw [has_bare other]
    split at raised
    · contradiction
    · contradiction
    · split at raised
      · contradiction
      · obtain rfl := Except.ok.inj raised
        simp [*, Reading.bare, pure, Except.pure]
  · split at raised
    · contradiction
    · contradiction
    · split at raised
      · contradiction
      · obtain rfl := Except.ok.inj raised
        exact none

theorem attach (trails : Trails r behind) (other : p.isVerbosity = false) (attached : r.attach p value = .ok s) :
    ∃ t, behind.attach p value = .ok t ∧ Trails s t := by
  obtain ⟨t, settled, given⟩ := except_bind_ok.mp attached
  refine ⟨s.bare, except_bind_ok.mpr ⟨t.bare, trails.settle settled, give_bare other given⟩, refl_bare ?_⟩
  have none := settle_pending settled
  rw [give_eq given]
  exact none

theorem await (trails : Trails r behind) (other : p.isVerbosity = false) (awaited : r.await p = .ok s) :
    ∃ t, behind.await p = .ok t ∧ Trails s t := by
  obtain ⟨t, settled, waiting⟩ := except_bind_ok.mp awaited
  obtain rfl := Except.ok.inj waiting
  refine ⟨_, except_bind_ok.mpr ⟨t.bare, trails.settle settled, rfl⟩, ?_, .inl rfl⟩
  intro found there
  obtain rfl := Option.some.inj there
  exact other

theorem version (trails : Trails r behind) : behind.version = r.version := by
  rcases trails.reach with rfl | ⟨-, reached⟩
  · rfl
  · exact (settle_version reached).symm

theorem place (trails : Trails r behind) {dashed : Bool} (placed : r.place l dashed word = .ok s) :
    ∃ t, behind.place l dashed word = .ok t ∧ Trails s t := by
  unfold Reading.place at placed ⊢
  rw [trails.version]
  split at placed
  · next takes =>
    obtain ⟨t, settled, placed⟩ := except_bind_ok.mp placed
    obtain rfl := Except.ok.inj placed
    have none := settle_pending settled
    rw [if_pos takes]
    exact ⟨_, except_bind_ok.mpr ⟨t.bare, trails.settle settled, rfl⟩, plain_of_none none, .inl rfl⟩
  · contradiction

theorem takeLong_verbosity {name : String} (trails : Trails r behind) (settles : isVerbosityName name = true)
    (taken : r.takeLong l word name none = .ok s) : Trails s behind := by
  unfold Reading.takeLong at taken
  split at taken
  · contradiction
  · next p found =>
    rw [isVerbosityName_of_ofLong? found] at settles
    rw [p.takesValue_of_isVerbosity settles] at taken
    exact trails.raise_verbosity settles taken

theorem takeLong_other {name : String} {value : Option String} (trails : Trails r behind)
    (other : isVerbosityName name = false ∨ value.isSome) (taken : r.takeLong l word name value = .ok s) :
    ∃ t, behind.takeLong l word name value = .ok t ∧ Trails s t := by
  unfold Reading.takeLong at taken ⊢
  split at taken
  · contradiction
  · next p found =>
    split at taken
    · next takes => exact trails.attach (p.isVerbosity_of_takesValue takes) taken
    · next takes => exact trails.await (p.isVerbosity_of_takesValue takes) taken
    · contradiction
    · rcases other with other | given
      · exact trails.raise (isVerbosityName_of_ofLong? found ▸ other) taken
      · contradiction

theorem raise_answer (asked : p = .help ∨ p = .version) : r.raise p ≠ .ok s := by
  intro raised
  obtain ⟨t, -, raised⟩ := except_bind_ok.mp raised
  rcases asked with rfl | rfl <;> contradiction

theorem letter_cases {c : Char} (found : l.ofShort? c = some p) :
    p.isVerbosity = isVerbosityLetter c ∧ c ≠ '-' ∧
      (p.isVerbosity = true ∨ p = .workspace ∨ p = .help ∨ p = .version) := by
  have named : p.short? = some c := by simpa using List.find?_some found
  cases p <;> simp [Parameter.short?] at named <;> subst named <;> decide

/-- A letter other than those of verbosity takes what stands behind it as its value, or else waits for the next word. -/
theorem takeLetters_other {c : Char} {rest : List Char} (other : isVerbosityLetter c = false)
    (taken : r.takeLetters l word (c :: rest) = .ok s) :
    c ≠ '-' ∧ ∃ take, (take = Reading.await .workspace ∨ ∃ value, take = Reading.attach .workspace value) ∧
      ∀ (r : Reading) (word : String), r.takeLetters l word (c :: rest) = take r := by
  rw [Reading.takeLetters] at taken
  split at taken
  · contradiction
  · next p found =>
    obtain ⟨settles, undashed, known⟩ := letter_cases found
    rw [other] at settles
    refine ⟨undashed, ?_⟩
    rcases known with known | rfl | rfl | rfl
    · exact nomatch known.symm.trans settles
    · have takes : Parameter.workspace.takesValue = true := rfl
      simp only [Reading.takeLetters, found, takes, if_true]
      split
      · exact ⟨_, .inl rfl, fun _ _ => rfl⟩
      · exact ⟨_, .inr ⟨_, rfl⟩, fun _ _ => rfl⟩
      · exact ⟨_, .inr ⟨_, rfl⟩, fun _ _ => rfl⟩
    · obtain ⟨t, raised, -⟩ := except_bind_ok.mp taken
      exact absurd raised (raise_answer (.inl rfl))
    · obtain ⟨t, raised, -⟩ := except_bind_ok.mp taken
      exact absurd raised (raise_answer (.inr rfl))

/-- The letters of verbosity move the reading of all words only, and the letters behind them move both. -/
theorem takeLetters {letters : List Char} (trails : Trails r behind) (other : String)
    (taken : r.takeLetters l word letters = .ok s) :
    match letters.dropWhile isVerbosityLetter with
    | [] => Trails s behind
    | c :: rest => c ≠ '-' ∧ ∃ t, behind.takeLetters l other (c :: rest) = .ok t ∧ Trails s t := by
  induction letters generalizing r with
  | nil =>
    obtain rfl := Except.ok.inj taken
    exact trails
  | cons c letters ih =>
    cases verbosity : isVerbosityLetter c with
    | true =>
      rw [Reading.takeLetters] at taken
      split at taken
      · contradiction
      · next p found =>
        have settles := (letter_cases found).1.trans verbosity
        rw [p.takesValue_of_isVerbosity settles] at taken
        obtain ⟨t, raised, taken⟩ := except_bind_ok.mp taken
        rw [List.dropWhile_cons_of_pos verbosity]
        exact ih (trails.raise_verbosity settles raised) taken
    | false =>
      obtain ⟨undashed, take, kinds, same⟩ := takeLetters_other verbosity taken
      rw [List.dropWhile_cons_of_neg (by simp [verbosity])]
      refine ⟨undashed, ?_⟩
      rw [same] at taken ⊢
      rcases kinds with rfl | ⟨value, rfl⟩
      · exact trails.await rfl taken
      · exact trails.attach rfl taken

end Trails

end Reading

/-! ### Levels without verbosity -/

open Reading

variable {r s behind : Reading} {stop : Option Stop}

def Stop.bare : Stop → Stop
  | .subcommand s words => .subcommand s (withoutVerbosity words)
  | .help words => .help (withoutVerbosity words)

theorem readPlain_trails (trails : Trails r behind) (read : readPlain l r words = .ok s) :
    ∃ t, readPlain l behind words = .ok t ∧ Trails s t := by
  induction words generalizing r behind with
  | nil =>
    obtain rfl := Except.ok.inj read
    exact ⟨behind, rfl, trails⟩
  | cons word words ih =>
    obtain ⟨next, placed, read⟩ := except_bind_ok.mp read
    obtain ⟨t, placedToo, trails⟩ := trails.place placed
    obtain ⟨ended, readToo, trails⟩ := ih trails read
    exact ⟨ended, except_bind_ok.mpr ⟨t, placedToo, readToo⟩, trails⟩

theorem ofChars_letters {c : Char} {rest : List Char} (undashed : c ≠ '-') :
    Word.ofChars ('-' :: c :: rest) = .letters (c :: rest) := by
  unfold Word.ofChars
  split <;> simp_all

/-- What is read of words is read of them without verbosity, where the reading stops at the same place. -/
theorem readWords_trails (trails : Trails r behind) (read : readWords l r words = .ok (s, stop)) :
    ∃ t, readWords l behind (withoutVerbosity words) = .ok (t, stop.map Stop.bare) ∧ Trails s t := by
  induction words generalizing r behind with
  | nil =>
    obtain ⟨rfl, rfl⟩ := Prod.mk.inj (Except.ok.inj read)
    exact ⟨behind, rfl, trails⟩
  | cons word words ih =>
    rw [readWords] at read
    cases kind : Word.ofChars word.toList with
    | dashes =>
      simp only [kind] at read
      obtain ⟨ended, plain, same⟩ := except_bind_ok.mp read
      obtain ⟨rfl, rfl⟩ := Prod.mk.inj (Except.ok.inj same)
      obtain ⟨t, plainToo, trails⟩ := readPlain_trails trails plain
      simp only [withoutVerbosity, kind, readWords, plainToo]
      exact ⟨t, rfl, trails⟩
    | long name value =>
      simp only [kind] at read
      obtain ⟨next, taken, later⟩ := except_bind_ok.mp read
      by_cases left : isVerbosityName name = true ∧ value = none
      · obtain ⟨settles, rfl⟩ := left
        simpa [withoutVerbosity, spared, kind, settles] using ih (trails.takeLong_verbosity settles taken) later
      · have other : isVerbosityName name = false ∨ value.isSome := by
          cases value <;> simp_all
        have kept : spared word = [word] := by
          cases value <;> simp_all [spared]
        obtain ⟨t, takenToo, trails⟩ := trails.takeLong_other other taken
        obtain ⟨ended, readToo, trails⟩ := ih trails later
        simp only [withoutVerbosity, kind, kept, List.singleton_append, readWords, takenToo]
        exact ⟨ended, readToo, trails⟩
    | letters letters =>
      simp only [kind] at read
      obtain ⟨next, taken, later⟩ := except_bind_ok.mp read
      have moved (other : String) := trails.takeLetters other taken
      cases rest : letters.dropWhile isVerbosityLetter with
      | nil =>
        simp only [rest] at moved
        simpa [withoutVerbosity, spared, kind, rest] using ih (moved word) later
      | cons c letters =>
        simp only [rest] at moved
        obtain ⟨undashed, t, takenToo, trails⟩ := moved (String.ofList ('-' :: c :: letters))
        obtain ⟨ended, readToo, trails⟩ := ih trails later
        simp only [withoutVerbosity, spared, kind, rest, List.singleton_append, readWords, String.toList_ofList,
          ofChars_letters undashed, takenToo]
        exact ⟨ended, readToo, trails⟩
    | plain =>
      simp only [kind] at read
      have stopped : stop? l behind word (withoutVerbosity words) = (stop? l r word words).map Stop.bare := by
        simp only [stop?, trails.awaitsValue]
        split
        · rfl
        · split
          · rfl
          · cases Subcommand.ofName? word <;> rfl
      simp only [withoutVerbosity, spared, kind, List.singleton_append, readWords, stopped, trails.awaitsValue]
      cases ends : stop? l r word words with
      | some found =>
        simp only [ends] at read
        obtain ⟨rfl, rfl⟩ := Prod.mk.inj (Except.ok.inj read)
        exact ⟨behind, rfl, trails⟩
      | none =>
        simp only [ends] at read
        dsimp only [Option.map_none]
        split at read
        · next waits =>
          rw [if_pos waits]
          exact ih (trails.supply waits word) read
        · next free =>
          obtain ⟨next, placed, later⟩ := except_bind_ok.mp read
          obtain ⟨t, placedToo, trails⟩ := trails.place placed
          obtain ⟨ended, readToo, trails⟩ := ih trails later
          rw [if_neg free, placedToo]
          exact ⟨ended, readToo, trails⟩

end ImageRelease.CommandLine
