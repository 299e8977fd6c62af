import ImageRelease.Proofs.CommandLine.Verbosity

/-! Verbose and quiet on one command line. The words in front of the subcommand and the words behind it are told apart,
and on either side not both are given. What is given on one side only counts for the whole command line, so both are
accepted together if and only if they are on different sides.
-/
namespace ImageRelease.CommandLine

variable {l : Level} {p q : Parameter} {env : Environment} {value word : String} {words : List String}
  {r s t : Reading} {added more : Parameter → Bool}

/-- Whether words give a parameter of verbosity. Words behind two dashes are no options, and what is behind other
letters is their value. -/
def mentions (p : Parameter) : List String → Bool
  | [] => false
  | word :: words =>
    match Word.ofChars word.toList with
    | .dashes => false
    | .long name none => name == p.long || mentions p words
    | .letters letters => (letters.takeWhile isVerbosityLetter).any (p.short? == some ·) || mentions p words
    | _ => mentions p words

/-! ### One word -/

namespace Reading

/-- A reading goes on, and then these parameters of verbosity are given, too. -/
structure Adds (added : Parameter → Bool) (r s : Reading) : Prop where
  plain : s.Plain
  has : ∀ p : Parameter, p.isVerbosity = true → s.has p = (r.has p || added p)

theorem Adds.trans (first : Adds added r s) (second : Adds more s t) : Adds (fun p => added p || more p) r t :=
  ⟨second.plain, fun p settles => by rw [second.has p settles, first.has p settles, Bool.or_assoc]⟩

theorem Adds.congr (adds : Adds added r s) (same : ∀ p : Parameter, p.isVerbosity = true → added p = more p) :
    Adds more r s :=
  ⟨adds.plain, fun p settles => by rw [adds.has p settles, same p settles]⟩

theorem lookup_collect (other : q ≠ p) (values : List String) (given : List (Parameter × List String)) :
    (collect q values given).lookup p = given.lookup p := by
  have apart : (p == q) = false := beq_eq_false_iff_ne.mpr other.symm
  induction given with
  | nil => simp [collect, List.lookup_cons, apart]
  | cons g given ih =>
    obtain ⟨k, old⟩ := g
    by_cases same : k = q
    · subst same
      simp [collect, List.lookup_cons, apart]
    · simp [collect, List.lookup_cons, same, ih]

theorem ne_of_isVerbosity (settles : p.isVerbosity = true) (other : q.isVerbosity = false) : q ≠ p := by
  rintro rfl
  exact Bool.false_ne_true (other.symm.trans settles)

theorem has_give (settles : p.isVerbosity = true) (other : q.isVerbosity = false) (given : r.give q value = .ok s) :
    s.has p = r.has p := by
  rw [give_eq given, has, get?, lookup_collect (ne_of_isVerbosity settles other)]
  rfl

theorem adds_settle (plain : r.Plain) (settled : r.settle = .ok s) : Adds (fun _ => false) r s := by
  refine ⟨plain_of_none (settle_pending settled), fun p settles => ?_⟩
  rw [Bool.or_false]
  unfold settle at settled
  split at settled
  · rw [Except.ok.inj settled]
  · contradiction
  · next q value waiting =>
    have other : q.isVerbosity = false := plain _ waiting
    have kept := has_give settles other settled
    exact kept

theorem adds_raise (plain : r.Plain) (raised : r.raise q = .ok s) : Adds (fun p => p == q) r s := by
  obtain ⟨t, settled, raised⟩ := except_bind_ok.mp raised
  obtain ⟨-, has⟩ := adds_settle plain settled
  have same : s = { t with given := t.given ++ [(q, [])] } := by
    cases q <;> dsimp only at raised <;> first
      | contradiction
      | split at raised
        · contradiction
        · exact (Except.ok.inj raised).symm
  have none : t.pending = none := settle_pending settled
  rw [same]
  refine ⟨plain_of_none none, fun p settles => ?_⟩
  rw [← Bool.or_false (r.has p), ← has p settles, Reading.has, Reading.has, get?, get?, List.lookup_append]
  cases named : p == q <;> simp [List.lookup_cons, named]

theorem adds_attach (plain : r.Plain) (other : q.isVerbosity = false) (attached : r.attach q value = .ok s) :
    Adds (fun _ => false) r s := by
  obtain ⟨t, settled, given⟩ := except_bind_ok.mp attached
  have first := adds_settle plain settled
  have none : t.pending = none := settle_pending settled
  refine ⟨plain_of_none ?_, fun p settles => ?_⟩
  · rw [give_eq given]
    exact none
  · rw [has_give settles other given, first.has p settles]

theorem adds_await (plain : r.Plain) (other : q.isVerbosity = false) (awaited : r.await q = .ok s) :
    Adds (fun _ => false) r s := by
  obtain ⟨t, settled, waiting⟩ := except_bind_ok.mp awaited
  obtain rfl := Except.ok.inj waiting
  refine ⟨fun found there => ?_, (adds_settle plain settled).has⟩
  obtain rfl := Option.some.inj there
  exact other

theorem adds_supply (plain : r.Plain) (word : String) : Adds (fun _ => false) r (r.supply word) := by
  refine ⟨fun waiting there => ?_, fun p _ => (Bool.or_false _).symm⟩
  obtain ⟨earlier, found, rfl⟩ := Option.map_eq_some_iff.mp there
  exact plain earlier found

theorem adds_place {dashed : Bool} (plain : r.Plain) (placed : r.place l dashed word = .ok s) :
    Adds (fun _ => false) r s := by
  unfold place at placed
  split at placed
  · obtain ⟨t, settled, placed⟩ := except_bind_ok.mp placed
    obtain rfl := Except.ok.inj placed
    obtain ⟨plain, has⟩ := adds_settle plain settled
    exact ⟨plain, has⟩
  · contradiction

theorem adds_takeLong {name : String} {value : Option String} (plain : r.Plain)
    (taken : r.takeLong l word name value = .ok s) : Adds (fun p => value.isNone && name == p.long) r s := by
  unfold takeLong at taken
  split at taken
  · contradiction
  · next q found =>
    have named : q.long = name := by simpa using List.find?_some found
    have same (p : Parameter) : (p == q) = (name == p.long) := by
      rw [← named]
      cases p <;> cases q <;> decide
    have apart (takes : q.takesValue = true) (p : Parameter) (settles : p.isVerbosity = true) :
        (name == p.long) = false := by
      rw [← same, beq_eq_false_iff_ne]
      exact (ne_of_isVerbosity settles (q.isVerbosity_of_takesValue takes)).symm
    split at taken
    · next takes => exact (adds_attach plain (q.isVerbosity_of_takesValue takes) taken).congr fun _ _ => rfl
    · next takes =>
      exact (adds_await plain (q.isVerbosity_of_takesValue takes) taken).congr fun p settles => (apart takes p settles).symm
    · contradiction
    · exact (adds_raise plain taken).congr fun p _ => same p

theorem adds_takeLetters {letters : List Char} (plain : r.Plain) (taken : r.takeLetters l word letters = .ok s) :
    Adds (fun p => (letters.takeWhile isVerbosityLetter).any (p.short? == some ·)) r s := by
  induction letters generalizing r with
  | nil =>
    obtain rfl := Except.ok.inj taken
    exact ⟨plain, fun p _ => (Bool.or_false _).symm⟩
  | cons c letters ih =>
    cases verbosity : isVerbosityLetter c with
    | true =>
      rw [takeLetters] at taken
      split at taken
      · contradiction
      · next q found =>
        have settles := (Trails.letter_cases found).1.trans verbosity
        have named : q.short? = some c := by simpa using List.find?_some found
        rw [q.takesValue_of_isVerbosity settles] at taken
        obtain ⟨t, raised, taken⟩ := except_bind_ok.mp taken
        have first := adds_raise plain raised
        refine (first.trans (ih first.plain taken)).congr fun p settlesToo => ?_
        have same : (p == q) = (p.short? == some c) := by
          rw [← named]
          cases p <;> cases q <;> first | contradiction | decide
        rw [List.takeWhile_cons_of_pos verbosity, List.any_cons, same]
    | false =>
      obtain ⟨-, take, kinds, same⟩ := Trails.takeLetters_other verbosity taken
      rw [List.takeWhile_cons_of_neg (by simp [verbosity])]
      rw [same] at taken
      rcases kinds with rfl | ⟨value, rfl⟩
      · exact adds_await plain rfl taken
      · exact adds_attach plain rfl taken

end Reading

/-! ### The words of a level -/

open Reading

def Stop.rest : Option Stop → List String
  | none => []
  | some (.subcommand s words) => s.name :: words
  | some (.help words) => helpWord :: words

theorem rest_of_stop? {stop : Stop} (stops : stop? l r word words = some stop) :
    Stop.rest (some stop) = word :: words := by
  unfold stop? at stops
  split at stops
  · contradiction
  · split at stops
    · next help =>
      obtain rfl := Option.some.inj stops
      rw [Stop.rest, help]
    · obtain ⟨s, found, rfl⟩ := Option.map_eq_some_iff.mp stops
      have named : s.name = word := by simpa using List.find?_some found
      rw [Stop.rest, named]

theorem adds_readPlain (plain : r.Plain) (read : readPlain l r words = .ok s) : Adds (fun _ => false) r s := by
  induction words generalizing r with
  | nil =>
    obtain rfl := Except.ok.inj read
    exact ⟨plain, fun p _ => (Bool.or_false _).symm⟩
  | cons word words ih =>
    obtain ⟨next, placed, read⟩ := except_bind_ok.mp read
    have first := adds_place plain placed
    exact first.trans (ih first.plain read)

/-- The words in front of where a level stops give what its reading has. Only the top stops before its last word. -/
theorem adds_readWords {stop : Option Stop} (plain : r.Plain) (read : readWords l r words = .ok (s, stop)) :
    ∃ before, words = before ++ Stop.rest stop ∧ (l ≠ .top → stop = none) ∧
      Adds (fun p => mentions p before) r s := by
  induction words generalizing r with
  | nil =>
    obtain ⟨rfl, rfl⟩ := Prod.mk.inj (Except.ok.inj read)
    exact ⟨[], rfl, fun _ => rfl, plain, fun p _ => (Bool.or_false _).symm⟩
  | cons word words ih =>
    rw [readWords] at read
    cases kind : Word.ofChars word.toList with
    | dashes =>
      simp only [kind] at read
      obtain ⟨ended, placed, same⟩ := except_bind_ok.mp read
      obtain ⟨rfl, rfl⟩ := Prod.mk.inj (Except.ok.inj same)
      refine ⟨word :: words, (List.append_nil _).symm, fun _ => rfl, (adds_readPlain plain placed).congr fun p _ => ?_⟩
      simp [mentions, kind]
    | long name value =>
      simp only [kind] at read
      obtain ⟨next, taken, later⟩ := except_bind_ok.mp read
      have first := adds_takeLong plain taken
      obtain ⟨before, rfl, whole, adds⟩ := ih first.plain later
      refine ⟨word :: before, rfl, whole, (first.trans adds).congr fun p _ => ?_⟩
      cases value <;> simp [mentions, kind]
    | letters letters =>
      simp only [kind] at read
      obtain ⟨next, taken, later⟩ := except_bind_ok.mp read
      have first := adds_takeLetters plain taken
      obtain ⟨before, rfl, whole, adds⟩ := ih first.plain later
      refine ⟨word :: before, rfl, whole, (first.trans adds).congr fun p _ => ?_⟩
      simp [mentions, kind]
    | plain =>
      simp only [kind] at read
      cases ends : stop? l r word words with
      | some found =>
        simp only [ends] at read
        obtain ⟨rfl, rfl⟩ := Prod.mk.inj (Except.ok.inj read)
        refine ⟨[], (rest_of_stop? ends).symm, fun under => ?_, plain, fun p _ => (Bool.or_false _).symm⟩
        simp [stop?, under] at ends
      | none =>
        simp only [ends] at read
        have skipped (before : List String) (p : Parameter) :
            (false || mentions p before) = mentions p (word :: before) := by simp [mentions, kind]
        split at read
        · have first := adds_supply plain word
          obtain ⟨before, rfl, whole, adds⟩ := ih first.plain read
          exact ⟨word :: before, rfl, whole, (first.trans adds).congr fun p _ => skipped before p⟩
        · obtain ⟨next, placed, later⟩ := except_bind_ok.mp read
          have first := adds_place plain placed
          obtain ⟨before, rfl, whole, adds⟩ := ih first.plain later
          exact ⟨word :: before, rfl, whole, (first.trans adds).congr fun p _ => skipped before p⟩

theorem has_complete {m : Matches} (plain : r.Plain) (completed : complete l env r = .ok m)
    (settles : p.isVerbosity = true) : m.has p = r.has p := by
  obtain ⟨s, settled, completed⟩ := except_bind_ok.mp completed
  obtain ⟨others, found, completed⟩ := except_bind_ok.mp completed
  obtain rfl := Except.ok.inj completed
  have absent : others.lookup p = none := by
    rw [List.lookup_eq_none_iff]
    intro e member
    have other := ne_of_isVerbosity settles (fromEnvironment_other found e member)
    simpa using other.symm
  have given : (s.given.map fun g => (g.1, Source.words, g.2)).lookup p =
      (s.given.lookup p).map fun values => (Source.words, values) := by
    induction s.given with
    | nil => rfl
    | cons g rest ih =>
      obtain ⟨q, values⟩ := g
      cases same : p == q <;> simp [List.lookup_cons, same, ih]
  have kept := (adds_settle plain settled).has p settles
  rw [Bool.or_false] at kept
  rw [← kept, Matches.has, Matches.get?, List.lookup_append, absent, Option.or_none, given, Option.isSome_map]
  rfl

theorem not_both_of_checkVerbosity {m : Matches} (checked : checkVerbosity m = .ok ()) :
    ¬(m.has .verbose = true ∧ m.has .quiet = true) := by
  unfold checkVerbosity at checked
  split at checked
  · contradiction
  · simp_all

structure Accords (m : Matches) (words : List String) : Prop where
  has : ∀ p : Parameter, p.isVerbosity = true → m.has p = mentions p words
  exclusive : ¬(mentions .verbose words = true ∧ mentions .quiet words = true)

theorem plain_empty : Reading.empty.Plain := plain_of_none rfl

theorem accords_of_complete {m : Matches} {before : List String} (adds : Adds (fun p => mentions p before) .empty r)
    (completed : complete l env r = .ok m) (checked : checkVerbosity m = .ok ()) : Accords m before := by
  have has (p : Parameter) (settles : p.isVerbosity = true) : m.has p = mentions p before := by
    rw [has_complete adds.plain completed settles, adds.has p settles]
    rfl
  refine ⟨has, ?_⟩
  rw [← has .verbose rfl, ← has .quiet rfl]
  exact not_both_of_checkVerbosity checked

theorem accords_readUnder {sub : Subcommand} {m : Matches} (read : readUnder sub env words = .ok m) :
    Accords m words := by
  obtain ⟨⟨r, stop⟩, readWhole, read⟩ := except_bind_ok.mp read
  obtain ⟨found, completed, read⟩ := except_bind_ok.mp read
  obtain ⟨⟨⟩, checked, read⟩ := except_bind_ok.mp read
  obtain ⟨before, split, whole, adds⟩ := adds_readWords plain_empty readWhole
  rw [whole nofun, Stop.rest, List.append_nil] at split
  have accords := accords_of_complete adds completed checked
  split at read
  · contradiction
  · obtain rfl := Except.ok.inj read
    rwa [split]

/-- A command line that is accepted gives a parameter of verbosity if the words on either side of its subcommand do. On
each side not both are given, so both are accepted together if and only if they are given on different sides. -/
theorem verbosity_by_side {a : Arguments} (accepted : parse env words = .ok a) :
    ∃ before s after, words = before ++ Subcommand.name s :: after ∧
      (a.verbosity.verbose = true ↔ mentions .verbose before = true ∨ mentions .verbose after = true) ∧
      (a.verbosity.quiet = true ↔ mentions .quiet before = true ∨ mentions .quiet after = true) ∧
      ¬(mentions .verbose before = true ∧ mentions .quiet before = true) ∧
      ¬(mentions .verbose after = true ∧ mentions .quiet after = true) ∧
      (a.verbosity.verbose = true ∧ a.verbosity.quiet = true ↔
        mentions .verbose before = true ∧ mentions .quiet after = true ∨
          mentions .quiet before = true ∧ mentions .verbose after = true) := by
  unfold parse at accepted
  cases read : readLevels env words with
  | error fault => simp [read, Except.map] at accepted
  | ok ls =>
    rw [read] at accepted
    obtain rfl := Except.ok.inj accepted
    obtain ⟨⟨r, stop⟩, readTop, read⟩ := except_bind_ok.mp read
    obtain ⟨before, split, -, adds⟩ := adds_readWords plain_empty readTop
    rcases stop with _ | ⟨s, later⟩ | later
    · obtain ⟨_, -, failed⟩ := except_bind_ok.mp read
      contradiction
    · obtain ⟨under, readBelow, read⟩ := except_bind_ok.mp read
      obtain ⟨top, completed, read⟩ := except_bind_ok.mp read
      obtain ⟨⟨⟩, checked, read⟩ := except_bind_ok.mp read
      obtain rfl := Except.ok.inj read
      obtain ⟨hasTop, apartTop⟩ := accords_of_complete adds completed checked
      obtain ⟨hasUnder, apartUnder⟩ := accords_readUnder readBelow
      refine ⟨before, s, later, split, ?_, ?_, apartTop, apartUnder, ?_⟩ <;>
        simp only [Levels.arguments, Levels.has, hasTop .verbose rfl, hasTop .quiet rfl, hasUnder .verbose rfl,
          hasUnder .quiet rfl, Bool.or_eq_true]
      grind
    · contradiction

theorem verbosity_by_side_attached :
    ∃ a, parse [] ["-vC", "push", "build", "--quiet"] = .ok a ∧ a.verbosity.verbose = true ∧
      a.verbosity.quiet = true ∧ ∃ before s after,
        ["-vC", "push", "build", "--quiet"] = before ++ Subcommand.name s :: after ∧
          (mentions .verbose before = true ∧ mentions .quiet after = true ∨
            mentions .quiet before = true ∧ mentions .verbose after = true) := by
  have accepted : parse [] ["-vC", "push", "build", "--quiet"] = .ok
      { workspace := "push", config := none, dryRun := false, verbosity := { verbose := true, quiet := true },
        request := .build { binaries := [], tag := "dev", dockerUser := "metallb", skipTests := false } } :=
    except_toOption_eq_some.mp (by decide +kernel)
  obtain ⟨before, s, after, split, -, -, -, -, both⟩ := verbosity_by_side accepted
  exact ⟨_, accepted, rfl, rfl, before, s, after, split, both.mp ⟨rfl, rfl⟩⟩

/-- Both are accepted on the two sides of a subcommand, and refused in one place. -/
theorem verbose_and_quiet_accepted :
    (∃ a, parse [] ["-v", "build", "-q"] = .ok a ∧ a.verbosity.verbose = true ∧ a.verbosity.quiet = true) ∧
      ∀ a, parse [] ["-v", "-q", "build"] ≠ .ok a := by
  have accepted : parse [] ["-v", "build", "-q"] = .ok
      { workspace := ".", config := none, dryRun := false, verbosity := { verbose := true, quiet := true },
        request := .build { binaries := [], tag := "dev", dockerUser := "metallb", skipTests := false } } :=
    except_toOption_eq_some.mp (by decide +kernel)
  have refused : (parse [] ["-v", "-q", "build"]).toOption = none := by decide +kernel
  refine ⟨⟨_, accepted, rfl, rfl⟩, fun a together => ?_⟩
  rw [except_toOption_eq_some.mpr together] at refused
  contradiction

end ImageRelease.CommandLine
