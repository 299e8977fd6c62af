import ImageRelease.Pattern.Parse

/-! What a pattern matches at the front of a text. Each run is the longest one behind which the rest of the pattern
matches, so there is at most one match at a place, and the search finds it whenever there is one. A text without a letter
that means something in patterns is the pattern for itself.
-/
namespace ImageRelease.Pattern

variable {class_ : CharClass} {next : Bool → List Char → Option (List Char)}
  {follows : Bool → List Char → List Char → Prop} {p : Pattern} {atStart : Bool} {s taken rest : List Char}

/-- A text is parted behind a run of a class, which may be empty. -/
structure Parts (class_ : CharClass) (s run later : List Char) : Prop where
  split : s = run ++ later
  inside : ∀ c ∈ run, class_.contains c = true

inductive OneThen (class_ : CharClass) (follows : Bool → List Char → List Char → Prop) : (taken rest : List Char) → Prop
  | of {c : Char} {taken rest : List Char} (inside : class_.contains c = true) (followed : follows false taken rest) :
      OneThen class_ follows (c :: taken) rest

/-- A run of a class and a match behind it, when there is none behind a longer run. -/
inductive RunThen (class_ : CharClass) (follows : Bool → List Char → List Char → Prop) (atStart : Bool) :
    (taken rest : List Char) → Prop
  | of {run taken rest : List Char} (inside : ∀ c ∈ run, class_.contains c = true)
      (followed : follows (atStart && run.isEmpty) taken rest)
      (longest : ∀ more later left, Parts class_ (taken ++ rest) more (later ++ left) → more ≠ [] →
        ¬follows false later left) :
      RunThen class_ follows atStart (run ++ taken) rest

/-- At the front of a text, a pattern takes one part and leaves the other. -/
def Matches : Pattern → (atStart : Bool) → (taken rest : List Char) → Prop
  | [], _, taken, _ => taken = []
  | .nothing :: p, atStart, taken, rest => Matches p atStart taken rest
  | .start :: p, atStart, taken, rest => atStart = true ∧ Matches p atStart taken rest
  | .finish :: p, atStart, taken, rest => taken ++ rest = [] ∧ Matches p atStart taken rest
  | .once class_ :: p, _, taken, rest => OneThen class_ (Matches p) taken rest
  | .many class_ :: p, atStart, taken, rest => RunThen class_ (Matches p) atStart taken rest
  | .some class_ :: p, _, taken, rest => OneThen class_ (RunThen class_ (Matches p)) taken rest

/-! ### Runs -/

theorem parts_nil_iff {run later : List Char} : Parts class_ [] run later ↔ run = [] ∧ later = [] := by
  constructor
  · rintro ⟨split, -⟩
    exact List.nil_eq_append_iff.mp split
  · rintro ⟨rfl, rfl⟩
    exact ⟨rfl, nofun⟩

theorem parts_cons_iff {c : Char} {run later : List Char} :
    Parts class_ (c :: s) run later ↔
      run = [] ∧ later = c :: s ∨ class_.contains c = true ∧ ∃ tail, run = c :: tail ∧ Parts class_ s tail later := by
  constructor
  · rintro ⟨split, inside⟩
    rcases List.cons_eq_append_iff.mp split with ⟨rfl, rfl⟩ | ⟨tail, rfl, parted⟩
    · exact .inl ⟨rfl, rfl⟩
    · obtain ⟨here, inside⟩ := List.forall_mem_cons.mp inside
      exact .inr ⟨here, tail, rfl, parted, inside⟩
  · rintro (⟨rfl, rfl⟩ | ⟨here, tail, rfl, rfl, inside⟩)
    · exact ⟨rfl, nofun⟩
    · exact ⟨rfl, List.forall_mem_cons.mpr ⟨here, inside⟩⟩

theorem forall_parts_cons_iff {c : Char} {holds : List Char → List Char → Prop} :
    (∀ run later, Parts class_ (c :: s) run later → holds run later) ↔
      holds [] (c :: s) ∧
        (class_.contains c = true → ∀ tail later, Parts class_ s tail later → holds (c :: tail) later) := by
  simp only [parts_cons_iff]
  constructor
  · intro all
    exact ⟨all [] (c :: s) (.inl ⟨rfl, rfl⟩), fun here tail later parts =>
      all (c :: tail) later (.inr ⟨here, tail, rfl, parts⟩)⟩
  · rintro ⟨here, all⟩ run later (⟨rfl, rfl⟩ | ⟨inside, tail, rfl, parts⟩)
    · exact here
    · exact all inside tail later parts

theorem exists_parts_cons_iff {c : Char} {holds : List Char → List Char → Prop} :
    (∃ run later, Parts class_ (c :: s) run later ∧ holds run later) ↔
      holds [] (c :: s) ∨
        class_.contains c = true ∧ ∃ tail later, Parts class_ s tail later ∧ holds (c :: tail) later := by
  simp only [parts_cons_iff]
  constructor
  · rintro ⟨run, later, ⟨rfl, rfl⟩ | ⟨inside, tail, rfl, parts⟩, held⟩
    · exact .inl held
    · exact .inr ⟨inside, tail, later, parts, held⟩
  · rintro (held | ⟨inside, tail, later, parts, held⟩)
    · exact ⟨[], c :: s, .inl ⟨rfl, rfl⟩, held⟩
    · exact ⟨c :: tail, later, .inr ⟨inside, tail, rfl, parts⟩, held⟩

@[simp] theorem runThen_nil : runThen class_ next atStart [] = next atStart [] := rfl

theorem runThen_cons_of_inside {c : Char} (inside : class_.contains c = true) :
    runThen class_ next atStart (c :: s) = (runThen class_ next false s).or (next atStart (c :: s)) := by
  rw [runThen, if_pos inside]
  cases runThen class_ next false s <;> rfl

theorem runThen_cons_of_outside {c : Char} (outside : ¬class_.contains c = true) :
    runThen class_ next atStart (c :: s) = next atStart (c :: s) := by
  rw [runThen, if_neg outside]

theorem runThen_eq_none_iff :
    runThen class_ next atStart s = none ↔
      ∀ run later, Parts class_ s run later → next (atStart && run.isEmpty) later = none := by
  induction s generalizing atStart with
  | nil => simp [parts_nil_iff]
  | cons c s ih =>
    rw [forall_parts_cons_iff]
    by_cases inside : class_.contains c = true
    · rw [runThen_cons_of_inside inside, Option.or_eq_none_iff, ih, and_comm]
      simp [inside]
    · rw [runThen_cons_of_outside inside]
      simp [inside]

theorem runThen_eq_some_iff :
    runThen class_ next atStart s = some rest ↔ ∃ run later, Parts class_ s run later ∧
      next (atStart && run.isEmpty) later = some rest ∧
      ∀ more left, Parts class_ later more left → more ≠ [] → next false left = none := by
  induction s generalizing atStart with
  | nil => simp +contextual [parts_nil_iff, and_assoc]
  | cons c s ih =>
    rw [exists_parts_cons_iff, forall_parts_cons_iff]
    by_cases inside : class_.contains c = true
    · -- The run goes on when something follows behind a longer one, and else it ends here.
      rw [runThen_cons_of_inside inside, Option.or_eq_some_iff, ih, runThen_eq_none_iff, or_comm]
      simp [inside, and_comm]
    · rw [runThen_cons_of_outside inside]
      simp [inside]

/-! ### The search -/

/-- A search at the front of a text finds just what is there. -/
def Finds (next : Bool → List Char → Option (List Char)) (follows : Bool → List Char → List Char → Prop) : Prop :=
  ∀ atStart s rest, next atStart s = some rest ↔ ∃ taken, s = taken ++ rest ∧ follows atStart taken rest

theorem Finds.eq_none_iff (finds : Finds next follows) :
    next atStart s = none ↔ ∀ taken rest, s = taken ++ rest → ¬follows atStart taken rest := by
  rw [Option.eq_none_iff_forall_ne_some]
  constructor
  · intro none taken rest split matched
    exact none rest ((finds atStart s rest).mpr ⟨taken, split, matched⟩)
  · intro none rest found
    obtain ⟨taken, split, matched⟩ := (finds atStart s rest).mp found
    exact none taken rest split matched

theorem finds_oneThen (finds : Finds next follows) :
    Finds (fun _ => oneThen class_ next) fun _ => OneThen class_ follows := by
  intro _ s rest
  change oneThen class_ next s = some rest ↔ _
  constructor
  · intro found
    cases s with
    | nil => contradiction
    | cons c s =>
      rw [oneThen] at found
      split at found
      · next inside =>
        obtain ⟨taken, rfl, matched⟩ := (finds false s rest).mp found
        exact ⟨c :: taken, rfl, .of inside matched⟩
      · contradiction
  · rintro ⟨_, rfl, inside, matched⟩
    rw [List.cons_append, oneThen, if_pos inside]
    exact (finds false _ rest).mpr ⟨_, rfl, matched⟩

theorem finds_runThen (finds : Finds next follows) : Finds (runThen class_ next) (RunThen class_ follows) := by
  intro atStart s rest
  rw [runThen_eq_some_iff]
  constructor
  · rintro ⟨run, later, ⟨rfl, inside⟩, found, longest⟩
    obtain ⟨taken, rfl, matched⟩ := (finds _ later rest).mp found
    refine ⟨run ++ taken, (List.append_assoc run taken rest).symm, .of inside matched ?_⟩
    intro more later left parts nonempty
    exact finds.eq_none_iff.mp (longest more (later ++ left) parts nonempty) later left rfl
  · rintro ⟨_, rfl, inside, matched, longest⟩
    refine ⟨_, _, ⟨List.append_assoc .., inside⟩, (finds _ _ rest).mpr ⟨_, rfl, matched⟩, ?_⟩
    intro more left parts nonempty
    refine finds.eq_none_iff.mpr ?_
    rintro later left rfl
    exact longest more later left parts nonempty

theorem finds_matchFront (p : Pattern) : Finds p.matchFront p.Matches := by
  induction p with
  | nil =>
    intro atStart s rest
    simp [matchFront, Matches]
  | cons piece p ih =>
    cases piece with
    | nothing => exact ih
    | start =>
      intro atStart s rest
      cases atStart with
      | true => simpa [matchFront, Matches] using ih true s rest
      | false => simp [matchFront, Matches]
    | finish =>
      intro atStart s rest
      cases s with
      | nil => simpa [matchFront, Matches] using ih atStart [] rest
      | cons c s =>
        have nowhere : ¬∃ taken, c :: s = taken ++ rest ∧ Matches (.finish :: p) atStart taken rest := by
          rintro ⟨taken, split, ended, -⟩
          exact List.cons_ne_nil c s (split.trans ended)
        simpa [matchFront] using nowhere
    | once class_ => exact finds_oneThen ih
    | many class_ => exact finds_runThen ih
    | some class_ => exact finds_oneThen (finds_runThen ih)

theorem matchFront_append_of_matches (matched : p.Matches atStart taken rest) :
    p.matchFront atStart (taken ++ rest) = some rest :=
  (finds_matchFront p atStart (taken ++ rest) rest).mpr ⟨taken, rfl, matched⟩

theorem Matches.unique {other left : List Char} (matched : p.Matches atStart taken rest)
    (also : p.Matches atStart other left) (same : taken ++ rest = other ++ left) : taken = other ∧ rest = left := by
  have found := matchFront_append_of_matches matched
  rw [same, matchFront_append_of_matches also] at found
  obtain rfl := Option.some.inj found
  exact ⟨List.append_cancel_right same, rfl⟩

/-! ### Plain texts -/

theorem matches_literal_iff {word : List Char} : (literal word).Matches atStart taken rest ↔ taken = word := by
  induction word generalizing atStart taken with
  | nil => exact Iff.rfl
  | cons c word ih =>
    constructor
    · rintro ⟨same, later⟩
      rw [beq_iff_eq.mp same, ih.mp later]
    · rintro rfl
      exact .of (beq_self_eq_true c) (ih.mpr rfl)

def operators : List Char := ['\\', '.', '^', '$', '*', '+', '?', '(', ')', '[', '\x7b', '|']

def Plain (word : List Char) : Prop := ∀ c ∈ word, c ∉ operators

instance (word : List Char) : Decidable (Plain word) := List.decidableBAll (· ∉ operators) word

theorem read?_plain {word : List Char} (plain : Plain word) (done : List Piece) :
    read? done word = some (done.reverse ++ literal word) := by
  induction word generalizing done with
  | nil => simp [read?, literal]
  | cons c word ih =>
    obtain ⟨here, later⟩ := List.forall_mem_cons.mp plain
    have other {d : Char} (operator : d ∈ operators) : c ≠ d := by
      rintro rfl
      exact here operator
    have itself : plain? c = some (.once (.literal c)) := by
      simp only [operators, List.mem_cons, List.not_mem_nil, or_false, not_or] at here
      simp [plain?, isReserved, here]
    rw [read?, itself, Option.bind_some, ih later]
    · simp [literal]
    · exact other (by decide)
    · exact other (by decide)
    · exact fun _ _ escape _ => other (by decide) escape

/-- A plain text is the pattern for itself. -/
theorem parse?_of_plain {source : String} (plain : Plain source.toList) :
    parse? source = some (literal source.toList) :=
  read?_plain plain []

end ImageRelease.Pattern
