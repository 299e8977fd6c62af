import ImageRelease.Proofs.Edit.Overwrite
import ImageRelease.Text.Search

/-! Patterns that take the rest of a line. Such a pattern is found by a mark: a word, and something about the
text after it. Replacing it overwrites a line from the first mark on. A word that begins with a letter
that it does not repeat is looked for in each stretch of text between two such letters on its own.
-/
namespace ImageRelease

namespace Text

theorem stripFront?_append_cons {x : Char} {front : List Char} (absent : x ∉ front) (s rest : List Char) :
    stripFront? front (s ++ x :: rest) = (stripFront? front s).map (· ++ x :: rest) := by
  fun_induction stripFront? front s with
  | case1 s => rfl
  | case2 c front =>
    have other : c ≠ x := (List.ne_of_not_mem_cons absent).symm
    simp [stripFront?, other]
  | case3 front d s ih =>
    simpa [stripFront?] using ih (List.not_mem_of_not_mem_cons absent)
  | case4 c front d s other => simp [stripFront?, other]

end Text

/-- A test that reads no further than to the next such letter. -/
def Settled (x : Char) (test : List Char → Bool) : Prop :=
  ∀ s a b, test (s ++ x :: a) = test (s ++ x :: b)

theorem settled_true (x : Char) : Settled x fun _ => true := fun _ _ _ => rfl

structure Mark where
  word : List Char
  /-- Whether the text after the word is as it has to be. -/
  follows : List Char → Bool

namespace Mark

def leads (m : Mark) (s : List Char) : Bool := (Text.stripFront? m.word s).any m.follows

theorem settled_leads {m : Mark} {x : Char} (absent : x ∉ m.word) (settled : Settled x m.follows) :
    Settled x m.leads := by
  intro s a b
  simp only [leads, Text.stripFront?_append_cons absent, Option.any_map]
  congr 1
  funext front
  exact settled front a b

/-- The word begins with a letter that it has only once, and what has to follow is settled before the next
such letter. -/
structure Led (m : Mark) (x : Char) : Prop where
  word : ∃ rest, m.word = x :: rest ∧ x ∉ rest
  settled : Settled x m.follows

theorem Led.leads_congr {m : Mark} {x : Char} (led : m.Led x) (c : Char) (s a b : List Char) :
    m.leads (c :: s ++ x :: a) = m.leads (c :: s ++ x :: b) := by
  obtain ⟨rest, word, single⟩ := led.word
  have later : Settled x (Mark.mk rest m.follows).leads := settled_leads single led.settled
  simp only [leads, word, List.cons_append, Text.stripFront?]
  split
  · exact later s a b
  · rfl

theorem Led.leads_nil {m : Mark} {x : Char} (led : m.Led x) : m.leads [] = false := by
  obtain ⟨rest, word, -⟩ := led.word
  simp [leads, word, Text.stripFront?]

theorem Led.eq_cons_of_leads {m : Mark} {x : Char} {s : List Char} (led : m.Led x)
    (leading : m.leads s = true) : ∃ rest, s = x :: rest := by
  obtain ⟨front, word, -⟩ := led.word
  obtain ⟨rest, stripped, -⟩ := (Option.any_eq_true m.follows (Text.stripFront? m.word s)).mp leading
  rw [Text.stripFront?_eq_some_iff, word] at stripped
  exact ⟨front ++ rest, stripped⟩

end Mark

def CharClass.run (class_ : CharClass) (follows : List Char → Bool) : List Char → Bool
  | [] => false
  | c :: s => class_.contains c && follows (s.dropWhile class_.contains)

theorem CharClass.settled_run {class_ : CharClass} {follows : List Char → Bool} {x : Char}
    (outside : class_.contains x = false) (settled : Settled x follows) : Settled x (class_.run follows) := by
  have dropped (s a : List Char) :
      (s ++ x :: a).dropWhile class_.contains = s.dropWhile class_.contains ++ x :: a := by
    induction s with
    | nil => simp [outside]
    | cons c s ih => by_cases inside : class_.contains c = true <;> simp [inside, ih]
  intro s a b
  cases s with
  | nil => simp [run, outside]
  | cons c s => simp only [List.cons_append, run, dropped, settled (s.dropWhile class_.contains) a b]

namespace Pattern

open Edit

variable {p : Pattern} {follows : List Char → Bool} {s : List Char}

/-- The pattern is found where something follows, and takes all of the line. -/
def Sweeps (p : Pattern) (follows : List Char → Bool) : Prop :=
  ∀ (atStart : Bool) (s : List Char), '\n' ∉ s →
    p.matchFront atStart s = if follows s then some [] else none

theorem sweeps_rest : Sweeps [.many .any] fun _ => true := by
  intro atStart s unbroken
  simp only [matchFront, if_true]
  induction s generalizing atStart with
  | nil => rfl
  | cons c s ih =>
    have inside : c ≠ '\n' := (List.ne_of_not_mem_cons unbroken).symm
    simp [runThen, CharClass.contains, inside, ih false (List.not_mem_of_not_mem_cons unbroken)]

/-- A run takes all that it can, when the rest of the pattern is not found inside of it. -/
theorem sweeps_many {class_ : CharClass} (sweeps : p.Sweeps follows)
    (apart : ∀ c s, class_.contains c = true → follows (c :: s) = false) :
    Sweeps (.many class_ :: p) fun s => follows (s.dropWhile class_.contains) := by
  intro atStart s unbroken
  change runThen class_ p.matchFront atStart s = if follows (s.dropWhile class_.contains) then some [] else none
  induction s generalizing atStart with
  | nil => exact sweeps atStart [] unbroken
  | cons c s ih =>
    rw [runThen]
    by_cases inside : class_.contains c = true
    · rw [if_pos inside, ih false (List.not_mem_of_not_mem_cons unbroken), List.dropWhile_cons_of_pos inside]
      cases found : follows (s.dropWhile class_.contains) with
      | true => rfl
      | false => simpa [apart c s inside] using sweeps atStart (c :: s) unbroken
    · rw [if_neg inside, List.dropWhile_cons_of_neg inside]
      exact sweeps atStart (c :: s) unbroken

theorem sweeps_some {class_ : CharClass} (sweeps : p.Sweeps follows)
    (apart : ∀ c s, class_.contains c = true → follows (c :: s) = false) :
    Sweeps (.some class_ :: p) (class_.run follows) := by
  intro atStart s unbroken
  cases s with
  | nil => rfl
  | cons c s =>
    have later := sweeps_many sweeps apart false s (List.not_mem_of_not_mem_cons unbroken)
    rw [matchFront] at later
    by_cases inside : class_.contains c = true
    · rw [matchFront, oneThen, if_pos inside, later, CharClass.run, inside, Bool.true_and]
    · rw [matchFront, oneThen, if_neg inside, CharClass.run]
      simp [inside]

theorem sweeps_literal (sweeps : p.Sweeps follows) (word : List Char) :
    (literal word ++ p).Sweeps (Mark.mk word follows).leads := by
  intro atStart s unbroken
  induction word generalizing atStart s with
  | nil => exact sweeps atStart s unbroken
  | cons c word ih =>
    cases s with
    | nil => rfl
    | cons d s =>
      by_cases same : d = c
      · subst same
        have leads : (Mark.mk (d :: word) follows).leads (d :: s) = (Mark.mk word follows).leads s := by
          simp [Mark.leads, Text.stripFront?]
        rw [leads, ← ih false s (List.not_mem_of_not_mem_cons unbroken)]
        simp [literal, matchFront, oneThen, CharClass.contains]
      · have other : c ≠ d := Ne.symm same
        simp [literal, matchFront, oneThen, CharClass.contains, Mark.leads, Text.stripFront?, same, other]

/-- Replacing the pattern of a mark overwrites a line from the first place on that the mark leads. -/
theorem replaceAll_of_sweeps {κ : Type} {m : Mark} {x : Char} (led : m.Led x) (sweeps : p.Sweeps m.leads)
    (text : κ → List Char) (k : κ) (unbroken : '\n' ∉ s) :
    p.replaceAll (text k) s = overwrite (fun rest => if m.leads rest then some k else none) text s := by
  have ended : p.replaceFrom (text k) false true [] = [] := by
    rw [replaceFrom, sweeps false [] List.not_mem_nil, led.leads_nil]
    rfl
  suffices everywhere : ∀ atStart, p.replaceFrom (text k) atStart false s =
      overwrite (fun rest => if m.leads rest then some k else none) text s from everywhere true
  intro atStart
  induction s generalizing atStart with
  | nil =>
    rw [replaceFrom, sweeps atStart [] List.not_mem_nil, led.leads_nil]
    rfl
  | cons c s ih =>
    rw [replaceFrom, sweeps atStart (c :: s) unbroken]
    cases leading : m.leads (c :: s) with
    | true => simp [overwrite, leading, ended]
    | false =>
      simp only [overwrite, leading, Bool.false_eq_true, if_false]
      rw [ih (List.not_mem_of_not_mem_cons unbroken) false]

end Pattern

end ImageRelease
