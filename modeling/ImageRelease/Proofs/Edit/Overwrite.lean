import ImageRelease.Proofs.Edit.Line

/-! Overwriting the rest of a line. From the first place on at which a line reads like something that is
looked for, it is replaced by the text for what was found there. Where that text reads the same way as
what it replaces, also together with what stands before it, a later overwriting finds the same place.
-/
namespace ImageRelease.Edit

variable {κ : Type} {key first second : List Char → Option κ} {text other : κ → List Char}
  {rs ss : List Replacement} {s : List Char}

/-- Replaces a text from the first place on that has a key, by the text for the key. -/
def overwrite (key : List Char → Option κ) (text : κ → List Char) : List Char → List Char
  | [] => []
  | c :: s =>
    match key (c :: s) with
    | some k => text k
    | none => c :: overwrite key text s

theorem overwrite_of_key {k : κ} (nonempty : s ≠ []) (found : key s = some k) :
    overwrite key text s = text k := by
  cases s with
  | nil => contradiction
  | cons c s => simp only [overwrite, found]

theorem overwrite_of_no_key {c : Char} (absent : key (c :: s) = none) :
    overwrite key text (c :: s) = c :: overwrite key text s := by
  simp only [overwrite, absent]

/-- A text is divided at the first place that has a key. -/
structure FirstKey (key : List Char → Option κ) (s front rest : List Char) (k : κ) : Prop where
  split : s = front ++ rest
  found : key rest = some k
  earliest : ∀ before after, s = before ++ after → before.length < front.length → key after = none

theorem FirstKey.cons {front rest : List Char} {k : κ} {c : Char} (first : FirstKey key s front rest k)
    (absent : key (c :: s) = none) : FirstKey key (c :: s) (c :: front) rest k where
  split := congrArg (c :: ·) first.split
  found := first.found
  earliest before after split shorter := by
    cases before with
    | nil =>
      obtain rfl : c :: s = after := split
      exact absent
    | cons d before => exact first.earliest before after (List.cons.inj split).2 (Nat.lt_of_succ_lt_succ shorter)

theorem overwrite_cases (key : List Char → Option κ) (text : κ → List Char) (s : List Char) :
    (∀ rest, rest <:+ s → rest ≠ [] → key rest = none) ∧ overwrite key text s = s ∨
      ∃ front rest k, FirstKey key s front rest k ∧ overwrite key text s = front ++ text k := by
  induction s with
  | nil => exact .inl ⟨fun rest suffix present => absurd (List.suffix_nil.mp suffix) present, rfl⟩
  | cons c s ih =>
    cases found : key (c :: s) with
    | some k =>
      exact .inr ⟨[], c :: s, k, ⟨rfl, found, nofun⟩, overwrite_of_key (List.cons_ne_nil c s) found⟩
    | none =>
      rw [overwrite_of_no_key found]
      rcases ih with ⟨absent, same⟩ | ⟨front, rest, k, first, changed⟩
      · refine .inl ⟨fun rest suffix present => ?_, congrArg (c :: ·) same⟩
        rcases List.suffix_cons_iff.mp suffix with rfl | later
        · exact found
        · exact absent rest later present
      · exact .inr ⟨c :: front, rest, k, first.cons found, congrArg (c :: ·) changed⟩

theorem overwrite_of_absent (absent : ∀ rest, rest <:+ s → key rest = none) : overwrite key text s = s := by
  rcases overwrite_cases key text s with ⟨-, same⟩ | ⟨front, rest, k, ⟨rfl, found, -⟩, -⟩
  · exact same
  · exact nomatch found.symm.trans (absent rest (List.suffix_append front rest))

/-- Behind other text, the texts for the keys of one search are not told apart by another search from what
they replace. -/
def Unseen {κ ι : Type} (key : List Char → Option κ) (text : κ → List Char)
    (search : List Char → Option ι) : Prop :=
  ∀ (c : Char) (front rest : List Char) (k : κ), key rest = some k →
    search (c :: front ++ text k) = search (c :: front ++ rest)

theorem Unseen.key_overwrite {ι : Type} {c : Char} {search : List Char → Option ι} (unseen : Unseen key text search)
    (s : List Char) : search (c :: overwrite key text s) = search (c :: s) := by
  rcases overwrite_cases key text s with ⟨-, same⟩ | ⟨front, rest, k, ⟨rfl, found, -⟩, changed⟩
  · rw [same]
  · rw [changed]
    exact unseen c front rest k found

theorem overwrite_second (unseen : Unseen first text second)
    (kept : ∀ rest k, first rest = some k → overwrite second text (text k) = text k) (s : List Char) :
    overwrite second text (overwrite first text s) =
      overwrite (fun rest => (first rest).or (second rest)) text s := by
  induction s with
  | nil => rfl
  | cons c s ih =>
    cases found : first (c :: s) with
    | some k =>
      rw [overwrite_of_key (List.cons_ne_nil c s) found, kept _ k found]
      exact (overwrite_of_key (List.cons_ne_nil c s) (by rw [found]; rfl)).symm
    | none =>
      rw [overwrite_of_no_key found]
      cases later : second (c :: s) with
      | some k =>
        have there := (unseen.key_overwrite s).trans later
        rw [overwrite_of_key (List.cons_ne_nil _ _) there,
          overwrite_of_key (List.cons_ne_nil c s) (by rw [found, later]; rfl)]
      | none =>
        have there := (unseen.key_overwrite s).trans later
        rw [overwrite_of_no_key there, overwrite_of_no_key (by rw [found, later]; rfl), ih]

/-- Texts that begin with the letter of what they replace are not seen by a search that reads no further than
to the next such letter. -/
theorem unseen_of_letter {κ ι : Type} {key : List Char → Option κ} {search : List Char → Option ι}
    {text : κ → List Char} (x : Char) (found : ∀ rest k, key rest = some k → ∃ s, rest = x :: s)
    (begins : ∀ k, ∃ s, text k = x :: s)
    (settled : ∀ c s a b, search (c :: s ++ x :: a) = search (c :: s ++ x :: b)) : Unseen key text search := by
  intro c front rest k there
  obtain ⟨s, rfl⟩ := found rest k there
  obtain ⟨t, begins⟩ := begins k
  rw [begins]
  exact settled c front t s

/-- The texts for the keys are found where they were put, and no earlier. -/
structure Refound (key : List Char → Option κ) (text : κ → List Char) : Prop where
  empty : key [] = none
  again {rest : List Char} {k : κ} (found : key rest = some k) : key (text k) = some k
  unseen : Unseen key text key

theorem Refound.overwrite_overwrite (refound : Refound key text) (other : κ → List Char) (s : List Char) :
    overwrite key other (overwrite key text s) = overwrite key other s := by
  induction s with
  | nil => rfl
  | cons c s ih =>
    cases found : key (c :: s) with
    | some k =>
      -- Both stop here, and the key that the later one finds is the one of the text that was put.
      have there := refound.again found
      have nonempty : text k ≠ [] := by
        intro nothing
        rw [nothing, refound.empty] at there
        contradiction
      rw [overwrite_of_key (List.cons_ne_nil c s) found, overwrite_of_key nonempty there,
        overwrite_of_key (List.cons_ne_nil c s) found]
    | none =>
      have there := (refound.unseen.key_overwrite s).trans found
      rw [overwrite_of_no_key found, overwrite_of_no_key there, overwrite_of_no_key found, ih]

structure Whole (text : List Char) : Prop where
  present : text ≠ []
  unbroken : ∀ c ∈ text, c ≠ '\n' ∧ c ≠ '\r'

theorem keepsLines_overwrite (whole : ∀ rest k, key rest = some k → Whole (text k)) :
    KeepsLines (overwrite key text) where
  unbroken {s} before := by
    rcases overwrite_cases key text s with ⟨-, same⟩ | ⟨front, rest, k, ⟨rfl, found, -⟩, changed⟩
    · rwa [same]
    · rw [changed, List.mem_append, not_or]
      refine ⟨fun inside => before (List.mem_append_left rest inside), fun inside => ?_⟩
      exact ((whole rest k found).unbroken _ inside).1 rfl
  present {s} _ nonempty := by
    rcases overwrite_cases key text s with ⟨-, same⟩ | ⟨front, rest, k, ⟨rfl, found, -⟩, changed⟩
    · rwa [same]
    · rw [changed]
      exact List.append_ne_nil_of_right_ne_nil front (whole rest k found).present
  plain {s} _ plain := by
    rcases overwrite_cases key text s with ⟨-, same⟩ | ⟨front, rest, k, ⟨rfl, found, -⟩, changed⟩
    · rwa [same]
    · have last := List.getLast_mem (whole rest k found).present
      rw [changed, List.getLast?_append, List.getLast?_eq_some_getLast (whole rest k found).present]
      intro carriage
      exact ((whole rest k found).unbroken _ last).2 (Option.some.inj carriage)

/-- Replacements that overwrite each line from the first key on, with texts that are found again. -/
structure Overwrites (rs : List Replacement) (key : List Char → Option κ) (text : κ → List Char) : Prop where
  line {s : List Char} (unbroken : '\n' ∉ s) : applyAll rs s = overwrite key text s
  refound : Refound key text
  whole : ∀ rest k, key rest = some k → Whole (text k)

namespace Overwrites

theorem keepsLines (first : Overwrites rs key text) : KeepsLines (applyAll rs) := by
  have kept : KeepsLines (overwrite key text) := keepsLines_overwrite first.whole
  constructor
  · intro s before
    rw [first.line before]
    exact kept.unbroken before
  · intro s before nonempty
    rw [first.line before]
    exact kept.present before nonempty
  · intro s before plain
    rw [first.line before]
    exact kept.plain before plain

theorem applyAll_applyAll (first : Overwrites rs key text) (second : Overwrites ss key other) {s : List Char}
    (unbroken : '\n' ∉ s) : applyAll ss (applyAll rs s) = applyAll ss s := by
  rw [second.line (first.keepsLines.unbroken unbroken), first.line unbroken,
    first.refound.overwrite_overwrite, second.line unbroken]

theorem edit_edit (first : Overwrites rs key text) (second : Overwrites ss key other) (content : List Char) :
    edit ss (edit rs content) = edit ss content := by
  rw [edit, lines_edit first.keepsLines, List.map_map, edit]
  congr 1
  apply List.map_congr_left
  intro line member
  simp only [Function.comp, editLine]
  rw [first.applyAll_applyAll second ((split_lines content).unbroken line member)]

theorem changedLines_edit (first : Overwrites rs key text) (content : List Char) :
    changedLines rs (edit rs content) = 0 := by
  rw [changedLines, lines_edit first.keepsLines, List.countP_map, List.countP_eq_zero]
  intro line member
  have again := first.applyAll_applyAll first ((split_lines content).unbroken line member)
  simp [editLine, again]

end Overwrites

end ImageRelease.Edit
