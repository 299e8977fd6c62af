import Mathlib.Data.List.Infix
import ImageRelease.Edit.Replacement

/-! Lines that are found again. Lines that a text was split into are the lines of the joined text, also after
each of their texts was replaced by one that breaks no line. So the edits of a text can be followed
line by line, one after the other, and a word can be looked for line by line.
-/
namespace ImageRelease.Edit

/-- The lines of some text: none has a line feed inside, and only the last one is open, with a text that
is not empty. A carriage return right before a line feed is part of the ending. -/
inductive Split : List Line → Prop where
  | nil : Split []
  | last {text : List Char} (unbroken : '\n' ∉ text) (present : text ≠ []) : Split [⟨text, .open_⟩]
  | lineFeed {text : List Char} {ls : List Line} (unbroken : '\n' ∉ text)
      (plain : text.getLast? ≠ some '\r') (rest : Split ls) : Split (⟨text, .lineFeed⟩ :: ls)
  | carriageReturn {text : List Char} {ls : List Line} (unbroken : '\n' ∉ text) (rest : Split ls) :
      Split (⟨text, .carriageReturn⟩ :: ls)

/-- A change of texts that makes lines of lines. -/
structure KeepsLines (f : List Char → List Char) : Prop where
  unbroken {text : List Char} (before : '\n' ∉ text) : '\n' ∉ f text
  present {text : List Char} (before : '\n' ∉ text) (nonempty : text ≠ []) : f text ≠ []
  plain {text : List Char} (before : '\n' ∉ text) (plain : text.getLast? ≠ some '\r') :
    (f text).getLast? ≠ some '\r'

variable {c : Char} {text s : List Char} {ls ms : List Line} {f : List Char → List Char}
  {rs : List Replacement}

theorem foldr_addChar_cons (text : List Char) (l : Line) (ls : List Line) :
    text.foldr addChar (l :: ls) = ⟨text ++ l.text, l.ending⟩ :: ls := by
  induction text with
  | nil => rfl
  | cons c text ih =>
    rw [List.foldr_cons, ih]
    rfl

theorem foldr_addChar_nil (present : text ≠ []) : text.foldr addChar [] = [⟨text, .open_⟩] := by
  induction text with
  | nil => contradiction
  | cons c text ih =>
    cases text with
    | nil => rfl
    | cons d text =>
      rw [List.foldr_cons, ih (List.cons_ne_nil d text)]
      rfl

theorem join_lineFeed (text : List Char) (ls : List Line) :
    join (⟨text, .lineFeed⟩ :: ls) = text ++ '\n' :: join ls := by
  simp [join, Line.chars, Ending.chars]

theorem join_carriageReturn (text : List Char) (ls : List Line) :
    join (⟨text, .carriageReturn⟩ :: ls) = text ++ '\r' :: '\n' :: join ls := by
  simp [join, Line.chars, Ending.chars]

theorem lines_cons (inside : c ≠ '\n') (single : c = '\r' → s.head? ≠ some '\n') :
    lines (c :: s) = addChar c (lines s) := by
  refine lines.eq_4 c s inside fun rest carriage followed => single carriage ?_
  rw [followed]
  rfl

theorem lines_append (unbroken : '\n' ∉ text) (apart : text.getLast? = some '\r' → s.head? ≠ some '\n') :
    lines (text ++ s) = text.foldr addChar (lines s) := by
  induction text with
  | nil => rfl
  | cons c text ih =>
    have inside : c ≠ '\n' := (List.ne_of_not_mem_cons unbroken).symm
    have later := List.not_mem_of_not_mem_cons unbroken
    cases text with
    | nil =>
      apply lines_cons inside
      rintro rfl
      exact apart rfl
    | cons d text =>
      rw [List.foldr_cons, ← ih later apart]
      apply lines_cons inside
      rintro - followed
      obtain rfl := Option.some.inj followed
      exact later List.mem_cons_self

theorem lines_join (split : Split ls) : lines (join ls) = ls := by
  induction split with
  | nil => rfl
  | @last text unbroken present =>
    have joined : join [⟨text, .open_⟩] = text ++ [] := by
      simp [join, Line.chars, Ending.chars]
    rw [joined, lines_append unbroken (by simp)]
    exact foldr_addChar_nil present
  | @lineFeed text ls unbroken plain _ ih =>
    rw [join_lineFeed, lines_append unbroken (fun carriage => absurd carriage plain), lines, ih,
      foldr_addChar_cons, List.append_nil]
  | @carriageReturn text ls unbroken _ ih =>
    rw [join_carriageReturn, lines_append unbroken (fun _ => by simp), lines, ih, foldr_addChar_cons, List.append_nil]

theorem Split.addChar (split : Split ls) (inside : c ≠ '\n')
    (single : c = '\r' → (join ls).head? ≠ some '\n') : Split (addChar c ls) := by
  have unbroken {text : List Char} (later : '\n' ∉ text) : '\n' ∉ c :: text :=
    List.not_mem_cons_of_ne_of_not_mem (Ne.symm inside) later
  cases split with
  | nil => exact .last (unbroken List.not_mem_nil) (List.cons_ne_nil _ _)
  | last later => exact .last (unbroken later) (List.cons_ne_nil _ _)
  | @lineFeed text _ later plain rest =>
    refine .lineFeed (unbroken later) ?_ rest
    cases text with
    | nil =>
      intro carriage
      exact single (Option.some.inj carriage) rfl
    | cons d text => exact plain
  | carriageReturn later rest => exact .carriageReturn (unbroken later) rest

theorem split_lines (s : List Char) : Split (lines s) := by
  fun_induction lines s with
  | case1 => exact .nil
  | case2 s ih => exact .lineFeed List.not_mem_nil (by simp) ih
  | case3 s ih => exact .carriageReturn List.not_mem_nil ih
  | case4 c s inside single ih =>
    refine ih.addChar inside fun carriage => ?_
    rw [join_lines]
    cases s with
    | nil => simp
    | cons d s =>
      intro followed
      exact single s carriage (congrArg (· :: s) (Option.some.inj followed))

theorem Split.unbroken (split : Split ls) : ∀ l ∈ ls, '\n' ∉ l.text := by
  induction split with
  | nil => simp
  | last unbroken _ => simpa using unbroken
  | lineFeed unbroken _ _ ih => exact List.forall_mem_cons.mpr ⟨unbroken, ih⟩
  | carriageReturn unbroken _ ih => exact List.forall_mem_cons.mpr ⟨unbroken, ih⟩

theorem Split.map (split : Split ls) (keeps : KeepsLines f) :
    Split (ls.map fun l => { l with text := f l.text }) := by
  induction split with
  | nil => exact .nil
  | last unbroken present => exact .last (keeps.unbroken unbroken) (keeps.present unbroken present)
  | lineFeed unbroken plain _ ih =>
    exact .lineFeed (keeps.unbroken unbroken) (keeps.plain unbroken plain) ih
  | carriageReturn unbroken _ ih => exact .carriageReturn (keeps.unbroken unbroken) ih

theorem lines_edit (keeps : KeepsLines (applyAll rs)) (content : List Char) :
    lines (edit rs content) = (lines content).map (editLine rs) :=
  lines_join ((split_lines content).map keeps)

/-- A text that is empty or ends with a line feed, so that more text begins a new line. -/
def Ended (s : List Char) : Prop := s = [] ∨ s.getLast? = some '\n'

theorem Ended.of_append (ended : Ended (text ++ s)) : Ended s := by
  by_cases nothing : s = []
  · exact .inl nothing
  · rcases ended with empty | feed
    · exact absurd (List.append_eq_nil_iff.mp empty).2 nothing
    · exact .inr ((List.getLast?_append_of_ne_nil text nothing).symm.trans feed)

theorem join_append (ls ms : List Line) : join (ls ++ ms) = join ls ++ join ms := List.flatMap_append

theorem Split.append (split : Split ls) (later : Split ms) (ended : Ended (join ls)) : Split (ls ++ ms) := by
  induction split with
  | nil => exact later
  | @last text unbroken present =>
    have joined : join [⟨text, .open_⟩] = text := by simp [join, Line.chars, Ending.chars]
    rw [joined] at ended
    rcases ended with empty | feed
    · exact absurd empty present
    · exact absurd (List.mem_of_getLast? feed) unbroken
  | @lineFeed text ls unbroken plain _ ih =>
    rw [join_lineFeed, List.append_cons] at ended
    exact .lineFeed unbroken plain (ih ended.of_append)
  | @carriageReturn text ls unbroken _ ih =>
    rw [join_carriageReturn, List.append_cons, List.append_cons] at ended
    exact .carriageReturn unbroken (ih ended.of_append)

theorem lines_append_of_ended (ended : Ended s) (more : List Char) : lines (s ++ more) = lines s ++ lines more := by
  have apart : Ended (join (lines s)) := by rwa [join_lines]
  have found := lines_join ((split_lines s).append (split_lines more) apart)
  rwa [join_append, join_lines, join_lines] at found

/-- Two texts that are cut at the first place of a letter have the same parts. -/
theorem append_cons_inj {a b t : List Char} {x : Char} (first : x ∉ a) (second : x ∉ b)
    (same : a ++ x :: s = b ++ x :: t) : a = b ∧ s = t := by
  rcases List.append_eq_append_iff.mp same with ⟨more, split, ends⟩ | ⟨more, split, ends⟩
  · cases more with
    | nil => exact ⟨by simpa using split.symm, (List.cons.inj ends).2⟩
    | cons d more =>
      obtain ⟨rfl, -⟩ := List.cons.inj ends
      exact absurd (by simp [split]) second
  · cases more with
    | nil => exact ⟨by simpa using split, (List.cons.inj ends).2.symm⟩
    | cons d more =>
      obtain ⟨rfl, -⟩ := List.cons.inj ends
      exact absurd (by simp [split]) first

theorem infix_append_cons_iff {word a b : List Char} {x : Char} (absent : x ∉ word) :
    word <:+: a ++ x :: b ↔ word <:+: a ∨ word <:+: b := by
  constructor
  · intro within
    rcases List.infix_append_iff.mp within with left | right | ⟨front, back, rfl, before, after⟩
    · exact .inl left
    · rcases List.infix_cons_iff.mp right with here | later
      · rcases List.prefix_cons_iff.mp here with rfl | ⟨rest, rfl, -⟩
        · exact .inl List.nil_infix
        · exact absurd List.mem_cons_self absent
      · exact .inr later
    · rcases List.prefix_cons_iff.mp after with rfl | ⟨rest, rfl, -⟩
      · rw [List.append_nil]
        exact .inl before.isInfix
      · exact absurd (List.mem_append_right front List.mem_cons_self) absent
  · rintro (left | right)
    · exact left.trans (List.prefix_append a _).isInfix
    · exact right.trans ((List.suffix_cons x b).trans (List.suffix_append a _)).isInfix

/-- A word that breaks no line is found in a text if and only if it is found in one of its lines. -/
theorem infix_join_iff {word : List Char} {ls : List Line} (split : Split ls) (present : word ≠ [])
    (unbroken : ∀ c ∈ word, c ≠ '\n' ∧ c ≠ '\r') : word <:+: join ls ↔ ∃ l ∈ ls, word <:+: l.text := by
  have noFeed : '\n' ∉ word := fun member => (unbroken '\n' member).1 rfl
  have noReturn : '\r' ∉ word := fun member => (unbroken '\r' member).2 rfl
  induction split with
  | nil => simpa [join] using present
  | last => simp [join, Line.chars, Ending.chars]
  | @lineFeed text ls _ _ _ ih =>
    rw [join_lineFeed, infix_append_cons_iff noFeed, List.exists_mem_cons_iff]
    exact or_congr_right ih
  | @carriageReturn text ls _ _ ih =>
    -- Nothing stands between the two letters of the ending.
    have feed : word <:+: '\n' :: join ls ↔ word <:+: join ls := by
      simpa [present] using infix_append_cons_iff (a := []) (b := join ls) noFeed
    rw [join_carriageReturn, infix_append_cons_iff noReturn, feed, List.exists_mem_cons_iff]
    exact or_congr_right ih

end ImageRelease.Edit
