import ImageRelease.Proofs.Edit.Line

/-! Lines whose texts are changed in any way, be it by patterns or not. Line feeds can be put in, but none can be taken
out. So a text that comes out as it was has no more of them than before, is divided as before, and has no line
changed. What a text becomes is put together from what its parts become, if they are parted behind a line.
-/
namespace ImageRelease.Edit

variable {f : List Char → List Char} {a b s t : List Char} {ls : List Line}

def changeLine (f : List Char → List Char) (line : Line) : Line := { line with text := f line.text }

/-- Changes the texts of all lines; endings stay as they are. -/
def editBy (f : List Char → List Char) (content : List Char) : List Char :=
  join ((lines content).map (changeLine f))

def changedLinesBy (f : List Char → List Char) (content : List Char) : Nat :=
  (lines content).countP fun line => f line.text != line.text

theorem edit_eq_editBy (rs : List Replacement) : edit rs = editBy (applyAll rs) := rfl

theorem changedLines_eq_changedLinesBy (rs : List Replacement) : changedLines rs = changedLinesBy (applyAll rs) := rfl

/-! ### Parts of texts -/

theorem editBy_append (f : List Char → List Char) (ended : Ended s) (more : List Char) :
    editBy f (s ++ more) = editBy f s ++ editBy f more := by
  rw [editBy, lines_append_of_ended ended, List.map_append, join_append]
  rfl

theorem changedLinesBy_append (f : List Char → List Char) (ended : Ended s) (more : List Char) :
    changedLinesBy f (s ++ more) = changedLinesBy f s + changedLinesBy f more := by
  rw [changedLinesBy, lines_append_of_ended ended, List.countP_append]
  rfl

/-! ### Texts that come out as they were -/

theorem changedLinesBy_eq_zero_iff {content : List Char} :
    changedLinesBy f content = 0 ↔ ∀ line ∈ lines content, f line.text = line.text := by
  simp [changedLinesBy, List.countP_eq_zero]

theorem count_feed_le (unbroken : ∀ l ∈ ls, '\n' ∉ l.text) (f : List Char → List Char) :
    (join ls).count '\n' ≤ (join (ls.map (changeLine f))).count '\n' := by
  induction ls with
  | nil => exact Nat.le_refl _
  | cons l ls ih =>
    obtain ⟨here, later⟩ := List.forall_mem_cons.mp unbroken
    have rest := ih later
    have old : (join (l :: ls)).count '\n' = l.ending.chars.count '\n' + (join ls).count '\n' := by
      simp [join, Line.chars, List.count_eq_zero_of_not_mem here]
    have new : (join ((l :: ls).map (changeLine f))).count '\n' =
        (f l.text).count '\n' + l.ending.chars.count '\n' + (join (ls.map (changeLine f))).count '\n' := by
      simp [join, Line.chars, changeLine, Nat.add_assoc]
    omega

/-- A first line is the same when there is no line feed to spare for it. -/
theorem eq_of_append_feed (unbroken : '\n' ∉ a) (fewer : s.count '\n' ≤ t.count '\n')
    (same : b ++ '\n' :: t = a ++ '\n' :: s) : b = a ∧ t = s := by
  have counts := congrArg (List.count '\n') same
  simp only [List.count_append, List.count_cons_self, List.count_eq_zero_of_not_mem unbroken] at counts
  have also : '\n' ∉ b := List.count_eq_zero.mp (by omega)
  exact append_cons_inj also unbroken same

theorem unchanged_of_join_eq (split : Split ls) (same : join (ls.map (changeLine f)) = join ls) :
    ∀ l ∈ ls, f l.text = l.text := by
  induction split with
  | nil => simp
  | last => simpa [join, Line.chars, Ending.chars, changeLine] using same
  | @lineFeed text ls unbroken _ rest ih =>
    rw [List.map_cons, changeLine, join_lineFeed, join_lineFeed] at same
    obtain ⟨here, later⟩ := eq_of_append_feed unbroken (count_feed_le rest.unbroken f) same
    exact List.forall_mem_cons.mpr ⟨here, ih later⟩
  | @carriageReturn text ls unbroken rest ih =>
    -- The carriage return belongs to what stands before the line feed.
    rw [List.map_cons, changeLine, join_carriageReturn, join_carriageReturn, List.append_cons, List.append_cons text]
      at same
    have whole : '\n' ∉ text ++ ['\r'] := by simpa using unbroken
    obtain ⟨here, later⟩ := eq_of_append_feed whole (count_feed_le rest.unbroken f) same
    exact List.forall_mem_cons.mpr ⟨List.append_cancel_right here, ih later⟩

theorem editBy_eq_self_iff {content : List Char} : editBy f content = content ↔ changedLinesBy f content = 0 := by
  rw [changedLinesBy_eq_zero_iff]
  constructor
  · intro same
    apply unchanged_of_join_eq (split_lines content)
    rwa [join_lines]
  · intro same
    have kept : ∀ line ∈ lines content, changeLine f line = line := by
      intro line member
      rw [changeLine, same line member]
    rw [editBy, List.map_congr_left kept, List.map_id', join_lines]

end ImageRelease.Edit
