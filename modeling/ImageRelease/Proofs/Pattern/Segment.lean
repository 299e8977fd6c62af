import ImageRelease.Edit.Replacement
import ImageRelease.Proofs.Pattern.Match

/-! The segments of a text: what stands before, between and behind the matches of a pattern. A pattern cuts a text in
one way, and replacing it puts a text between the segments as it is. A plain word between the segments that it leaves
gives the text back, and it is in none of them.
-/
namespace ImageRelease

namespace Pattern

variable {p : Pattern} {atStart afterMatch : Bool} {s taken rest : List Char} {segments : List (List Char)}

/-- A match that takes nothing does not count directly behind another match. -/
structure Counts (p : Pattern) (atStart afterMatch : Bool) (taken rest : List Char) : Prop where
  matched : p.Matches atStart taken rest
  apart : afterMatch = true → taken ≠ []

def Silent (p : Pattern) (atStart afterMatch : Bool) (s : List Char) : Prop :=
  ∀ taken rest, s = taken ++ rest → ¬p.Counts atStart afterMatch taken rest

/-- A match ends the segment before it, and a letter at which there is none belongs to the segment. -/
inductive Cut (p : Pattern) : (atStart afterMatch : Bool) → (s : List Char) → (segments : List (List Char)) → Prop
  | ended {atStart afterMatch : Bool} (silent : p.Silent atStart afterMatch []) : Cut p atStart afterMatch [] [[]]
  | skip {atStart afterMatch : Bool} {c : Char} {s segment : List Char} {segments : List (List Char)}
      (silent : p.Silent atStart afterMatch (c :: s)) (later : Cut p false false s (segment :: segments)) :
      Cut p atStart afterMatch (c :: s) ((c :: segment) :: segments)
  | found {atStart afterMatch : Bool} {s taken rest : List Char} {segments : List (List Char)}
      (split : s = taken ++ rest) (counts : p.Counts atStart afterMatch taken rest)
      (later : Cut p (atStart && taken.isEmpty) true rest segments) : Cut p atStart afterMatch s ([] :: segments)

theorem Cut.ne_nil (cut : p.Cut atStart afterMatch s segments) : segments ≠ [] := by
  cases cut <;> exact List.cons_ne_nil _ _

/-! ### One cut -/

theorem silent_of_none (none : p.matchFront atStart s = none) : p.Silent atStart afterMatch s :=
  fun taken rest split counts => (finds_matchFront p).eq_none_iff.mp none taken rest split counts.matched

theorem silent_of_empty (found : p.matchFront atStart s = some s) : p.Silent atStart true s := by
  rintro taken rest rfl counts
  rw [matchFront_append_of_matches counts.matched, Option.some.injEq, List.self_eq_append_left] at found
  exact counts.apart rfl found

theorem eq_of_matchFront (found : p.matchFront atStart s = some rest) (whole : ¬rest.length < s.length) : rest = s := by
  obtain ⟨taken, rfl, -⟩ := (finds_matchFront p atStart s rest).mp found
  have nothing : taken = [] := by
    rw [List.length_append] at whole
    exact List.length_eq_zero_iff.mp (by omega)
  rw [nothing, List.nil_append]

theorem exists_cut_of_empty (found : p.matchFront atStart s = some s)
    (behind : ∃ segments, p.Cut atStart true s segments) (afterMatch : Bool) :
    ∃ segments, p.Cut atStart afterMatch s segments := by
  cases afterMatch with
  | true => exact behind
  | false =>
    obtain ⟨segments, later⟩ := behind
    obtain ⟨taken, split, matched⟩ := (finds_matchFront p atStart s s).mp found
    obtain rfl := List.self_eq_append_left.mp split
    exact ⟨[] :: segments, .found split ⟨matched, nofun⟩ (by simpa using later)⟩

theorem exists_cut_cons {c : Char} (silent : p.Silent atStart afterMatch (c :: s))
    (later : ∃ segments, p.Cut false false s segments) : ∃ segments, p.Cut atStart afterMatch (c :: s) segments := by
  obtain ⟨segments, later⟩ := later
  obtain ⟨segment, segments, rfl⟩ := List.exists_cons_of_ne_nil later.ne_nil
  exact ⟨(c :: segment) :: segments, .skip silent later⟩

theorem exists_cut (p : Pattern) (atStart afterMatch : Bool) (s : List Char) :
    ∃ segments, p.Cut atStart afterMatch s segments := by
  induction atStart, afterMatch, s using replaceFrom.induct p [] with
  | case1 atStart afterMatch s rest found shorter ih =>
    obtain ⟨segments, later⟩ := ih
    obtain ⟨taken, rfl, matched⟩ := (finds_matchFront p atStart s rest).mp found
    cases taken with
    | nil => exact absurd shorter (Nat.lt_irrefl _)
    | cons d taken =>
      exact ⟨[] :: segments, .found rfl ⟨matched, fun _ => List.cons_ne_nil d taken⟩ (by simpa using later)⟩
  | case2 atStart afterMatch rest found whole =>
    obtain rfl := eq_of_matchFront found whole
    exact exists_cut_of_empty found ⟨[[]], .ended (silent_of_empty found)⟩ afterMatch
  | case3 atStart afterMatch rest c s found whole ih =>
    obtain rfl := eq_of_matchFront found whole
    exact exists_cut_of_empty found (exists_cut_cons (silent_of_empty found) ih) afterMatch
  | case4 atStart afterMatch none => exact ⟨[[]], .ended (silent_of_none none)⟩
  | case5 atStart afterMatch c s none ih => exact exists_cut_cons (silent_of_none none) ih

theorem cut_of_absent
    (absent : ∀ front rest, s = front ++ rest → p.matchFront (atStart && front.isEmpty) rest = none) :
    p.Cut atStart false s [s] := by
  induction s generalizing atStart with
  | nil => exact .ended (silent_of_none (by simpa using absent [] [] rfl))
  | cons c s ih =>
    have here : p.matchFront atStart (c :: s) = none := by simpa using absent [] (c :: s) rfl
    have later : p.Cut false false s [s] := by
      apply ih
      intro front rest split
      simpa using absent (c :: front) rest (congrArg (c :: ·) split)
    exact .skip (silent_of_none here) later

theorem Cut.unique {others : List (List Char)} (cut : p.Cut atStart afterMatch s segments)
    (also : p.Cut atStart afterMatch s others) : segments = others := by
  induction cut generalizing others with
  | ended silent =>
    cases also with
    | ended => rfl
    | found split counts => exact absurd counts (silent _ _ split)
  | skip silent later ih =>
    cases also with
    | skip _ also =>
      obtain ⟨rfl, rfl⟩ := List.cons.inj (ih also)
      rfl
    | found split counts => exact absurd counts (silent _ _ split)
  | found split counts later ih =>
    cases also with
    | ended silent => exact absurd counts (silent _ _ split)
    | skip silent => exact absurd counts (silent _ _ split)
    | found resplit again also =>
      obtain ⟨rfl, rfl⟩ := counts.matched.unique again.matched (split.symm.trans resplit)
      rw [ih also]

/-! ### Replacing -/

/-- Where no match counts the search fails, or it finds behind a match one that takes nothing. -/
theorem Silent.cases (silent : p.Silent atStart afterMatch s) :
    p.matchFront atStart s = none ∨ p.matchFront atStart s = some s ∧ afterMatch = true := by
  cases found : p.matchFront atStart s with
  | none => exact .inl rfl
  | some rest =>
    obtain ⟨taken, rfl, matched⟩ := (finds_matchFront p atStart s rest).mp found
    by_cases apart : afterMatch = true → taken ≠ []
    · exact absurd ⟨matched, apart⟩ (silent taken rest rfl)
    · obtain ⟨after, rfl⟩ : afterMatch = true ∧ taken = [] := by simpa using apart
      exact .inr ⟨rfl, after⟩

variable {text : List Char}

theorem replaceFrom_nil_of_silent (silent : p.Silent atStart afterMatch []) :
    p.replaceFrom text atStart afterMatch [] = [] := by
  rcases silent.cases with none | ⟨found, rfl⟩
  · rw [replaceFrom, none]
  · rw [replaceFrom, found]
    rfl

theorem replaceFrom_cons_of_silent {c : Char} (silent : p.Silent atStart afterMatch (c :: s)) :
    p.replaceFrom text atStart afterMatch (c :: s) = c :: p.replaceFrom text false false s := by
  rcases silent.cases with none | ⟨found, rfl⟩
  · rw [replaceFrom, none]
  · rw [replaceFrom, found]
    simp

theorem replaceFrom_of_empty (found : p.matchFront atStart s = some s) :
    p.replaceFrom text atStart false s = text ++ p.replaceFrom text atStart true s := by
  have silent := silent_of_empty found
  cases s with
  | nil =>
    rw [replaceFrom_nil_of_silent silent, replaceFrom, found]
    simp
  | cons c s =>
    rw [replaceFrom_cons_of_silent silent, replaceFrom, found]
    simp

theorem replaceFrom_of_counts (counts : p.Counts atStart afterMatch taken rest) :
    p.replaceFrom text atStart afterMatch (taken ++ rest) =
      text ++ p.replaceFrom text (atStart && taken.isEmpty) true rest := by
  have found := matchFront_append_of_matches counts.matched
  cases taken with
  | nil =>
    obtain rfl : afterMatch = false := by simpa using counts.apart
    simpa using replaceFrom_of_empty found
  | cons c taken =>
    have shorter : rest.length < (c :: (taken ++ rest)).length := by
      simp only [List.length_cons, List.length_append]
      omega
    rw [List.cons_append] at found ⊢
    rw [replaceFrom, found]
    simp only [if_pos shorter, List.isEmpty_cons, Bool.and_false]

theorem Cut.replaceFrom_eq (cut : p.Cut atStart afterMatch s segments) (text : List Char) :
    p.replaceFrom text atStart afterMatch s = text.intercalate segments := by
  induction cut with
  | ended silent => rw [replaceFrom_nil_of_silent silent, List.intercalate_singleton]
  | skip silent later ih => rw [replaceFrom_cons_of_silent silent, ih, List.intercalate_cons_cons_left]
  | found split counts later ih =>
    rw [split, replaceFrom_of_counts counts, ih, List.intercalate_cons_of_ne_nil later.ne_nil, List.nil_append]

/-- Matches that take nothing count, but not between the run and the letter behind it. -/
example : replaceAll [.many (.literal 'a')] "$0".toList "baac".toList = "$0b$0c$0".toList := by decide +kernel

/-! ### Plain words -/

section Literal

variable {word : List Char}

theorem counts_literal_iff (nonempty : word ≠ []) :
    (literal word).Counts atStart afterMatch taken rest ↔ taken = word := by
  constructor
  · intro counts
    exact matches_literal_iff.mp counts.matched
  · rintro rfl
    exact ⟨matches_literal_iff.mpr rfl, fun _ => nonempty⟩

theorem silent_literal_iff (nonempty : word ≠ []) : (literal word).Silent atStart afterMatch s ↔ ¬word <+: s := by
  constructor
  · rintro silent ⟨rest, split⟩
    exact silent word rest split.symm ((counts_literal_iff nonempty).mpr rfl)
  · rintro absent taken rest rfl counts
    exact absent ⟨rest, by rw [(counts_literal_iff nonempty).mp counts]⟩

theorem Cut.intercalate_literal (cut : (literal word).Cut atStart afterMatch s segments) :
    word.intercalate segments = s := by
  induction cut with
  | ended => rw [List.intercalate_singleton]
  | skip _ _ ih => rw [List.intercalate_cons_cons_left, ih]
  | found split counts later ih =>
    rw [List.intercalate_cons_of_ne_nil later.ne_nil, ih, split, matches_literal_iff.mp counts.matched,
      List.nil_append]

theorem prefix_intercalate (word segment : List Char) (segments : List (List Char)) :
    segment <+: word.intercalate (segment :: segments) := by
  cases segments with
  | nil => simp
  | cons other segments =>
    rw [List.intercalate_cons_cons, List.append_assoc]
    exact List.prefix_append _ _

theorem Cut.absent_literal (cut : (literal word).Cut atStart afterMatch s segments) (nonempty : word ≠ []) :
    ∀ segment ∈ segments, ¬word <:+: segment := by
  have empty : ¬word <:+: [] := by rwa [List.infix_nil]
  induction cut with
  | ended => exact List.forall_mem_singleton.mpr empty
  | @skip _ _ c s segment segments silent later ih =>
    obtain ⟨here, others⟩ := List.forall_mem_cons.mp ih
    refine List.forall_mem_cons.mpr ⟨fun within => ?_, others⟩
    rcases List.infix_cons_iff.mp within with front | inside
    · -- The segment is the front of what is left, so the word would stand at the front of that.
      have first : segment <+: s := by
        rw [← later.intercalate_literal]
        exact prefix_intercalate word segment segments
      exact (silent_literal_iff nonempty).mp silent (front.trans (List.cons_prefix_cons.mpr ⟨rfl, first⟩))
    · exact here inside
  | found _ _ _ ih => exact List.forall_mem_cons.mpr ⟨empty, ih⟩

end Literal

end Pattern

namespace Edit

/-- A pattern and a line have their segments, and a replacement puts its text between them, whatever that text is. With
a plain word between them the segments are the line again, and the word is in none of them. -/
theorem inserted_verbatim {source : String} {p : Pattern} (accepted : Pattern.parse? source = some p)
    (line : List Char) :
    ∃ segments : List (List Char), (∀ others, p.Cut true false line others ↔ others = segments) ∧
      (∀ text, Replacement.apply ⟨p, text⟩ line = text.intercalate segments) ∧
      (Pattern.Plain source.toList → source ≠ "" →
        source.toList.intercalate segments = line ∧ ∀ segment ∈ segments, ¬source.toList <:+: segment) := by
  obtain ⟨segments, cut⟩ := p.exists_cut true false line
  refine ⟨segments, fun others => ⟨fun also => also.unique cut, fun same => same ▸ cut⟩, cut.replaceFrom_eq,
    fun plain nonempty => ?_⟩
  obtain rfl : Pattern.literal source.toList = p := Option.some.inj ((Pattern.parse?_of_plain plain).symm.trans accepted)
  exact ⟨cut.intercalate_literal, cut.absent_literal fun nothing => nonempty (String.toList_eq_nil_iff.mp nothing)⟩

theorem inserted_verbatim_overlapping :
    Pattern.parse? "aa" = some (Pattern.literal "aa".toList) ∧ Pattern.Plain "aa".toList ∧ "aa" ≠ "" ∧
      ∃ segments, "$0".toList.intercalate segments = "$0ab$0".toList ∧
        (∀ text, Replacement.apply ⟨Pattern.literal "aa".toList, text⟩ "aaabaa".toList = text.intercalate segments) ∧
        "aa".toList.intercalate segments = "aaabaa".toList ∧ ∀ segment ∈ segments, ¬"aa".toList <:+: segment := by
  have plain : Pattern.Plain "aa".toList := by decide
  have accepted := Pattern.parse?_of_plain plain
  have replaced : Replacement.apply ⟨Pattern.literal "aa".toList, "$0".toList⟩ "aaabaa".toList = "$0ab$0".toList := by
    decide +kernel
  obtain ⟨segments, -, inserted, whole⟩ := inserted_verbatim accepted "aaabaa".toList
  exact ⟨accepted, plain, by decide, segments, (inserted _).symm.trans replaced, inserted, whole plain (by decide)⟩

end Edit

end ImageRelease
