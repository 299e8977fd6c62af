import ImageRelease.Toml.Quote

/-! Texts between quotes on one line. A character is written as itself, if that may be done, or by one of its escapes,
and whichever way is taken, the text between the quotes is read back.
-/
namespace ImageRelease.Toml

def escapeWidth? : Char → Option Nat
  | 'x' => some 2
  | 'u' => some 4
  | 'U' => some 8
  | _ => none

/-- A body between quotes is a spelling of a text. -/
inductive Spells : List Char → List Char → Prop where
  | nil : Spells [] []
  | plain {body text : List Char} {c : Char} (quote : c ≠ '"') (escape : c ≠ '\\') (printed : isControl c = false)
      (more : Spells body text) : Spells (c :: body) (c :: text)
  | short {body text : List Char} {mark c : Char} (escaped : shortEscape? mark = some c) (more : Spells body text) :
      Spells ('\\' :: mark :: body) (c :: text)
  | code {body text digits : List Char} {mark c : Char} (width : escapeWidth? mark = some digits.length)
      (escaped : codePoint? digits = some c) (more : Spells body text) :
      Spells ('\\' :: mark :: (digits ++ body)) (c :: text)

variable {body text rest digits : List Char} {c mark : Char}

theorem basicBody_plain (quote : c ≠ '"') (escape : c ≠ '\\') (printed : isControl c = false) :
    basicBody (c :: rest) = addChar (some c) (basicBody rest) := by
  rw [basicBody]
  · simp [printed]
  all_goals simp_all

theorem basicBody_short (escaped : shortEscape? mark = some c) :
    basicBody ('\\' :: mark :: rest) = addChar (some c) (basicBody rest) := by
  have uncoded : mark ≠ 'x' ∧ mark ≠ 'u' ∧ mark ≠ 'U' := by
    refine ⟨?_, ?_, ?_⟩ <;> rintro rfl <;> contradiction
  obtain ⟨x, u, capital⟩ := uncoded
  rw [basicBody, escaped]
  all_goals simp_all

theorem basicBody_code (width : escapeWidth? mark = some digits.length) (escaped : codePoint? digits = some c) :
    basicBody ('\\' :: mark :: (digits ++ rest)) = addChar (some c) (basicBody rest) := by
  unfold escapeWidth? at width
  split at width
  · match digits, width with
    | [a, b], _ =>
      rw [← escaped]
      rfl
  · match digits, width with
    | [a, b, c, d], _ =>
      rw [← escaped]
      rfl
  · match digits, width with
    | [a, b, c, d, e, f, g, h], _ =>
      rw [← escaped]
      rfl
  · contradiction

theorem basicBody_spelling (spelled : Spells body text) (rest : List Char) :
    basicBody (body ++ '"' :: rest) = some (text, rest) := by
  induction spelled with
  | nil => rfl
  | plain quote escape printed more ih =>
    rw [List.cons_append, basicBody_plain quote escape printed, ih]
    rfl
  | short escaped more ih =>
    rw [List.cons_append, List.cons_append, basicBody_short escaped, ih]
    rfl
  | code width escaped more ih =>
    rw [List.cons_append, List.cons_append, List.append_assoc, basicBody_code width escaped, ih]
    rfl

theorem Spells.head?_ne_quote (spelled : Spells body text) : body.head? ≠ some '"' := by
  cases spelled <;> simp_all

/-- Quotes around a spelling do not look like the opening of a text over several lines, unless the spelling is empty
and one more quote follows. -/
theorem takeText_spelling (spelled : Spells body text) (rest : List Char) (follows : rest.head? ≠ some '"') :
    takeText ('"' :: (body ++ '"' :: rest)) = some (text, rest) := by
  rw [← basicBody_spelling spelled rest]
  have single : (body ++ '"' :: rest).take 2 ≠ ['"', '"'] := by
    have front := spelled.head?_ne_quote
    cases body with
    | nil => cases rest <;> simp_all
    | cons c body => simp_all
  unfold takeText
  split <;> simp_all

/-! ### Every text has a spelling -/

theorem codePoint?_control (control : isControl c = true) :
    codePoint? ['0', '0', Nat.digitChar (c.toNat / 16), Nat.digitChar (c.toNat % 16)] = some c := by
  have small : ∀ n < 128,
      codePoint? ['0', '0', Nat.digitChar (n / 16), Nat.digitChar (n % 16)] = some (Char.ofNat n) := by decide +kernel
  have bound : c.toNat < 128 := by
    simp only [isControl, Bool.or_eq_true, Bool.and_eq_true, decide_eq_true_eq, beq_iff_eq] at control
    omega
  rw [small c.toNat bound, Char.ofNat_toNat]

theorem exists_spells (text : List Char) : ∃ body, Spells body text := by
  induction text with
  | nil => exact ⟨[], .nil⟩
  | cons c text ih =>
    obtain ⟨body, spelled⟩ := ih
    by_cases quote : c = '"'
    · have escaped : shortEscape? '"' = some c := by rw [quote]; rfl
      exact ⟨_, .short escaped spelled⟩
    by_cases escape : c = '\\'
    · have escaped : shortEscape? '\\' = some c := by rw [escape]; rfl
      exact ⟨_, .short escaped spelled⟩
    cases control : isControl c with
    | false => exact ⟨_, .plain quote escape control spelled⟩
    | true =>
      have width : escapeWidth? 'u' = some 4 := rfl
      exact ⟨_, .code width (codePoint?_control control) spelled⟩

end ImageRelease.Toml
