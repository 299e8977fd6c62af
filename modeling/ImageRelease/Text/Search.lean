/-!
Texts inside texts: stripping a known front, and occurrence as a contiguous part.
-/
namespace ImageRelease.Text

/-- What is left of a text at the front of another, when it stands there. -/
def stripFront? : (front s : List Char) → Option (List Char)
  | [], s => some s
  | _ :: _, [] => none
  | c :: front, d :: s => if c = d then stripFront? front s else none

theorem stripFront?_eq_some_iff {front s rest : List Char} :
    stripFront? front s = some rest ↔ s = front ++ rest := by
  fun_induction stripFront? front s <;> simp_all [eq_comm]

def occurs (needle : List Char) : List Char → Bool
  | [] => needle.isEmpty
  | c :: s => needle.isPrefixOf (c :: s) || occurs needle s

theorem occurs_iff_infix {needle s : List Char} : occurs needle s = true ↔ needle <:+: s := by
  induction s with
  | nil => simp [occurs]
  | cons c s ih => simp [occurs, ih, List.infix_cons_iff, List.isPrefixOf_iff_prefix]

end ImageRelease.Text
