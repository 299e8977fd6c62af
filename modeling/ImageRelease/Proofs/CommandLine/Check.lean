import ImageRelease.CommandLine.Check

/-! What the check of a command line accepts. The characters of a tag and of a user are given by their ranges, and a
request for images is accepted if and only if both follow their rules.
-/
namespace ImageRelease

variable {c : Char} {tag user : String} {images : ImageRequest}

def Arguments.images? (a : Arguments) : Option ImageRequest :=
  match a.request with
  | .build images | .push images => some images
  | .release _ => none

theorem check_of_images? {a : Arguments} {images : ImageRequest} (asked : a.images? = some images) :
    a.check = images.check := by
  unfold Arguments.images? at asked
  unfold Arguments.check
  split at asked <;> simp_all [Request.check]

def IsWordLetter (c : Char) : Prop :=
  'A' ≤ c ∧ c ≤ 'Z' ∨ 'a' ≤ c ∧ c ≤ 'z' ∨ '0' ≤ c ∧ c ≤ '9' ∨ c = '_'

/-- A tag is a match of `[A-Za-z0-9_][A-Za-z0-9_.-]*` of at most 128 bytes. -/
structure TagSpelled (tag : String) : Prop where
  letters : ∃ first rest, tag.toList = first :: rest ∧ IsWordLetter first ∧
    ∀ c ∈ rest, IsWordLetter c ∨ c = '.' ∨ c = '-'
  short : tag.utf8ByteSize ≤ 128

/-- A user has characters, and no blank or colon among them. -/
structure UserSpelled (user : String) : Prop where
  present : user ≠ ""
  letters : ∀ c ∈ user.toList, Text.isBlank c = false ∧ c ≠ ':'

theorem isTagStart_iff : isTagStart c = true ↔ IsWordLetter c := by
  have classes : isTagStart c = (decide ('A' ≤ c ∧ c ≤ 'Z') || decide ('a' ≤ c) && decide (c ≤ 'z') ||
      decide ('0' ≤ c) && decide (c ≤ '9') || c == '_') := rfl
  simp only [classes, Bool.or_eq_true, Bool.and_eq_true, decide_eq_true_eq, beq_iff_eq, IsWordLetter, or_assoc]

theorem isTagChar_iff_letter : isTagChar c = true ↔ IsWordLetter c ∨ c = '.' ∨ c = '-' := by
  simp only [isTagChar, Bool.or_eq_true, isTagStart_iff, beq_iff_eq, or_assoc]

theorem isTag_iff : isTag tag = true ↔ TagSpelled tag := by
  cases letters : tag.toList with
  | nil =>
    refine iff_of_false (by simp [isTag, letters]) fun spelled => ?_
    obtain ⟨first, rest, split, -⟩ := spelled.letters
    exact nomatch letters.symm.trans split
  | cons first rest =>
    simp only [isTag, letters, Bool.and_eq_true, isTagStart_iff, List.all_eq_true, isTagChar_iff_letter,
      decide_eq_true_eq]
    constructor
    · rintro ⟨⟨start, later⟩, short⟩
      exact ⟨⟨first, rest, letters, start, later⟩, short⟩
    · rintro ⟨⟨head, tail, split, start, later⟩, short⟩
      obtain ⟨rfl, rfl⟩ := List.cons.inj (letters.symm.trans split)
      exact ⟨⟨start, later⟩, short⟩

theorem isUser_iff : isUser user = true ↔ UserSpelled user := by
  have present : user.isEmpty = false ↔ user ≠ "" := by
    rw [← Bool.not_eq_true, String.isEmpty_iff]
  simp only [isUser, Bool.and_eq_true, Bool.not_eq_true', present, List.all_eq_true, bne_iff_ne]
  exact ⟨fun ⟨present, letters⟩ => ⟨present, letters⟩, fun ⟨present, letters⟩ => ⟨present, letters⟩⟩

theorem ImageRequest.check_ok_iff :
    images.check = .ok () ↔ TagSpelled images.tag ∧ UserSpelled images.dockerUser := by
  rw [← isTag_iff, ← isUser_iff, check]
  cases isTag images.tag <;> cases isUser images.dockerUser <;> simp

theorem TagSpelled.colon_not_mem (spelled : TagSpelled tag) : ':' ∉ tag.toList := by
  obtain ⟨first, rest, split, start, later⟩ := spelled.letters
  have excluded : ¬IsWordLetter ':' := by
    rw [← isTagStart_iff]
    decide
  rw [split, List.mem_cons, not_or]
  constructor
  · rintro rfl
    exact excluded start
  · intro member
    rcases later ':' member with letter | dot | dash
    · exact excluded letter
    · contradiction
    · contradiction

theorem UserSpelled.colon_not_mem (spelled : UserSpelled user) : ':' ∉ user.toList := fun member =>
  (spelled.letters ':' member).2 rfl

end ImageRelease
