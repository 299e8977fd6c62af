import Mathlib.Data.List.Basic
import Mathlib.Data.List.Find
import Mathlib.Data.List.Infix
import ImageRelease.Proofs.Pattern.Sweep
import ImageRelease.Proofs.Version.Chars

/-! The edits of a release are overwritings. Each has its marks: the name of an image before its tag, and the name of
a version before its sign. What is put there is led by the same mark, and nothing else in it is taken for
one, since a version neither breaks a line nor has the letter that ends the mark of an image.
-/
namespace ImageRelease.Edit

/-- What stands in the texts of a release: no letter of a version breaks a line or ends a mark. -/
structure Quiet (s : List Char) : Prop where
  unbroken : ∀ c ∈ s, c ≠ '\n' ∧ c ≠ '\r'
  unended : ':' ∉ s

theorem quiet_version {v : Version} {written : String} (parsed : Version.parse written = .ok v) : Quiet v.chars := by
  have readable := Version.isVersionChar_of_parse parsed
  have absent {c : Char} (other : Version.isVersionChar c = false) : ∀ d ∈ v.chars, d ≠ c := by
    rintro d member rfl
    rw [readable d member] at other
    contradiction
  exact ⟨fun c member => ⟨absent (by decide) c member, absent (by decide) c member⟩,
    fun member => absent (by decide) ':' member rfl⟩

/-! ### Images -/

section Images

variable {images : List String} {image : String} {v : Version} {s rest : List Char}

def imageMark (image : String) : Mark := ⟨imageMarker image, fun _ => true⟩

def named? (images : List String) (s : List Char) : Option String :=
  images.find? fun image => (imageMark image).leads s

def pinned (v : Version) (image : String) : List Char := imageMarker image ++ 'v' :: v.chars

/-- The name of an image has neither the first nor the last letter of its mark, and stands in one line. -/
def Plain (image : String) : Prop :=
  ∀ c ∈ image.toList, c ≠ 'i' ∧ c ≠ ':' ∧ c ≠ '\n' ∧ c ≠ '\r'

theorem imageMarker_eq (image : String) :
    imageMarker image = 'i' :: ("mage: metallb/".toList ++ (image.toList ++ [':'])) := by
  simp [imageMarker]

theorem imageMarker_single (plain : Plain image) :
    'i' ∉ "mage: metallb/".toList ++ (image.toList ++ [':']) := by
  have absent : 'i' ∉ image.toList := fun member => (plain 'i' member).1 rfl
  simpa using absent

theorem led_imageMark (plain : Plain image) : (imageMark image).Led 'i' where
  word := ⟨_, imageMarker_eq image, imageMarker_single plain⟩
  settled := settled_true 'i'

theorem apply_pinImage (v : Version) (plain : Plain image) {line : List Char} (unbroken : '\n' ∉ line) :
    (pinImage v image).apply line =
      overwrite (fun rest => if (imageMark image).leads rest then some image else none) (pinned v) line := by
  have sweeps := Pattern.sweeps_literal Pattern.sweeps_rest (imageMarker image)
  have text : (pinImage v image).text = pinned v image := by simp [pinned, pinImage, Version.tag]
  rw [Replacement.apply, text]
  exact Pattern.replaceAll_of_sweeps (led_imageMark plain) sweeps (pinned v) image unbroken

theorem leads_imageMark_iff : (imageMark image).leads s = true ↔ imageMarker image <+: s := by
  simp only [Mark.leads, imageMark, Option.any_true, Option.isSome_iff_exists, Text.stripFront?_eq_some_iff]
  exact exists_congr fun _ => eq_comm

theorem prefix_of_prefix_append {w a t : List Char} {x : Char} (absent : x ∉ t)
    (leading : w ++ [x] <+: a ++ t) : w ++ [x] <+: a := by
  rcases List.prefix_or_prefix_of_prefix leading (List.prefix_append a t) with within | ⟨more, split⟩
  · exact within
  · rcases List.eq_nil_or_concat more with rfl | ⟨init, last, rfl⟩
    · rw [← split, List.append_nil]
    · rw [List.concat_eq_append] at split
      have ends : a ++ init = w ∧ [last] = [x] := by
        rw [← List.append_assoc] at split
        exact List.append_inj' split rfl
      obtain ⟨rfl, same⟩ := ends
      rw [← same, List.append_assoc, List.prefix_append_right_inj] at leading
      rw [List.singleton_inj] at same
      exact absurd (leading.subset (by simp [same])) absent

theorem eq_of_imageMarker_infix {i j : String} (plain : Plain j)
    (within : imageMarker i <:+: imageMarker j) : i = j := by
  rw [imageMarker_eq j, List.infix_cons_iff] at within
  rcases within with ⟨rest, same⟩ | inside
  · rw [imageMarker_eq i] at same
    have names : i.toList ++ ':' :: rest = j.toList ++ [':'] := by simpa using same
    have unended : ':' ∉ j.toList := fun member => (plain ':' member).2.1 rfl
    obtain ⟨same, -⟩ := (List.append_cons_inj_of_notMem unended List.not_mem_nil).mp names.symm
    exact String.toList_injective same.symm
  · rw [imageMarker_eq i] at inside
    exact absurd (inside.subset List.mem_cons_self) (imageMarker_single plain)

theorem imageMarker_prefix_of_tag {before front : List Char} (quiet : Quiet v.chars)
    (leading : before ++ imageMarker image <+: front ++ 'v' :: v.chars) : before ++ imageMarker image <+: front := by
  have absent : ':' ∉ 'v' :: v.chars := by simpa using quiet.unended
  have ended : before ++ imageMarker image = before ++ ("image: metallb/" ++ image).toList ++ [':'] := by
    simp [imageMarker]
  rw [ended] at leading ⊢
  exact prefix_of_prefix_append absent leading

theorem imageMarker_infix_of_tag {front : List Char} (quiet : Quiet v.chars)
    (within : imageMarker image <:+: front ++ 'v' :: v.chars) : imageMarker image <:+: front := by
  obtain ⟨before, after, split⟩ := within
  exact (List.suffix_append _ _).isInfix.trans (imageMarker_prefix_of_tag quiet ⟨after, split⟩).isInfix

theorem eq_of_named {i j : String} (quiet : Quiet v.chars) (plain : Plain j) (within : rest <:+: pinned v j)
    (named : (imageMark i).leads rest = true) : i = j :=
  eq_of_imageMarker_infix plain
    (imageMarker_infix_of_tag quiet ((leads_imageMark_iff.mp named).isInfix.trans within))

theorem named_pinned (v : Version) (image : String) : (imageMark image).leads (pinned v image) = true :=
  leads_imageMark_iff.mpr (List.prefix_append _ _)

theorem pinned_letter (v : Version) (image : String) : ∃ s, pinned v image = 'i' :: s := by
  rw [pinned, imageMarker_eq]
  exact ⟨_, rfl⟩

theorem leads_of_named? (found : named? images rest = some image) :
    image ∈ images ∧ (imageMark image).leads rest = true :=
  ⟨List.mem_of_find?_eq_some found, List.find?_some (p := fun image => (imageMark image).leads rest) found⟩

theorem named?_letter (plain : ∀ image ∈ images, Plain image) (found : named? images rest = some image) :
    ∃ s, rest = 'i' :: s := by
  obtain ⟨member, named⟩ := leads_of_named? found
  exact (led_imageMark (plain image member)).eq_cons_of_leads named

theorem whole_pinned (quiet : Quiet v.chars) (plain : Plain image) : Whole (pinned v image) where
  present := by simp [pinned]
  unbroken := by
    have word : ∀ c ∈ "image: metallb/".toList, c ≠ '\n' ∧ c ≠ '\r' := by simp
    have name : ∀ c ∈ image.toList, c ≠ '\n' ∧ c ≠ '\r' := fun c member => (plain c member).2.2
    have marker : ∀ c ∈ imageMarker image, c ≠ '\n' ∧ c ≠ '\r' := by
      simp only [imageMarker, String.toList_append, List.forall_mem_append]
      exact ⟨⟨word, name⟩, by simp⟩
    exact List.forall_mem_append.mpr
      ⟨marker, List.forall_mem_cons.mpr ⟨by decide, quiet.unbroken⟩⟩

/-- Pinning images one after the other overwrites for all of them at once. -/
theorem applyAll_pinImage (quiet : Quiet v.chars) (plain : ∀ image ∈ images, Plain image) {line : List Char}
    (unbroken : '\n' ∉ line) :
    applyAll (images.map (pinImage v)) line = overwrite (named? images) (pinned v) line := by
  -- The last image is pinned last, on what pinning the others has left.
  induction images using List.reverseRecOn with
  | nil => exact (overwrite_of_absent fun _ _ => rfl).symm
  | append_singleton images image ih =>
    have ⟨earlier, last⟩ := List.forall_mem_append.mp plain
    have here := last image List.mem_cons_self
    have kept : '\n' ∉ overwrite (named? images) (pinned v) line :=
      (keepsLines_overwrite fun rest k found =>
        whole_pinned quiet (earlier k (leads_of_named? found).1)).unbroken unbroken
    have unseen : Unseen (named? images) (pinned v)
        fun rest => if (imageMark image).leads rest then some image else none := by
      refine unseen_of_letter 'i' (fun rest k => named?_letter earlier) (pinned_letter v) fun c s a b => ?_
      rw [(led_imageMark here).leads_congr c s a b]
    have both : applyAll ((images ++ [image]).map (pinImage v)) line =
        (pinImage v image).apply (applyAll (images.map (pinImage v)) line) := by
      simp [applyAll, List.foldl_append]
    rw [both, ih earlier, apply_pinImage v here kept, overwrite_second unseen]
    · congr 1
      funext rest
      simp [named?, List.find?_append]
    · intro rest k found
      by_cases same : image = k
      · subst same
        exact overwrite_of_key (by simp [pinned]) (by rw [if_pos (named_pinned v image)])
      · refine overwrite_of_absent fun rest within => if_neg fun named => same ?_
        exact eq_of_named quiet (earlier k (leads_of_named? found).1) within.isInfix named

theorem refound_pinned (quiet : Quiet v.chars) (plain : ∀ image ∈ images, Plain image) :
    Refound (named? images) (pinned v) where
  empty := List.find?_eq_none.mpr fun image member => by
    rw [(led_imageMark (plain image member)).leads_nil]
    exact Bool.false_ne_true
  again {rest k} found := by
    have member := (leads_of_named? found).1
    have some_found : (named? images (pinned v k)).isSome :=
      List.find?_isSome.mpr ⟨k, member, named_pinned v k⟩
    obtain ⟨j, there⟩ := Option.isSome_iff_exists.mp some_found
    obtain rfl := eq_of_named quiet (plain k member) (List.infix_refl _) (leads_of_named? there).2
    exact there
  unseen := by
    refine unseen_of_letter 'i' (fun rest k => named?_letter plain) (pinned_letter v) fun c s a b => ?_
    refine List.find?_congr fun image member => ?_
    exact (led_imageMark (plain image member)).leads_congr c s a b

theorem plain_pinnedImages : ∀ image ∈ pinnedImages, Plain image := by simp [pinnedImages, Plain]

theorem overwrites_pinImages (quiet : Quiet v.chars) :
    Overwrites (pinImages v) (named? pinnedImages) (pinned v) where
  line := applyAll_pinImage quiet plain_pinnedImages
  refound := refound_pinned quiet plain_pinnedImages
  whole _ k found := whole_pinned quiet (plain_pinnedImages k (leads_of_named? found).1)

end Images

/-! ### The version of a source file -/

section Assignment

variable {v : Version} {s : List Char}

def signMark : Mark := ⟨['='], fun _ => true⟩

def versionMark : Mark := ⟨versionWord, CharClass.blank.run signMark.leads⟩

theorem led_versionMark : versionMark.Led 'v' where
  word := ⟨"ersion".toList, by decide, by decide⟩
  settled := CharClass.settled_run (by decide) (Mark.settled_leads (by decide) (settled_true 'v'))

/-- The sign is no blank, so it is looked for behind all blanks only. -/
theorem signMark_apart (c : Char) (s : List Char) (blank : CharClass.blank.contains c = true) :
    signMark.leads (c :: s) = false := by
  have other : '=' ≠ c := by
    rintro rfl
    exact absurd blank (by decide)
  simp [signMark, Mark.leads, Text.stripFront?, other]

theorem sweeps_versionPattern : versionPattern.Sweeps versionMark.leads := by
  have sign := Pattern.sweeps_literal Pattern.sweeps_rest ['=']
  exact Pattern.sweeps_literal (Pattern.sweeps_some sign signMark_apart) versionWord

def assigned? (s : List Char) : Option Unit := if versionMark.leads s then some () else none

theorem assigned?_assignment (v : Version) : assigned? (versionAssignment v) = some () := rfl

theorem assigned?_letter {k : Unit} (found : assigned? s = some k) : ∃ rest, s = 'v' :: rest := by
  refine led_versionMark.eq_cons_of_leads ?_
  by_contra absent
  rw [assigned?, if_neg absent] at found
  contradiction

theorem assignment_letter (v : Version) : ∃ s, versionAssignment v = 'v' :: s := ⟨_, rfl⟩

theorem refound_assignment (v : Version) : Refound assigned? fun _ => versionAssignment v where
  empty := rfl
  again _ := assigned?_assignment v
  unseen := by
    refine unseen_of_letter 'v' (fun _ _ => assigned?_letter) (fun _ => assignment_letter v) fun c s a b => ?_
    rw [assigned?, led_versionMark.leads_congr c s a b]
    rfl

theorem whole_assignment (quiet : Quiet v.chars) : Whole (versionAssignment v) where
  present := by simp [versionAssignment]
  unbroken := by
    unfold versionAssignment versionWord
    simp only [List.forall_mem_append]
    exact ⟨⟨⟨by simp, by simp⟩, quiet.unbroken⟩, by simp⟩

theorem overwrites_assignVersion (quiet : Quiet v.chars) :
    Overwrites [assignVersion v] assigned? fun _ => versionAssignment v where
  line unbroken :=
    Pattern.replaceAll_of_sweeps led_versionMark sweeps_versionPattern (fun _ => versionAssignment v) () unbroken
  refound := refound_assignment v
  whole _ _ _ := whole_assignment quiet

end Assignment

/-- The edits that a release makes, each of them for a version: those of the manifest and those of the version
file. -/
def releaseEdits : List (Version → List Replacement) := [pinImages, fun v => [assignVersion v]]

theorem overwrites_releaseEdits {edits : Version → List Replacement} (listed : edits ∈ releaseEdits) :
    ∃ (κ : Type) (key : List Char → Option κ), ∀ {v : Version}, Quiet v.chars →
      ∃ text : κ → List Char, Overwrites (edits v) key text := by
  simp only [releaseEdits, List.mem_cons, List.not_mem_nil, or_false] at listed
  rcases listed with rfl | rfl
  · exact ⟨String, named? pinnedImages, fun quiet => ⟨_, overwrites_pinImages quiet⟩⟩
  · exact ⟨Unit, assigned?, fun quiet => ⟨_, overwrites_assignVersion quiet⟩⟩

end ImageRelease.Edit
