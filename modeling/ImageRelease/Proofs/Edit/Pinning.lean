import Mathlib.Data.List.Forall2
import ImageRelease.Proofs.Edit.Rerelease

/-! What pinning the images of a manifest does to each of its lines. The first marker of an image in a line decides;
what stands before it is kept and what stands behind it is lost. The images may be pinned in any order, since no two
markers can stand at one place.
-/
namespace ImageRelease.Edit

open FileTree

variable {images others : List String} {image : String} {v : Version} {s : List Char} {rs ss : List Replacement}

/-- An image is marked behind the front of a line, and none of the images is marked before. -/
structure FirstMarked (images : List String) (line front : List Char) (image : String) : Prop where
  listed : image ∈ images
  here : front ++ imageMarker image <+: line
  earliest : ∀ other ∈ images, ∀ before, before ++ imageMarker other <+: line → front.length ≤ before.length

/-- A line is kept when no image is marked in it. Otherwise the tag of the image that is marked first takes the place
of everything behind its marker. -/
inductive LinePinned (images : List String) (tag : List Char) (line : List Char) : List Char → Prop where
  | kept (unmarked : ∀ image ∈ images, ¬imageMarker image <:+: line) : LinePinned images tag line line
  | pinned {front : List Char} {image : String} (first : FirstMarked images line front image) :
      LinePinned images tag line (front ++ imageMarker image ++ tag)

theorem eq_of_imageMarker_prefix {i j : String} (first : Plain i) (second : Plain j)
    (one : imageMarker i <+: s) (other : imageMarker j <+: s) : i = j := by
  rcases List.prefix_or_prefix_of_prefix one other with shorter | longer
  · exact eq_of_imageMarker_infix second shorter.isInfix
  · exact Eq.symm <| eq_of_imageMarker_infix first longer.isInfix

theorem named?_eq_some_iff (plain : ∀ image ∈ images, Plain image) :
    named? images s = some image ↔ image ∈ images ∧ imageMarker image <+: s := by
  constructor
  · intro found
    obtain ⟨listed, leading⟩ := leads_of_named? found
    exact ⟨listed, leads_imageMark_iff.mp leading⟩
  · rintro ⟨listed, marked⟩
    have present : (named? images s).isSome :=
      List.find?_isSome.mpr ⟨image, listed, leads_imageMark_iff.mpr marked⟩
    obtain ⟨other, found⟩ := Option.isSome_iff_exists.mp present
    obtain ⟨also, leading⟩ := leads_of_named? found
    have leading := leads_imageMark_iff.mp leading
    obtain rfl := eq_of_imageMarker_prefix (plain other also) (plain image listed) leading marked
    exact found

theorem named?_perm (plain : ∀ image ∈ images, Plain image) (perm : images.Perm others) (s : List Char) :
    named? images s = named? others s := by
  refine List.find?_eq_find?_of_perm perm ?_
  rintro i ⟨one, leadingOne⟩ j ⟨other, leadingOther⟩
  exact eq_of_imageMarker_prefix (plain i one) (plain j other) (leads_imageMark_iff.mp leadingOne)
    (leads_imageMark_iff.mp leadingOther)

theorem applyAll_perm (quiet : Quiet v.chars) (plain : ∀ image ∈ images, Plain image) (perm : images.Perm others)
    (unbroken : '\n' ∉ s) : applyAll (others.map (pinImage v)) s = applyAll (images.map (pinImage v)) s := by
  have listed : ∀ image ∈ others, Plain image := fun image member => plain image (perm.mem_iff.mpr member)
  have same : named? images = named? others := funext (named?_perm plain perm)
  rw [applyAll_pinImage quiet listed unbroken, applyAll_pinImage quiet plain unbroken, same]

theorem linePinned_overwrite (plain : ∀ image ∈ images, Plain image) (v : Version) (s : List Char) :
    LinePinned images ('v' :: v.chars) s (overwrite (named? images) (pinned v) s) := by
  rcases overwrite_cases (named? images) (pinned v) s with ⟨absent, same⟩ | ⟨front, rest, image, first, changed⟩
  · rw [same]
    refine .kept fun image listed within => ?_
    obtain ⟨rest, marked, suffix⟩ := List.infix_iff_prefix_suffix.mp within
    have present : rest ≠ [] := by
      rintro rfl
      simp [imageMarker_eq] at marked
    exact nomatch (absent rest suffix present).symm.trans ((named?_eq_some_iff plain).mpr ⟨listed, marked⟩)
  · obtain ⟨listed, marked⟩ := (named?_eq_some_iff plain).mp first.found
    rw [changed, pinned, ← List.append_assoc]
    refine .pinned ⟨listed, ?_, fun other also before here => ?_⟩
    · rw [first.split]
      exact (List.prefix_append_right_inj front).mpr marked
    · by_contra shorter
      obtain ⟨after, split⟩ := here
      rw [List.append_assoc] at split
      have none := first.earliest before _ split.symm (Nat.lt_of_not_le shorter)
      exact nomatch none.symm.trans ((named?_eq_some_iff plain).mpr ⟨also, List.prefix_append _ _⟩)

theorem FirstMarked.unique (plain : ∀ image ∈ images, Plain image) {front back : List Char} {other : String}
    (first : FirstMarked images s front image) (second : FirstMarked images s back other) :
    front = back ∧ image = other := by
  have length := Nat.le_antisymm (first.earliest other second.listed back second.here)
    (second.earliest image first.listed front first.here)
  obtain ⟨rest, here⟩ := first.here
  obtain ⟨more, there⟩ := second.here
  have same : front ++ (imageMarker image ++ rest) = back ++ (imageMarker other ++ more) := by
    rw [← List.append_assoc, here, ← List.append_assoc, there]
  obtain ⟨rfl, marked⟩ := List.append_inj same length
  refine ⟨rfl, eq_of_imageMarker_prefix (plain image first.listed) (plain other second.listed) ?_
    (List.prefix_append (imageMarker other) more)⟩
  exact ⟨rest, marked⟩

/-- In a line that was pinned, nothing stands behind a marker but the tag, and the marker is the first one that the
line had before. -/
theorem LinePinned.marked_iff (quiet : Quiet v.chars) (plain : ∀ image ∈ images, Plain image) {old new t : List Char}
    (line : LinePinned images ('v' :: v.chars) old new) (listed : image ∈ images) :
    imageMarker image ++ t <:+ new ↔ t = 'v' :: v.chars ∧ ∃ front, FirstMarked images old front image := by
  cases line with
  | kept unmarked =>
    constructor
    · intro suffix
      exact absurd ((List.prefix_append _ t).isInfix.trans suffix.isInfix) (unmarked image listed)
    · rintro ⟨-, front, first⟩
      exact absurd ((List.suffix_append _ _).isInfix.trans first.here.isInfix) (unmarked image listed)
  | pinned first =>
    rename_i front other
    constructor
    · rintro ⟨before, split⟩
      rw [← List.append_assoc] at split
      -- The marker ends before the tag, so it stood in the line before, and not ahead of the first one.
      have within := imageMarker_prefix_of_tag quiet ⟨t, split⟩
      have later := first.earliest image listed before (within.trans first.here)
      obtain ⟨more, rfl⟩ := List.prefix_of_prefix_length_le (List.prefix_append front _)
        ((List.prefix_append before _).trans within) later
      rw [List.append_assoc, List.prefix_append_right_inj] at within
      obtain rfl := eq_of_imageMarker_infix (plain other first.listed)
        ((List.suffix_append more _).isInfix.trans within.isInfix)
      have length := within.length_le
      rw [List.length_append] at length
      obtain rfl := List.eq_nil_of_length_eq_zero (show more.length = 0 by omega)
      exact ⟨by simpa using split, front, first⟩
    · rintro ⟨rfl, back, second⟩
      obtain ⟨rfl, rfl⟩ := first.unique plain second
      rw [List.append_assoc]
      exact List.suffix_append _ _

/-! ### Files -/

theorem edit_congr (same : ∀ s, '\n' ∉ s → applyAll rs s = applyAll ss s) (content : List Char) :
    edit rs content = edit ss content ∧ changedLines rs content = changedLines ss content := by
  have lines : ∀ line ∈ lines content, applyAll rs line.text = applyAll ss line.text :=
    fun line member => same line.text ((split_lines content).unbroken line member)
  constructor
  · rw [edit, edit]
    congr 1
    exact List.map_congr_left fun line member => by rw [editLine, editLine, lines line member]
  · exact List.countP_congr fun line member => by rw [lines line member]

theorem editFile_congr (same : ∀ s, '\n' ∉ s → applyAll rs s = applyAll ss s) (path : String) (files : FileTree) :
    editFile rs path files = editFile ss path files := by
  simp only [editFile, edit_congr same]

theorem readText_of_editFile {files after : FileTree} {path : String} {changed : Nat}
    (done : editFile rs path files = .ok (changed, after)) :
    ∃ text, files.readText path = .ok text ∧ after.readText path = .ok (editText rs text) := by
  obtain ⟨l, found, edited⟩ := editFile_ok done
  have ⟨text, present, put⟩ := edited
  refine ⟨text, readText_ok_iff.mpr ⟨l, found, present⟩, readText_ok_iff.mpr ⟨l, ?_, ?_⟩⟩
  · rw [edited.resolve_eq, found]
  · rw [put, lookup_put _ (ne_root_of_file present), if_pos rfl]

/-- Pinning the images of a file for a version that was read from a text changes nothing but the lines with a marker,
and each of them from the first marker on. A file that is readable, and writable if it is to be changed, is edited so,
and pinning the images in the opposite order comes to the same. -/
theorem pinned_lines {written : String} {v : Version} (parsed : Version.parse written = .ok v) :
    (∀ content : List Char, List.Forall₂ (fun old new : Line => new.ending = old.ending ∧
        LinePinned pinnedImages ("v" ++ written).toList old.text new.text)
      (lines content) (lines (edit (pinImages v) content))) ∧
    (∀ (files : FileTree) (path : String), Admits (pinImages v) path files →
      ∃ text changed after, editFile (pinImages v) path files = .ok (changed, after) ∧
        files.readText path = .ok text ∧
        after.readText path = .ok (String.ofList (edit (pinImages v) text.toList))) ∧
    (∀ content : List Char, edit (pinImages v).reverse content = edit (pinImages v) content) ∧
    ∀ (files : FileTree) (path : String),
      editFile (pinImages v).reverse path files = editFile (pinImages v) path files := by
  have quiet := quiet_version parsed
  have reversed : ∀ s, '\n' ∉ s → applyAll (pinImages v).reverse s = applyAll (pinImages v) s := by
    intro s unbroken
    rw [pinImages, ← List.map_reverse]
    exact applyAll_perm quiet plain_pinnedImages (List.reverse_perm _).symm unbroken
  refine ⟨fun content => ?_, fun files path admitted => ?_, fun content => (edit_congr reversed content).1,
    fun files path => editFile_congr reversed path files⟩
  · rw [lines_edit (overwrites_pinImages quiet).keepsLines, List.forall₂_map_right_iff, List.forall₂_same]
    intro line member
    refine ⟨rfl, ?_⟩
    have tag : ("v" ++ written).toList = 'v' :: v.chars := by simp [Version.chars_of_parse parsed]
    have overwritten := (overwrites_pinImages quiet).line ((split_lines content).unbroken line member)
    rw [tag, editLine, overwritten]
    exact linePinned_overwrite plain_pinnedImages v line.text
  · obtain ⟨changed, after, done⟩ := editFile_of_admits admitted
    obtain ⟨text, before, edited⟩ := readText_of_editFile done
    exact ⟨text, changed, after, done, before, edited⟩

theorem pinned_lines_crowded :
    ∃ v, Version.parse "0.10.0-image.1+build" = .ok v ∧
      edit (pinImages v) crowdedText.toList = ("x image: metallb/controller:v0.10.0-image.1+build\r\n" ++
        "image: image: metallb/speaker:v0.10.0-image.1+build").toList ∧
      List.Forall₂ (fun old new : Line => new.ending = old.ending ∧
          LinePinned pinnedImages ("v" ++ "0.10.0-image.1+build").toList old.text new.text)
        (lines crowdedText.toList) (lines (edit (pinImages v) crowdedText.toList)) ∧
      edit (pinImages v).reverse crowdedText.toList = edit (pinImages v) crowdedText.toList ∧
      ∃ text changed after, editFile (pinImages v) "manifest" crowdedFiles = .ok (changed, after) ∧
        crowdedFiles.readText "manifest" = .ok text ∧
        after.readText "manifest" = .ok (String.ofList (edit (pinImages v) text.toList)) := by
  have parsed : Version.parse "0.10.0-image.1+build" = .ok crowdedVersion := by decide +kernel
  obtain ⟨texts, inFiles, reversed, -⟩ := pinned_lines parsed
  have found : crowdedFiles.resolve "manifest" = .ok ["manifest"] := by decide +kernel
  obtain ⟨⟨text, read⟩, written⟩ : crowdedFiles.Editable "manifest" :=
    editable_iff.mpr ⟨_, crowdedText, found, rfl, List.not_mem_nil⟩
  exact ⟨crowdedVersion, parsed, by decide +kernel, texts _, reversed _,
    inFiles _ _ ⟨text, read, fun _ => written _⟩⟩

end ImageRelease.Edit
