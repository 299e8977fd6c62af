import ImageRelease.Proofs.CommandLine.Check
import ImageRelease.Proofs.Edit.Pinning

/-! The tags that a release leaves in a manifest, compared with those that images may be built and pushed with. All of a
version but the mark of its build metadata may stand in a tag. So the tag of a version is refused if the version has
build metadata, or if it is too long.
-/
namespace ImageRelease

variable {written : String} {v : Version}

/-! ### Versions as tags -/

theorem isTagChar_iff {c : Char} (inside : Version.isVersionChar c = true) : isTagChar c = true ↔ c ≠ '+' := by
  constructor
  · rintro allowed rfl
    exact absurd allowed (by decide)
  · intro other
    have dotted : Version.isDottedChar c = true := (Version.isVersionChar_iff.mp inside).resolve_right other
    simp only [Version.isDottedChar, Version.isIdentifierChar, Bool.or_eq_true, beq_iff_eq] at dotted
    simp only [isTagChar, isTagStart, Bool.or_eq_true, beq_iff_eq]
    tauto

theorem isTag_tag_iff (parsed : Version.parse written = .ok v) :
    isTag v.tag = true ↔ v.build = [] ∧ 1 + written.utf8ByteSize ≤ tagLimit := by
  have text : v.text = written := by rw [Version.text, Version.chars_of_parse parsed, String.ofList_toList]
  have letters : v.tag.toList = 'v' :: v.chars := by simp [Version.tag]
  have size : v.tag.utf8ByteSize = 1 + written.utf8ByteSize := by
    rw [Version.tag, text, String.utf8ByteSize_append]
    rfl
  have allowed : v.chars.all isTagChar = true ↔ v.build = [] := by
    calc
      v.chars.all isTagChar = true ↔ ∀ c ∈ v.chars, c ≠ '+' := by
        rw [List.all_eq_true]
        exact forall₂_congr fun c member => isTagChar_iff (Version.isVersionChar_of_parse parsed c member)
      _ ↔ '+' ∉ v.chars := List.forall_mem_ne'
      _ ↔ v.build = [] := by rw [Version.plus_mem_chars_iff parsed, not_not]
  have start : isTagStart 'v' = true := by decide
  simp only [isTag, letters, size, start, Bool.true_and, Bool.and_eq_true, allowed, decide_eq_true_eq]

theorem check_of_isUser {images : ImageRequest} (user : isUser images.dockerUser = true) :
    images.check = if isTag images.tag then .ok ()
      else .error (.badArguments ("Invalid docker tag '" ++ images.tag ++ "'")) := by
  simp only [ImageRequest.check, user]
  cases isTag images.tag <;> rfl

namespace Edit

open FileTree

/-! ### Tags in a manifest -/

/-- A line of a manifest names an image, and all behind its marker is the tag. -/
def References (content : List Char) (image tag : String) : Prop :=
  ∃ line ∈ lines content, imageMarker image ++ tag.toList <:+ line.text

theorem references_edit_iff (quiet : Quiet v.chars) {content : List Char} {image tag : String}
    (listed : image ∈ pinnedImages) :
    References (edit (pinImages v) content) image tag ↔
      tag = v.tag ∧ ∃ line ∈ lines content, ∃ front, FirstMarked pinnedImages line.text front image := by
  have overwrites := overwrites_pinImages quiet
  have letters : tag = v.tag ↔ tag.toList = 'v' :: v.chars := by
    rw [← String.toList_inj]
    simp [Version.tag]
  have lineIff : ∀ line ∈ lines content, (imageMarker image ++ tag.toList <:+ (editLine (pinImages v) line).text ↔
      tag.toList = 'v' :: v.chars ∧ ∃ front, FirstMarked pinnedImages line.text front image) := by
    intro line member
    rw [editLine, overwrites.line ((split_lines content).unbroken line member)]
    exact (linePinned_overwrite plain_pinnedImages v line.text).marked_iff quiet plain_pinnedImages listed
  rw [References, lines_edit overwrites.keepsLines, letters]
  constructor
  · rintro ⟨new, inside, suffix⟩
    obtain ⟨line, member, rfl⟩ := List.mem_map.mp inside
    obtain ⟨same, front, first⟩ := (lineIff line member).mp suffix
    exact ⟨same, line, member, front, first⟩
  · rintro ⟨same, line, member, marked⟩
    exact ⟨_, List.mem_map_of_mem member, (lineIff line member).mpr ⟨same, marked⟩⟩

/-- The tag that pinning the images of a manifest leaves behind each of them is the one of the version, and it is left
wherever an image was marked first in a line. To build or to push images with this tag is accepted if the version has
no build metadata and the tag is not too long. Otherwise it is refused for the tag. -/
theorem pinned_tag_checked (parsed : Version.parse written = .ok v) :
    (∀ (files after : FileTree) (path : String) (changed : Nat),
      editFile (pinImages v) path files = .ok (changed, after) →
        ∃ old new, files.readText path = .ok old ∧ after.readText path = .ok new ∧
          ∀ image ∈ pinnedImages, ∀ tag, References new.toList image tag ↔
            tag = v.tag ∧ ∃ line ∈ lines old.toList, ∃ front, FirstMarked pinnedImages line.text front image) ∧
    ∀ (a : Arguments) (images : ImageRequest), a.images? = some images → images.tag = v.tag →
      isUser images.dockerUser = true →
        a.check = if v.build = [] ∧ 1 + written.utf8ByteSize ≤ tagLimit then .ok ()
          else .error (.badArguments ("Invalid docker tag '" ++ v.tag ++ "'")) := by
  constructor
  · intro files after path changed done
    obtain ⟨old, read, edited⟩ := readText_of_editFile done
    refine ⟨old, _, read, edited, fun image listed tag => ?_⟩
    rw [editText, String.toList_ofList]
    exact references_edit_iff (quiet_version parsed) listed
  · intro a images asked tagged user
    rw [check_of_images? asked, check_of_isUser user, tagged]
    exact if_congr (isTag_tag_iff parsed) rfl rfl

def taggedArguments (request : ImageRequest → Request) (v : Version) : Arguments :=
  { workspace := ".", config := none, dryRun := false, verbosity := { verbose := false, quiet := false }
    request := request { binaries := [], tag := v.tag, dockerUser := "metallb", skipTests := false } }

theorem pinned_tag_checked_candidate :
    ∃ v, Version.parse "0.10.0-rc.1" = .ok v ∧
      (∃ changed after new, editFile (pinImages v) "manifest" crowdedFiles = .ok (changed, after) ∧
        after.readText "manifest" = .ok new ∧
        ∀ image ∈ pinnedImages, ∀ tag, References new.toList image tag → tag = v.tag) ∧
      ∀ request ∈ [Request.build, Request.push], (taggedArguments request v).check = .ok () := by
  have parsed : Version.parse "0.10.0-rc.1" = .ok ⟨0, 10, 0, ["rc".toList, "1".toList], []⟩ := by decide +kernel
  obtain ⟨tags, checked⟩ := pinned_tag_checked parsed
  have found : crowdedFiles.resolve "manifest" = .ok ["manifest"] := by decide +kernel
  obtain ⟨⟨text, read⟩, written⟩ : crowdedFiles.Editable "manifest" :=
    editable_iff.mpr ⟨_, crowdedText, found, rfl, List.not_mem_nil⟩
  obtain ⟨changed, after, done⟩ := editFile_of_admits ⟨text, read, fun _ => written _⟩
  obtain ⟨old, new, -, edited, only⟩ := tags _ _ _ _ done
  have user : isUser "metallb" = true := by decide +kernel
  have short : 1 + "0.10.0-rc.1".utf8ByteSize ≤ tagLimit := by decide
  refine ⟨_, parsed, ⟨changed, after, new, done, edited, fun image listed tag references => ?_⟩, ?_⟩
  · exact ((only image listed tag).mp references).1
  · rw [List.forall_mem_cons, List.forall_mem_singleton]
    exact ⟨(checked _ _ rfl rfl user).trans (if_pos ⟨rfl, short⟩),
      (checked _ _ rfl rfl user).trans (if_pos ⟨rfl, short⟩)⟩

def plainManifest : List Char := "image: metallb/speaker:main\n".toList

/-- A version is released with a tag that its images may neither be built nor pushed with. -/
def Unpublishable (v : Version) : Prop :=
  References (edit (pinImages v) plainManifest) "speaker" v.tag ∧
    ∀ request ∈ [Request.build, Request.push], (taggedArguments request v).check =
      .error (.badArguments ("Invalid docker tag '" ++ v.tag ++ "'"))

theorem unpublishable (parsed : Version.parse written = .ok v)
    (bad : ¬(v.build = [] ∧ 1 + written.utf8ByteSize ≤ tagLimit)) : Unpublishable v := by
  constructor
  · have single : lines plainManifest = [⟨"image: metallb/speaker:main".toList, .lineFeed⟩] := by decide +kernel
    have marked : FirstMarked pinnedImages "image: metallb/speaker:main".toList [] "speaker" :=
      ⟨List.mem_cons_self, by decide, fun _ _ _ _ => Nat.zero_le _⟩
    refine (references_edit_iff (quiet_version parsed) List.mem_cons_self).mpr ⟨rfl, ?_⟩
    rw [single]
    exact ⟨_, List.mem_cons_self, [], marked⟩
  · have user : isUser "metallb" = true := by decide +kernel
    have asks : ∀ request ∈ [Request.build, Request.push], ∃ images,
        (taggedArguments request v).images? = some images ∧ images.tag = v.tag ∧ images.dockerUser = "metallb" := by
      simp [taggedArguments, Arguments.images?]
    intro request listed
    obtain ⟨images, asked, tagged, named⟩ := asks request listed
    rw [check_of_images? asked, check_of_isUser (named ▸ user), tagged, if_neg]
    rwa [isTag_tag_iff parsed]

/-- Versions with build metadata, and with a long pre-release. -/
theorem pinned_tag_refused :
    ∃ v w, Version.parse "0.9.3+1" = .ok v ∧ Unpublishable v ∧
      Version.parse ("0.9.3-" ++ String.ofList (List.replicate 122 'a')) = .ok w ∧ Unpublishable w := by
  have stamped : Version.parse "0.9.3+1" = .ok ⟨0, 9, 3, [], [['1']]⟩ := by decide +kernel
  have long : Version.parse ("0.9.3-" ++ String.ofList (List.replicate 122 'a')) =
      .ok ⟨0, 9, 3, [List.replicate 122 'a'], []⟩ := by decide +kernel
  exact ⟨_, _, stamped, unpublishable stamped (by simp), long, unpublishable long (by decide +kernel)⟩

end Edit

end ImageRelease
