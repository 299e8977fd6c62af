import Mathlib.Data.List.DropRight
import ImageRelease.Program
import ImageRelease.Proofs.CommandLine.Check
import ImageRelease.Proofs.Images.Push

/-! References to images. A reference is cut at its colon and at the last slash before it. A user may have slashes, but
neither a user that is accepted nor a tag has a colon, and no binary has a slash in its name, so a reference is cut into
the user, the binary and the tag that it was made of.
-/
namespace ImageRelease

def Command.image? (c : Command) : Option String :=
  match c.argv with
  | "docker" :: "build" :: "-t" :: reference :: _ => some reference
  | ["docker", "push", reference] => some reference
  | _ => none

namespace Docker

variable {user tag : List Char} {i j : ImageName}

/-- The text before the last slash of what is before the first colon, the text between the two, and the rest. -/
def cut (reference : String) : String × String × String :=
  let before := reference.toList.takeWhile (· != ':')
  (String.ofList (before.rdropWhile (· != '/')).dropLast, String.ofList (before.rtakeWhile (· != '/')),
    String.ofList (reference.toList.dropWhile (· != ':')).tail)

theorem name_plain (b : Binary) : ':' ∉ b.name.toList ∧ '/' ∉ b.name.toList := by
  cases b <;> decide +kernel

theorem toList_text (i : ImageName) :
    i.text.toList = (i.user.toList ++ '/' :: i.binary.name.toList) ++ ':' :: i.tag.toList := by
  simp [ImageName.text]

theorem split_at_mark {mark : Char} {front : List Char} (unmarked : mark ∉ front) (back : List Char) :
    (front ++ mark :: back).takeWhile (· != mark) = front ∧
      (front ++ mark :: back).dropWhile (· != mark) = mark :: back := by
  have passed : ∀ c ∈ front, (c != mark) = true := by
    intro c member
    rw [bne_iff_ne]
    rintro rfl
    exact unmarked member
  rw [List.takeWhile_append_of_pos passed, List.dropWhile_append_of_pos passed]
  simp

theorem split_at_last_mark {mark : Char} {back : List Char} (unmarked : mark ∉ back) (front : List Char) :
    (front ++ mark :: back).rtakeWhile (· != mark) = back ∧
      (front ++ mark :: back).rdropWhile (· != mark) = front ++ [mark] := by
  have reversed : (front ++ mark :: back).reverse = back.reverse ++ mark :: front.reverse := by simp
  have behind : mark ∉ back.reverse := by simpa using unmarked
  obtain ⟨taken, dropped⟩ := split_at_mark behind front.reverse
  rw [List.rtakeWhile, List.rdropWhile, reversed, taken, dropped]
  simp

theorem colon_not_mem_front (plain : ':' ∉ i.user.toList) : ':' ∉ i.user.toList ++ '/' :: i.binary.name.toList := by
  obtain ⟨noColon, -⟩ := name_plain i.binary
  simp [plain, noColon]

theorem cut_text (plain : ':' ∉ i.user.toList) : cut i.text = (i.user, i.binary.name, i.tag) := by
  obtain ⟨before, rest⟩ := split_at_mark (colon_not_mem_front plain) i.tag.toList
  obtain ⟨name, user⟩ := split_at_last_mark (name_plain i.binary).2 i.user.toList
  simp only [cut, toList_text, before, rest, name, user]
  simp

theorem count_colon_text (plain : ':' ∉ i.user.toList) (plainTag : ':' ∉ i.tag.toList) :
    i.text.toList.count ':' = 1 := by
  have front := List.count_eq_zero_of_not_mem (colon_not_mem_front plain)
  have back := List.count_eq_zero_of_not_mem plainTag
  rw [toList_text, List.count_append, front, List.count_cons_self, back]

/-- A reference has one colon, and is cut into the parts of the name of an image. -/
structure CutsInto (reference : String) (i : ImageName) : Prop where
  colon : reference.toList.count ':' = 1
  parts : cut reference = (i.user, i.binary.name, i.tag)

theorem text_injective (plain : ':' ∉ i.user.toList) (alsoPlain : ':' ∉ j.user.toList) (same : i.text = j.text) :
    i = j := by
  have cuts : (i.user, i.binary.name, i.tag) = (j.user, j.binary.name, j.tag) := by
    rw [← cut_text plain, ← cut_text alsoPlain, same]
  obtain ⟨user, name, tag⟩ := by simpa using cuts
  have binary := Binary.name_injective name
  cases i
  cases j
  simp_all

end Docker

namespace Plan

variable {σ : Type} {images : ImageRequest} {bs : List Binary} {references : List String}

def Step.Refers (references : List String) : Step → Prop
  | issue c => ∀ reference, c.image? = some reference → reference ∈ references
  | tell _ | store _ => True

theorem refers_of_imageless {c : Command} (imageless : c.image? = none) : Step.Refers references (.issue c) := by
  intro reference named
  rw [imageless] at named
  contradiction

theorem refers_of_image {c : Command} {reference : String} (named : c.image? = some reference)
    (listed : reference ∈ references) : Step.Refers references (.issue c) := by
  intro other alsoNamed
  obtain rfl := Option.some.inj (named.symm.trans alsoNamed)
  exact listed

theorem refers_produceEach (dir commit branch : String) {names : List Docker.ImageName}
    (listed : ∀ i ∈ names, i.text ∈ references) :
    (produceEach dir commit branch names).Within (Step.Refers references) := by
  induction names with
  | nil => exact .pure _
  | cons i names ih =>
    obtain ⟨first, rest⟩ := List.forall_mem_cons.mp listed
    exact .bind (.command (refers_of_image rfl first)) fun _ => ih rest

theorem refers_produce (setup : Setup) (listed : ∀ b ∈ bs, (images.imageName b).text ∈ references) :
    (produce setup images bs).Within (Step.Refers references) := by
  have named : ∀ i ∈ bs.map images.imageName, i.text ∈ references := List.forall_mem_map.mpr listed
  refine .bind ⟨refers_of_imageless rfl, fun _ => trivial⟩ fun _ => .bind ?_ fun _ =>
    .bind (within_ask (refers_of_imageless rfl)) fun _ => .bind (within_ask (refers_of_imageless rfl)) fun _ =>
    .bind (.notify trivial) fun _ => .bind (refers_produceEach _ _ _ named) fun _ => .pure _
  unfold runTests
  split
  · exact .notify trivial
  · exact .bind (.command (refers_of_imageless rfl)) fun _ => .pure _

theorem refers_notifyAll (notices : List Notice) : (notifyAll notices).Within (Step.Refers references) := by
  induction notices with
  | nil => exact .pure _
  | cons n notices ih => exact .bind (.notify trivial) fun _ => ih

def referencesTo (images : ImageRequest) (bs : List Binary) : List String := bs.map fun b => (images.imageName b).text

theorem refers_build (setup : Setup) (selected : images.selection = .ok bs) :
    (build setup images).Within (Step.Refers (referencesTo images bs)) := by
  have listed : ∀ b ∈ bs, (images.imageName b).text ∈ referencesTo images bs := fun _ => List.mem_map_of_mem
  rw [build, selected]
  change (notify (.section_ "Build") >>= fun _ => produce setup images bs >>= fun _ =>
    notify _ >>= fun _ => notifyAll _).Within _
  exact .bind (.notify trivial) fun _ => .bind (refers_produce setup listed) fun _ => .bind (.notify trivial) fun _ =>
    refers_notifyAll _

theorem refers_publication (runner : Runner σ) (setup : Setup) (images : ImageRequest) (bs : List Binary)
    (files : FileTree) (host : σ) :
    ∀ e ∈ publication runner setup images bs files host, Step.Refers (referencesTo images bs) (.issue e.command) := by
  induction bs generalizing files host with
  | nil => simp [publication]
  | cons b bs ih =>
    intro e issued
    rw [publication, List.mem_append, List.mem_cons] at issued
    rcases issued with built | rfl | later
    · -- Building the image of one binary refers to no other image.
      have only : Step.Refers (referencesTo images [b]) (.issue e.command) := by
        have within := refers_build setup (images.selection_only b)
        rcases within.commands_run runner (.fresh files host) e.command (List.mem_map_of_mem built) with earlier | refers
        · simp [Session.commands] at earlier
        · exact refers
      intro reference named
      exact List.mem_cons.mpr (.inl (List.mem_singleton.mp (only reference named)))
    · exact refers_of_image rfl List.mem_cons_self
    · intro reference named
      exact List.mem_cons_of_mem _ (ih _ _ e later reference named)

theorem refers_run {request : Request} (runner : Runner σ) (setup : Setup) (files : FileTree) (host : σ)
    (asked : request = .build images ∨ request = .push images) {e : Exchange}
    (issued : e ∈ ((request.plan setup).run runner (.fresh files host)).2.exchanges) {reference : String}
    (named : e.command.image? = some reference) :
    ∃ bs, images.selection = .ok bs ∧ reference ∈ referencesTo images bs := by
  cases selected : images.selection with
  | error failure =>
    have nothing : (request.plan setup) = fail failure := by
      rcases asked with rfl | rfl
      · exact build_of_unselected setup selected
      · exact push_of_unselected setup selected
    rw [nothing] at issued
    simp [fail, run] at issued
  | ok bs =>
    refine ⟨bs, rfl, ?_⟩
    rcases asked with rfl | rfl
    · have within := refers_build setup selected
      rcases within.commands_run runner (.fresh files host) e.command (List.mem_map_of_mem issued) with earlier | refers
      · simp [Session.commands] at earlier
      · exact refers reference named
    · obtain ⟨done, ends, -⟩ := push_ends runner setup selected files host
      exact refers_publication runner setup images bs files host e (ends.trace_isPrefix.subset issued) reference named

end Plan

theorem Arguments.images?_eq_some {a : Arguments} {images : ImageRequest} :
    a.images? = some images ↔ a.request = .build images ∨ a.request = .push images := by
  unfold images?
  cases a.request <;> simp

/-- Images are asked for with a user and a tag that are accepted by the rules for both alone. Then each image that a run
builds or pushes is given by a reference that is cut into the user, a selected binary and the tag, and equal references
are made of equal parts. -/
theorem reference_unambiguous {a : Arguments} {images : ImageRequest} (asked : a.images? = some images) :
    (a.check = .ok () ↔ TagSpelled images.tag ∧ UserSpelled images.dockerUser) ∧
      (a.check = .ok () →
        (∀ {σ : Type} (runner : Runner σ) (setup : Setup) (files : FileTree) (host : σ),
          ∀ e ∈ ((a.request.plan setup).run runner (.fresh files host)).2.exchanges, ∀ reference,
            e.command.image? = some reference →
              ∃ bs b, images.selection = .ok bs ∧ b ∈ bs ∧ Docker.CutsInto reference (images.imageName b)) ∧
        (∀ b, (Docker.push (images.imageName b)).image? = some (images.imageName b).text ∧
          (∀ commit branch dir,
            (Docker.build (images.imageName b) commit branch dir).image? = some (images.imageName b).text) ∧
          Docker.CutsInto (images.imageName b).text (images.imageName b)) ∧
        ∀ {other : Arguments} {others : ImageRequest}, other.images? = some others → other.check = .ok () →
          ∀ b c, (images.imageName b).text = (others.imageName c).text → images.imageName b = others.imageName c) := by
  have accepts : ∀ {a : Arguments} {images : ImageRequest}, a.images? = some images →
      (a.check = .ok () ↔ TagSpelled images.tag ∧ UserSpelled images.dockerUser) := by
    intro a images asked
    rw [check_of_images? asked, ImageRequest.check_ok_iff]
  refine ⟨accepts asked, fun accepted => ?_⟩
  obtain ⟨tag, user⟩ := (accepts asked).mp accepted
  have cuts : ∀ b, Docker.CutsInto (images.imageName b).text (images.imageName b) := fun b =>
    ⟨Docker.count_colon_text user.colon_not_mem tag.colon_not_mem, Docker.cut_text user.colon_not_mem⟩
  refine ⟨?_, fun b => ⟨rfl, fun _ _ _ => rfl, cuts b⟩, ?_⟩
  · intro σ runner setup files host e issued reference named
    obtain ⟨bs, selected, listed⟩ :=
      Plan.refers_run runner setup files host (Arguments.images?_eq_some.mp asked) issued named
    obtain ⟨b, member, rfl⟩ := List.mem_map.mp listed
    exact ⟨bs, b, selected, member, cuts b⟩
  · intro other others alsoAsked alsoAccepted b c same
    obtain ⟨-, otherUser⟩ := (accepts alsoAsked).mp alsoAccepted
    exact Docker.text_injective user.colon_not_mem otherUser.colon_not_mem same

def nestedImages : ImageRequest :=
  { binaries := ["speaker-local"], tag := "_v1.0-rc.2", dockerUser := "hub.local/team/lb", skipTests := true }

def nestedArguments : Arguments :=
  { workspace := ".", config := none, dryRun := false, verbosity := { verbose := false, quiet := false }
    request := .push nestedImages }

/-- The user has slashes, and the name of a host among its parts. -/
theorem reference_unambiguous_nested :
    nestedArguments.check = .ok () ∧
      (Docker.push (nestedImages.imageName .speakerLocal)).image? =
        some "hub.local/team/lb/speaker-local:_v1.0-rc.2" ∧
      Docker.cut "hub.local/team/lb/speaker-local:_v1.0-rc.2" = ("hub.local/team/lb", "speaker-local", "_v1.0-rc.2") ∧
      ∀ (other : Arguments) (images : ImageRequest), other.images? = some images → other.check = .ok () → ∀ b,
        (images.imageName b).text = "hub.local/team/lb/speaker-local:_v1.0-rc.2" →
          images.dockerUser = "hub.local/team/lb" ∧ b = .speakerLocal ∧ images.tag = "_v1.0-rc.2" := by
  have asked : nestedArguments.images? = some nestedImages := rfl
  have accepted : nestedArguments.check = .ok () := by
    rw [check_of_images? asked, ImageRequest.check_ok_iff, ← isTag_iff, ← isUser_iff]
    decide +kernel
  obtain ⟨-, consequences⟩ := reference_unambiguous asked
  obtain ⟨-, named, unambiguous⟩ := consequences accepted
  have text : (nestedImages.imageName .speakerLocal).text = "hub.local/team/lb/speaker-local:_v1.0-rc.2" := by
    decide +kernel
  obtain ⟨pushed, -, cuts⟩ := named .speakerLocal
  rw [text] at pushed cuts
  refine ⟨accepted, pushed, cuts.parts, fun other images otherAsked otherAccepted b same => ?_⟩
  have equal := unambiguous otherAsked otherAccepted .speakerLocal b (text.trans same.symm)
  obtain ⟨user, binary, tag⟩ := Docker.ImageName.mk.inj equal
  exact ⟨user.symm, binary.symm, tag.symm⟩

end ImageRelease
