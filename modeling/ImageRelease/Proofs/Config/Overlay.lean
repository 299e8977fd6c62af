import Mathlib.Data.List.Nodup
import ImageRelease.Proofs.Config.Decode

/-! Configurations as the default one with some of its values replaced. A document gives a value to each of a few
fields, in any order. The limits have dotted keys, or stand behind the header of their table at the end. What is read is
the default configuration with these values, and all others are left alone.
-/
namespace ImageRelease

/-! ### Values of fields -/

section

variable {γ φ ν : Type} {get : γ → φ → ν} {set : γ → φ → ν → γ} [DecidableEq φ] {given : List (φ × ν)} {f : φ}

theorem get_foldl_of_absent (law : ∀ c f g v, get (set c f v) g = if g = f then v else get c g)
    (absent : f ∉ given.map Prod.fst) (c : γ) : get (given.foldl (fun c p => set c p.1 p.2) c) f = get c f := by
  induction given generalizing c with
  | nil => rfl
  | cons p given ih =>
    obtain ⟨other, later⟩ := not_or.mp (mt List.mem_cons.mpr absent)
    exact (ih later _).trans ((law c p.1 f p.2).trans (if_neg other))

theorem get_foldl_of_mem (law : ∀ c f g v, get (set c f v) g = if g = f then v else get c g)
    (distinct : (given.map Prod.fst).Nodup) {v : ν} (member : (f, v) ∈ given) (c : γ) :
    get (given.foldl (fun c p => set c p.1 p.2) c) f = v := by
  induction given generalizing c with
  | nil => contradiction
  | cons p given ih =>
    obtain ⟨new, later⟩ := List.nodup_cons.mp distinct
    rcases List.mem_cons.mp member with rfl | member
    · exact (get_foldl_of_absent law new _).trans ((law c f f v).trans (if_pos rfl))
    · exact ih later member _

end

namespace Config

open Toml (Item)

inductive Assignment where
  | text (field : TextField) (value : String)
  | limit (field : LimitField) (seconds : Nat)
deriving DecidableEq, Repr

namespace Assignment

def key : Assignment → String
  | text f _ => f.key
  | limit f _ => f.key

def text? : Assignment → Option (TextField × String)
  | text f s => some (f, s)
  | limit _ _ => none

def limit? : Assignment → Option (LimitField × Nat)
  | text _ _ => none
  | limit f n => some (f, n)

end Assignment

def textsOf (given : List Assignment) : List (TextField × String) := given.filterMap Assignment.text?

def limitsOf (given : List Assignment) : List (LimitField × Nat) := given.filterMap Assignment.limit?

/-- The default configuration with given values in it, and nothing else. -/
structure Overlays (given : List Assignment) (config : Config) : Prop where
  text : ∀ f s, .text f s ∈ given → config.get f = s
  otherText : ∀ f, (∀ s, .text f s ∉ given) → config.get f = default.get f
  limit : ∀ f n, .limit f n ∈ given → config.limits.get f = n
  otherLimit : ∀ f, (∀ n, .limit f n ∉ given) → config.limits.get f = Limits.default.get f

inductive Layout where
  | dotted
  | sectioned
deriving DecidableEq, Repr

/-- An assignment on a line of its own, with a dotted key for a limit. -/
def Assignment.placed : Assignment → List String × Item
  | text f s => ([], textItem (f, s))
  | limit f n => ([limitsKey], limitItem (f, n))

def Layout.lines (given : List Assignment) : Layout → List Toml.Line
  | dotted => given.map fun a => a.placed.2.line a.placed.1
  | sectioned =>
    ((textsOf given).map textItem).map (Item.line []) ++
      .header limitsKey :: ((limitsOf given).map limitItem).map (Item.line [])

/-- A document is written with these values in this layout. -/
def Layout.Writes (layout : Layout) (given : List Assignment) (document : String) : Prop :=
  ∃ texts, List.Forall₂ Toml.Line.Spelling (layout.lines given) texts ∧ document.toList = Toml.ofLines texts

variable {given : List Assignment}

theorem text?_eq_some {a : Assignment} {text : TextField × String} : a.text? = some text ↔ a = .text text.1 text.2 := by
  cases a <;> simp [Assignment.text?, Prod.ext_iff]

theorem limit?_eq_some {a : Assignment} {limit : LimitField × Nat} :
    a.limit? = some limit ↔ a = .limit limit.1 limit.2 := by
  cases a <;> simp [Assignment.limit?, Prod.ext_iff]

theorem mem_textsOf {text : TextField × String} : text ∈ textsOf given ↔ .text text.1 text.2 ∈ given := by
  simp only [textsOf, List.mem_filterMap, text?_eq_some, exists_eq_right]

theorem mem_limitsOf {limit : LimitField × Nat} : limit ∈ limitsOf given ↔ .limit limit.1 limit.2 ∈ given := by
  simp only [limitsOf, List.mem_filterMap, limit?_eq_some, exists_eq_right]

/-- The names of the items that some of the assignments make are among the keys, in the same order. -/
theorem names_filterMap_sublist {α : Type} {pick : Assignment → Option α} {item : α → Item}
    (named : ∀ a picked, pick a = some picked → (item picked).name = a.key) (given : List Assignment) :
    (((given.filterMap pick).map item).map Item.name).Sublist (given.map Assignment.key) := by
  induction given with
  | nil => exact .slnil
  | cons a given ih =>
    cases picked : pick a with
    | none =>
      rw [List.filterMap_cons_none picked]
      exact ih.cons _
    | some found =>
      rw [List.filterMap_cons_some picked, List.map_cons, List.map_cons, named a found picked]
      exact ih.cons_cons _

theorem texts_distinct (distinct : (given.map Assignment.key).Nodup) :
    (((textsOf given).map textItem).map Item.name).Nodup := by
  refine distinct.sublist (names_filterMap_sublist (fun a text picked => ?_) given)
  rw [text?_eq_some.mp picked]
  rfl

theorem limits_distinct (distinct : (given.map Assignment.key).Nodup) :
    (((limitsOf given).map limitItem).map Item.name).Nodup := by
  refine distinct.sublist (names_filterMap_sublist (fun a limit picked => ?_) given)
  rw [limit?_eq_some.mp picked]
  rfl

theorem get_filled (texts : List (TextField × String)) (limits : List (LimitField × Nat)) (f : TextField) :
    (filled texts limits).get f = (setTexts default texts).get f := by
  cases f <;> rfl

theorem overlays_filled (distinct : (given.map Assignment.key).Nodup) :
    Overlays given (filled (textsOf given) (limitsOf given)) := by
  have texts : ((textsOf given).map Prod.fst).Nodup := by
    have keys := texts_distinct distinct
    rw [List.map_map] at keys
    exact List.Nodup.of_map TextField.key (by rwa [List.map_map])
  have limits : ((limitsOf given).map Prod.fst).Nodup := by
    have keys := limits_distinct distinct
    rw [List.map_map] at keys
    exact List.Nodup.of_map LimitField.key (by rwa [List.map_map])
  refine ⟨fun f s member => ?_, fun f absent => ?_, fun f n member => ?_, fun f absent => ?_⟩
  · rw [get_filled]
    exact get_foldl_of_mem get_set texts (mem_textsOf.mpr member) default
  · have other : f ∉ (textsOf given).map Prod.fst := by
      intro member
      obtain ⟨⟨f, s⟩, listed, rfl⟩ := List.mem_map.mp member
      exact absent s (mem_textsOf.mp listed)
    rw [get_filled]
    exact get_foldl_of_absent get_set other default
  · exact get_foldl_of_mem Limits.get_set limits (mem_limitsOf.mpr member) Limits.default
  · have other : f ∉ (limitsOf given).map Prod.fst := by
      intro member
      obtain ⟨⟨f, n⟩, listed, rfl⟩ := List.mem_map.mp member
      exact absent n (mem_limitsOf.mp listed)
    exact get_foldl_of_absent Limits.get_set other Limits.default

/-! ### Documents -/

theorem bare_textField (f : TextField) : Toml.Bare f.key := by
  cases f <;> exact ⟨by decide +kernel, List.all_eq_true.mp (by decide +kernel)⟩

theorem bare_limitField (f : LimitField) : Toml.Bare f.key := by
  cases f <;> exact ⟨by decide +kernel, List.all_eq_true.mp (by decide +kernel)⟩

theorem bare_limitsKey : Toml.Bare limitsKey := ⟨by decide +kernel, List.all_eq_true.mp (by decide +kernel)⟩

theorem alone_placed (given : List Assignment) :
    Toml.alone (given.map Assignment.placed) = (textsOf given).map textItem := by
  induction given with
  | nil => rfl
  | cons a given ih =>
    cases a with
    | text f s => exact congrArg (textItem (f, s) :: ·) ih
    | limit f n => exact ih

theorem under_placed (given : List Assignment) :
    Toml.under (given.map Assignment.placed) = (limitsOf given).map limitItem := by
  induction given with
  | nil => rfl
  | cons a given ih =>
    cases a with
    | text f s => exact ih
    | limit f n => exact congrArg (limitItem (f, n) :: ·) ih

theorem read?_of_writes (distinct : (given.map Assignment.key).Nodup) {layout : Layout} {document : String}
    (written : layout.Writes given document) :
    ∃ entries, Toml.read? document.toList = some entries ∧
      Toml.Tabulates limitsKey ((textsOf given).map textItem) ((limitsOf given).map limitItem) entries := by
  obtain ⟨texts, spelled, lines⟩ := written
  have textsDistinct := texts_distinct distinct
  have limitsDistinct := limits_distinct distinct
  have other := limitsKey_not_mem (textsOf given)
  rw [lines]
  cases layout with
  | dotted =>
    have within : ∀ p ∈ given.map Assignment.placed, p.1 = [] ∨ p.1 = [limitsKey] := by
      refine List.forall_mem_map.mpr fun a _ => ?_
      cases a with
      | text f s => exact .inl rfl
      | limit f n => exact .inr rfl
    rw [← alone_placed] at textsDistinct other ⊢
    rw [← under_placed] at limitsDistinct ⊢
    refine Toml.read?_dotted ?_ within other textsDistinct limitsDistinct
    rw [List.map_map]
    exact spelled
  | sectioned => exact Toml.read?_sectioned spelled other textsDistinct limitsDistinct

def spaced (parents : List String) (key : String) (written : List Char) : List Char :=
  Toml.dottedKey parents key ++ ([' '] ++ '=' :: ([' '] ++ written))

theorem isSpace_gap : ∀ c ∈ [' '], Toml.isSpace c = true := List.forall_mem_singleton.mpr rfl

theorem spelling_textItem {text : TextField × String} {body : List Char} (spelled : Toml.Spells body text.2.toList) :
    ((textItem text).line []).Spelling (spaced [] text.1.key ('"' :: (body ++ ['"']))) :=
  .setting (List.forall_mem_singleton.mpr (bare_textField text.1)) isSpace_gap isSpace_gap (.text spelled)

theorem spelling_limitItem {parents : List String} (bare : ∀ key ∈ parents, Toml.Bare key) (limit : LimitField × Nat) :
    ((limitItem limit).line parents).Spelling (spaced parents limit.1.key (Nat.toDigits 10 limit.2)) :=
  .setting (List.forall_mem_cons.mpr ⟨bare_limitField limit.1, bare⟩) isSpace_gap isSpace_gap (.number _)

theorem exists_spelling_textItem (text : TextField × String) :
    ∃ written, ((textItem text).line []).Spelling written := by
  obtain ⟨body, spelled⟩ := Toml.exists_spells text.2.toList
  exact ⟨_, spelling_textItem spelled⟩

theorem exists_writes (layout : Layout) (given : List Assignment) : ∃ document, layout.Writes given document := by
  have each : ∀ line ∈ layout.lines given, ∃ text, line.Spelling text := by
    cases layout with
    | dotted =>
      refine List.forall_mem_map.mpr fun a _ => ?_
      cases a with
      | text f s => exact exists_spelling_textItem (f, s)
      | limit f n => exact ⟨_, spelling_limitItem (List.forall_mem_singleton.mpr bare_limitsKey) (f, n)⟩
    | sectioned =>
      intro line member
      rcases List.mem_append.mp member with top | behind
      · obtain ⟨item, listed, rfl⟩ := List.mem_map.mp top
        obtain ⟨text, -, rfl⟩ := List.mem_map.mp listed
        exact exists_spelling_textItem text
      · rcases List.mem_cons.mp behind with rfl | inside
        · exact ⟨_, .header bare_limitsKey⟩
        · obtain ⟨item, listed, rfl⟩ := List.mem_map.mp inside
          obtain ⟨limit, -, rfl⟩ := List.mem_map.mp listed
          exact ⟨_, spelling_limitItem (by simp) limit⟩
  obtain ⟨texts, spelled⟩ := Toml.exists_ofLines each
  exact ⟨String.ofList (Toml.ofLines texts), texts, spelled, String.toList_ofList⟩

/-- Values are listed for some of the fields, each at most once. In each layout there are documents that are written with
them, and all of these are read as the same configuration, the default one with these values in it. -/
theorem parse_overlays (distinct : (given.map Assignment.key).Nodup)
    (bounded : ∀ f n, .limit f n ∈ given → n < Nat.pow 2 64) :
    ∃ config, Overlays given config ∧ ∀ layout : Layout,
      (∃ document, layout.Writes given document) ∧
        ∀ document, layout.Writes given document → parse document = .ok config := by
  have small : ∀ limit ∈ limitsOf given, limit.2 < Nat.pow 2 64 := fun limit member =>
    bounded limit.1 limit.2 (mem_limitsOf.mp member)
  refine ⟨_, overlays_filled distinct, fun layout => ⟨exists_writes layout given, fun document written => ?_⟩⟩
  obtain ⟨entries, read, tabulates⟩ := read?_of_writes distinct written
  have decoded := ofEntries_of_tabulates tabulates small (texts_distinct distinct) (limits_distinct distinct)
  rw [parse, ofDocument, read]
  simp [decoded, Except.mapError]

def partlyGiven : List Assignment :=
  [.text .mainBranch "\"ü\"\n", .limit .commandSeconds 18446744073709551615, .text .manifest ""]

def dottedDocument : String :=
  "main_branch = \"\\\"\\u00FC\\x22\\n\"\ntimeouts.command_secs = 18446744073709551615\nmanifest = \"\"\n"

def sectionedDocument : String :=
  "main_branch = \"\\\"\\u00FC\\x22\\n\"\nmanifest = \"\"\n[timeouts]\ncommand_secs = 18446744073709551615\n"

theorem parse_overlays_partly :
    ∃ config, parse dottedDocument = .ok config ∧ parse sectionedDocument = .ok config ∧
      config.mainBranch = "\"ü\"\n" ∧ config.manifest = "" ∧ config.versionFile = default.versionFile ∧
      config.limits.commandSeconds = 18446744073709551615 ∧ config.limits.buildSeconds = 1800 := by
  have distinct : (partlyGiven.map Assignment.key).Nodup := by decide
  have bounded : ∀ f n, .limit f n ∈ partlyGiven → n < Nat.pow 2 64 := by
    intro f n member
    simp only [partlyGiven, List.mem_cons, List.not_mem_nil, or_false, reduceCtorEq, false_or] at member
    obtain ⟨-, rfl⟩ := Assignment.limit.inj member
    decide
  have body : Toml.Spells ['\\', '"', '\\', 'u', '0', '0', 'F', 'C', '\\', 'x', '2', '2', '\\', 'n']
      "\"ü\"\n".toList := by
    have letters : "\"ü\"\n".toList = ['"', 'ü', '"', '\n'] := by decide +kernel
    have umlaut : Toml.codePoint? ['0', '0', 'F', 'C'] = some 'ü' := by decide +kernel
    have quote : Toml.codePoint? ['2', '2'] = some '"' := by decide +kernel
    have last : Toml.Spells ['\\', 'n'] ['\n'] := .short rfl .nil
    rw [letters]
    exact .short rfl (@Toml.Spells.code _ _ ['0', '0', 'F', 'C'] 'u' _ rfl umlaut
      (@Toml.Spells.code _ _ ['2', '2'] 'x' _ rfl quote last))
  have branch : ((textItem (.mainBranch, "\"ü\"\n")).line []).Spelling _ := spelling_textItem body
  have manifest : ((textItem (.manifest, "")).line []).Spelling _ := spelling_textItem .nil
  have dotted : Layout.dotted.Writes partlyGiven dottedDocument :=
    ⟨_, .cons branch (.cons (spelling_limitItem (List.forall_mem_singleton.mpr bare_limitsKey) _)
      (.cons manifest .nil)), by decide +kernel⟩
  have sectioned : Layout.sectioned.Writes partlyGiven sectionedDocument :=
    ⟨_, .cons branch (.cons manifest (.cons (.header bare_limitsKey) (.cons (spelling_limitItem (by simp) _) .nil))),
      by decide +kernel⟩
  obtain ⟨config, overlays, read⟩ := parse_overlays distinct bounded
  have parsedDotted := (read .dotted).2 dottedDocument dotted
  have parsedSectioned := (read .sectioned).2 sectionedDocument sectioned
  exact ⟨config, parsedDotted, parsedSectioned, overlays.text .mainBranch _ (by simp [partlyGiven]),
    overlays.text .manifest _ (by simp [partlyGiven]), overlays.otherText .versionFile (by simp [partlyGiven]),
    overlays.limit .commandSeconds _ (by simp [partlyGiven]), overlays.otherLimit .buildSeconds (by simp [partlyGiven])⟩

end Config

end ImageRelease
