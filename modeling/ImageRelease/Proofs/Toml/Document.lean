import ImageRelease.Proofs.Toml.Line
import ImageRelease.Proofs.Toml.Table

/-! Documents of items. An item is a name with a value on a line of its own, and may be in a table: by a dotted key, or
behind the header of that table. Either way the entries of the document are known up to their order.
-/
namespace ImageRelease.Toml

structure Item where
  name : String
  value : Scalar

def Item.line (parents : List String) (i : Item) : Line := .setting parents i.name i.value

/-- An entry holds the name and the value of an item. -/
def Item.HeldBy (i : Item) (entry : Key × Node) : Prop := entry.1.name = i.name ∧ i.value.HeldBy entry.2

/-- Entries hold items, and in one table, which may be missing if it would be empty, others. -/
inductive Tabulates (table : String) (items inner : List Item) (entries : Entries) : Prop where
  | flat {rows : Entries} (empty : inner = []) (held : List.Forall₂ Item.HeldBy items rows) (perm : entries.Perm rows)
  | nested {rows inside : Entries} {key : Key} {span : Span} {origin : Origin} (named : key.name = table)
      (held : List.Forall₂ Item.HeldBy items rows) (heldInside : List.Forall₂ Item.HeldBy inner inside)
      (perm : entries.Perm (rows ++ [(key, .table span origin inside)]))

def alone (placed : List (List String × Item)) : List Item := (placed.filter (·.1.isEmpty)).map (·.2)

def under (placed : List (List String × Item)) : List Item := (placed.filter fun p => !p.1.isEmpty).map (·.2)

def Sets (p : List String × Item) (s : Setting) : Prop := s.parents.map Key.name = p.1 ∧ p.2.HeldBy s.row

variable {placed : List (List String × Item)} {items inner : List Item} {rows entries : Entries}
  {statements : List Statement} {settings : List Setting} {texts : List (List Char)} {table : String}

theorem names_of_held (held : List.Forall₂ Item.HeldBy items rows) : rows.names = items.map Item.name := by
  induction held with
  | nil => rfl
  | cons first later ih => rw [Entries.names, List.map_cons, List.map_cons, first.1, ← ih, Entries.names]

theorem settings_of_lines {lines : List Line}
    (held : List.Forall₂ Line.HeldBy (placed.map (fun p => p.2.line p.1) ++ lines) statements) :
    ∃ settings rest, statements = settings.map .sets ++ rest ∧ List.Forall₂ Sets placed settings ∧
      List.Forall₂ Line.HeldBy lines rest := by
  induction placed generalizing statements with
  | nil => exact ⟨[], statements, rfl, .nil, held⟩
  | cons p placed ih =>
    obtain ⟨statement, later, first, more, rfl⟩ := List.forall₂_cons_left_iff.mp held
    obtain ⟨settings, rest, rfl, sets, heldRest⟩ := ih more
    obtain ⟨parents, name, value⟩ := p
    cases first with
    | setting keys key holds =>
      exact ⟨⟨keys, key, _⟩ :: settings, rest, rfl, .cons ⟨rfl, rfl, holds⟩ sets, heldRest⟩

theorem held_filter (p : Bool → Bool) (sets : List.Forall₂ Sets placed settings) :
    List.Forall₂ Item.HeldBy ((placed.filter fun i => p i.1.isEmpty).map (·.2))
      ((settings.filter fun s => p s.parents.isEmpty).map Setting.row) := by
  induction sets with
  | nil => exact .nil
  | @cons i s placed settings first later ih =>
    obtain ⟨parents, held⟩ := first
    have same : i.1.isEmpty = s.parents.isEmpty := by
      rw [← parents]
      cases s.parents <;> rfl
    rw [List.filter_cons, List.filter_cons, same]
    split
    · exact .cons held ih
    · exact ih

theorem within_of_sets (sets : List.Forall₂ Sets placed settings) (within : ∀ p ∈ placed, p.1 = [] ∨ p.1 = [table]) :
    ∀ s ∈ settings, s.Within table := by
  induction sets with
  | nil => simp
  | @cons p s placed settings first later ih =>
    obtain ⟨inFirst, inLater⟩ := List.forall_mem_cons.mp within
    refine List.forall_mem_cons.mpr ⟨?_, ih inLater⟩
    rcases inFirst with top | one
    · exact .inl (List.map_eq_nil_iff.mp (first.1.trans top))
    · obtain ⟨parent, keys, named⟩ := List.map_eq_singleton_iff.mp (first.1.trans one)
      exact .inr ⟨parent, keys, named⟩

theorem group_sets (settings : List Setting) : group (settings.map .sets) = (settings, []) := by
  induction settings with
  | nil => rfl
  | cons s settings ih => simp [group, ih]

theorem group_section (settings inner : List Setting) (span : Span) (key : Key) :
    group (settings.map .sets ++ .opens false span [] key :: inner.map .sets) =
      (settings, [⟨false, span, [], key, inner⟩]) := by
  induction settings with
  | nil => simp [group, group_sets]
  | cons s settings ih => simp [group, ih]

theorem Gathered.tabulates (gathered : Gathered table settings entries) (sets : List.Forall₂ Sets placed settings) :
    Tabulates table (alone placed) (under placed) entries := by
  have rows : List.Forall₂ Item.HeldBy (alone placed) (flat settings) := held_filter (fun empty => empty) sets
  have inside : List.Forall₂ Item.HeldBy (under placed) (nested settings) := held_filter (fun empty => !empty) sets
  cases gathered with
  | without empty =>
    rw [empty, List.forall₂_nil_right_iff] at inside
    exact .flat inside rows (.refl _)
  | @within before after key span named present split =>
    rw [split] at rows
    exact .nested named rows inside (List.perm_middle.trans (List.perm_append_singleton _ _).symm)

theorem read?_dotted (spelled : List.Forall₂ Line.Spelling (placed.map fun p => p.2.line p.1) texts)
    (within : ∀ p ∈ placed, p.1 = [] ∨ p.1 = [table]) (other : table ∉ (alone placed).map Item.name)
    (aloneDistinct : ((alone placed).map Item.name).Nodup) (underDistinct : ((under placed).map Item.name).Nodup) :
    ∃ entries, read? (ofLines texts) = some entries ∧ Tabulates table (alone placed) (under placed) entries := by
  obtain ⟨statements, held, read⟩ := read?_ofLines spelled
  rw [← List.append_nil (placed.map _)] at held
  obtain ⟨settings, rest, rfl, sets, nothing⟩ := settings_of_lines held
  obtain rfl := List.forall₂_nil_left_iff.mp nothing
  have rows : List.Forall₂ Item.HeldBy (alone placed) (flat settings) := held_filter (fun empty => empty) sets
  have inside : List.Forall₂ Item.HeldBy (under placed) (nested settings) := held_filter (fun empty => !empty) sets
  rw [← names_of_held rows] at other aloneDistinct
  rw [← names_of_held inside] at underDistinct
  obtain ⟨entries, set, gathered⟩ := setAll?_gathered (within_of_sets sets within) other aloneDistinct underDistinct
  refine ⟨entries, ?_, gathered.tabulates sets⟩
  rw [read, List.append_nil, assemble?, group_sets]
  simp [set]

theorem held_of_sets (sets : List.Forall₂ Sets (items.map ([], ·)) settings) :
    (∀ s ∈ settings, s.parents = []) ∧ List.Forall₂ Item.HeldBy items (flat settings) := by
  induction items generalizing settings with
  | nil =>
    obtain rfl := List.forall₂_nil_left_iff.mp sets
    exact ⟨by simp, .nil⟩
  | cons i items ih =>
    obtain ⟨s, settings, first, rest, rfl⟩ := List.forall₂_cons_left_iff.mp sets
    obtain ⟨allAlone, held⟩ := ih rest
    have alone : s.parents = [] := List.map_eq_nil_iff.mp first.1
    refine ⟨List.forall_mem_cons.mpr ⟨alone, allAlone⟩, ?_⟩
    have split : flat (s :: settings) = s.row :: flat settings := by simp [flat, alone]
    rw [split]
    exact .cons first.2 held

/-- A document of items, the last ones of which are behind the header of the table. -/
theorem read?_sectioned (spelled : List.Forall₂ Line.Spelling
      (items.map (Item.line []) ++ .header table :: inner.map (Item.line [])) texts)
    (other : table ∉ items.map Item.name) (distinct : (items.map Item.name).Nodup)
    (innerDistinct : (inner.map Item.name).Nodup) :
    ∃ entries, read? (ofLines texts) = some entries ∧ Tabulates table items inner entries := by
  have lines : ∀ items : List Item,
      items.map (Item.line []) = (items.map ([], ·)).map (fun p : List String × Item => p.2.line p.1) := by
    intro items
    rw [List.map_map]
    rfl
  obtain ⟨statements, held, read⟩ := read?_ofLines spelled
  rw [lines items, lines inner, ← List.append_nil (List.map _ (inner.map _))] at held
  obtain ⟨settings, rest, rfl, sets, heldRest⟩ := settings_of_lines held
  obtain ⟨header, later, opens, heldLater, rfl⟩ := List.forall₂_cons_left_iff.mp heldRest
  obtain ⟨innerSettings, last, rfl, innerSets, nothing⟩ := settings_of_lines heldLater
  obtain rfl := List.forall₂_nil_left_iff.mp nothing
  obtain ⟨topAlone, rows⟩ := held_of_sets sets
  obtain ⟨innerAlone, inside⟩ := held_of_sets innerSets
  rw [← names_of_held rows] at other distinct
  rw [← names_of_held inside] at innerDistinct
  have set := setAll?_alone topAlone distinct
  cases opens with
  | header span key =>
    have opened : (flat settings).open? ⟨false, span, [], key, innerSettings⟩ =
        some (flat settings ++ [(key, .table span .header (flat innerSettings))]) :=
      open?_new rfl rfl other innerAlone innerDistinct
    refine ⟨flat settings ++ [(key, .table span .header (flat innerSettings))], ?_, .nested rfl rows inside (.refl _)⟩
    rw [read, List.append_nil, assemble?, group_section]
    simp [set, opened]

theorem exists_ofLines {lines : List Line} (each : ∀ line ∈ lines, ∃ text, line.Spelling text) :
    ∃ texts, List.Forall₂ Line.Spelling lines texts := by
  induction lines with
  | nil => exact ⟨[], .nil⟩
  | cons line lines ih =>
    obtain ⟨first, later⟩ := List.forall_mem_cons.mp each
    obtain ⟨text, spelled⟩ := first
    obtain ⟨texts, rest⟩ := ih later
    exact ⟨text :: texts, .cons spelled rest⟩

end ImageRelease.Toml
