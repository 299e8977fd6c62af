import Mathlib.Data.List.Induction
import ImageRelease.Toml.Document

/-! Tables that are made of settings without a path and of settings in one table. The latter are gathered in the order
in which they were written, whether they have a dotted key or stand behind a header.
-/
namespace ImageRelease.Toml

namespace Entries

variable {entries before after : Entries} {name : String} {key : Key} {node value : Node}

def names (entries : Entries) : List String := entries.map fun entry => entry.1.name

theorem names_append : names (before ++ after) = before.names ++ after.names := List.map_append

theorem names_cons : names ((key, node) :: entries) = key.name :: entries.names := rfl

theorem find?_eq_none_iff : entries.find? name = none ↔ name ∉ entries.names := by
  simp [find?, names, List.find?_eq_none]

theorem add?_of_new (new : key.name ∉ entries.names) : entries.add? key value = some (entries ++ [(key, value)]) := by
  rw [add?, find?_eq_none_iff.mpr new]
  rfl

theorem find?_within (front : key.name ∉ before.names) :
    find? (before ++ (key, node) :: after) key.name = some node := by
  have passed := find?_eq_none_iff.mpr front
  rw [find?, Option.map_eq_none_iff] at passed
  simp [find?, List.find?_append, passed]

theorem replace_of_absent (absent : name ∉ entries.names) : entries.replace name value = entries := by
  refine (List.map_congr_left fun entry member => ?_).trans (List.map_id entries)
  have other : entry.1.name ≠ name := by
    rintro rfl
    exact absent (List.mem_map_of_mem member)
  simp [other]

theorem replace_within (front : key.name ∉ before.names) (back : key.name ∉ after.names) :
    replace key.name value (before ++ (key, node) :: after) = before ++ (key, value) :: after := by
  calc
    replace key.name value (before ++ (key, node) :: after) =
        before.replace key.name value ++ (key, value) :: after.replace key.name value := by simp [replace]
    _ = before ++ (key, value) :: after := by rw [replace_of_absent front, replace_of_absent back]

theorem erase_of_absent (absent : name ∉ entries.names) : entries.erase name = entries := by
  refine List.filter_eq_self.mpr fun entry member => bne_iff_ne.mpr ?_
  rintro rfl
  exact absent (List.mem_map_of_mem member)

theorem names_concat_nodup (distinct : (names (entries ++ [(key, node)])).Nodup) :
    entries.names.Nodup ∧ key.name ∉ entries.names := by
  rw [names_append, List.nodup_append] at distinct
  obtain ⟨earlier, -, apart⟩ := distinct
  exact ⟨earlier, fun member => apart key.name member key.name List.mem_cons_self rfl⟩

end Entries

def Setting.row (s : Setting) : Key × Node := (s.key, s.value)

def flat (settings : List Setting) : Entries := (settings.filter (·.parents.isEmpty)).map Setting.row

def nested (settings : List Setting) : Entries := (settings.filter fun s => !s.parents.isEmpty).map Setting.row

variable {entries : Entries} {table : String} {settings : List Setting} {s : Setting} {parent : Key}

theorem flat_concat_of_alone (alone : s.parents = []) : flat (settings ++ [s]) = flat settings ++ [s.row] := by
  simp [flat, alone]

theorem nested_concat_of_alone (alone : s.parents = []) : nested (settings ++ [s]) = nested settings := by
  simp [nested, alone]

theorem flat_concat_of_under (under : s.parents = [parent]) : flat (settings ++ [s]) = flat settings := by
  simp [flat, under]

theorem nested_concat_of_under (under : s.parents = [parent]) :
    nested (settings ++ [s]) = nested settings ++ [s.row] := by
  simp [nested, under]

theorem set?_of_alone (alone : s.parents = []) (new : s.key.name ∉ entries.names) :
    entries.set? s.parents s.key s.value = some (entries ++ [s.row]) := by
  rw [Entries.set?, alone]
  exact Entries.add?_of_new new

theorem setAll?_concat (set : Entries.setAll? settings [] = some entries) :
    Entries.setAll? (settings ++ [s]) [] = entries.set? s.parents s.key s.value := by
  rw [Entries.setAll?] at set ⊢
  simp [List.foldlM_append, set]

/-- The entries of settings, with those that have a path gathered in one table. -/
inductive Gathered (table : String) (settings : List Setting) : Entries → Prop where
  | without (empty : nested settings = []) : Gathered table settings (flat settings)
  | within {before after : Entries} (key : Key) (span : Span) (named : key.name = table)
      (present : nested settings ≠ []) (split : flat settings = before ++ after) :
      Gathered table settings (before ++ (key, .table span .dotted (nested settings)) :: after)

theorem Gathered.set_alone (gathered : Gathered table settings entries) (alone : s.parents = [])
    (other : s.key.name ≠ table) (new : s.key.name ∉ (flat settings).names) :
    ∃ after, entries.set? s.parents s.key s.value = some after ∧ Gathered table (settings ++ [s]) after := by
  cases gathered with
  | without empty =>
    refine ⟨_, set?_of_alone alone new, ?_⟩
    rw [← flat_concat_of_alone alone]
    exact .without (by rw [nested_concat_of_alone alone, empty])
  | @within before after key span named present split =>
    rw [split, Entries.names_append, List.mem_append, not_or] at new
    obtain ⟨front, back⟩ := new
    refine ⟨_, set?_of_alone alone ?_, ?_⟩
    · rw [Entries.names_append, Entries.names_cons, List.mem_append, List.mem_cons, named]
      rintro (first | same | last)
      · exact front first
      · exact other same
      · exact back last
    · rw [← nested_concat_of_alone alone] at present ⊢
      rw [List.append_assoc, List.cons_append]
      exact .within key span named present (by rw [flat_concat_of_alone alone, split, List.append_assoc])

theorem Gathered.set_under (gathered : Gathered table settings entries) (under : s.parents = [parent])
    (parentNamed : parent.name = table) (other : table ∉ (flat settings).names)
    (new : s.key.name ∉ (nested settings).names) :
    ∃ after, entries.set? s.parents s.key s.value = some after ∧ Gathered table (settings ++ [s]) after := by
  have rows : flat (settings ++ [s]) = flat settings := flat_concat_of_under under
  have more : nested (settings ++ [s]) = nested settings ++ [s.row] := nested_concat_of_under under
  have nonempty : nested (settings ++ [s]) ≠ [] := by simp [more]
  have added : (nested settings).add? s.key s.value = some (nested (settings ++ [s])) := by
    rw [more]
    exact Entries.add?_of_new new
  rw [Entries.set?, under]
  cases gathered with
  | without empty =>
    have absent := Entries.find?_eq_none_iff.mpr other
    rw [empty] at added
    refine ⟨flat settings ++ [(parent, .table parent.span .dotted (nested (settings ++ [s])))], ?_, ?_⟩
    · simp [Entries.change?, parentNamed, absent, added]
    · have split : flat (settings ++ [s]) = flat settings ++ [] := by rw [rows, List.append_nil]
      exact .within parent parent.span parentNamed nonempty split
  | @within before after key span named present split =>
    rw [split, Entries.names_append, List.mem_append, not_or, ← named] at other
    obtain ⟨front, back⟩ := other
    refine ⟨before ++ (key, .table span .dotted (nested (settings ++ [s]))) :: after, ?_, ?_⟩
    · simp [Entries.change?, parentNamed, ← named, Entries.find?_within front, Entries.replace_within front back,
        Entries.mayEnter, added]
    · exact .within key span named nonempty (by rw [rows, split])

def Setting.Within (table : String) (s : Setting) : Prop :=
  s.parents = [] ∨ ∃ parent, s.parents = [parent] ∧ parent.name = table

theorem setAll?_gathered (within : ∀ s ∈ settings, s.Within table) (other : table ∉ (flat settings).names)
    (flatDistinct : (flat settings).names.Nodup) (nestedDistinct : (nested settings).names.Nodup) :
    ∃ entries, Entries.setAll? settings [] = some entries ∧ Gathered table settings entries := by
  induction settings using List.reverseRecOn with
  | nil => exact ⟨[], rfl, .without rfl⟩
  | append_singleton settings s ih =>
    have earlier : ∀ s ∈ settings, s.Within table := fun s member => within s (List.mem_append_left _ member)
    rcases within s (by simp) with alone | ⟨parent, under, named⟩
    · rw [flat_concat_of_alone alone] at other flatDistinct
      rw [nested_concat_of_alone alone] at nestedDistinct
      obtain ⟨distinct, new⟩ := Entries.names_concat_nodup flatDistinct
      rw [Entries.names_append, List.mem_append, not_or] at other
      obtain ⟨elsewhere, apart⟩ := other
      obtain ⟨entries, set, gathered⟩ := ih earlier elsewhere distinct nestedDistinct
      rw [setAll?_concat set]
      refine gathered.set_alone alone (fun same => ?_) new
      exact apart (List.mem_singleton.mpr same.symm)
    · rw [flat_concat_of_under under] at other flatDistinct
      rw [nested_concat_of_under under] at nestedDistinct
      obtain ⟨distinct, new⟩ := Entries.names_concat_nodup nestedDistinct
      obtain ⟨entries, set, gathered⟩ := ih earlier other flatDistinct distinct
      rw [setAll?_concat set]
      exact gathered.set_under under named other new

theorem setAll?_alone (alone : ∀ s ∈ settings, s.parents = []) (distinct : (flat settings).names.Nodup) :
    Entries.setAll? settings [] = some (flat settings) := by
  induction settings using List.reverseRecOn with
  | nil => rfl
  | append_singleton settings s ih =>
    have last : s.parents = [] := alone s (by simp)
    rw [flat_concat_of_alone last] at distinct ⊢
    obtain ⟨earlier, new⟩ := Entries.names_concat_nodup distinct
    have set := ih (fun s member => alone s (List.mem_append_left _ member)) earlier
    rw [setAll?_concat set, set?_of_alone last new]

theorem open?_new {section_ : Section} (single : section_.double = false) (top : section_.parents = [])
    (new : section_.key.name ∉ entries.names) (alone : ∀ s ∈ section_.settings, s.parents = [])
    (distinct : (flat section_.settings).names.Nodup) :
    entries.open? section_ =
      some (entries ++ [(section_.key, .table section_.span .header (flat section_.settings))]) := by
  have absent := Entries.find?_eq_none_iff.mpr new
  have kept := Entries.erase_of_absent new
  have set := setAll?_alone alone distinct
  simp [Entries.open?, top, Entries.change?, Section.attach?, absent, single, set, kept]

end ImageRelease.Toml
