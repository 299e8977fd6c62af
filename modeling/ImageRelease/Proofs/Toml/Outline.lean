import ImageRelease.Proofs.Toml.Table
import ImageRelease.Proofs.Toml.Suffix

/-! The table of a document holds what is written in it: each definition once, and nothing else. -/
namespace ImageRelease.Toml

/-- A step on the way to a value: into an entry of a table, or into an item of an array. -/
inductive Step where
  | key (name : String)
  | item (index : Nat)
deriving DecidableEq, Repr

/-- A definition: the way to it, and its value unless it is the header of a table. -/
abbrev Row := List Step × Option Node

def below (front : List Step) (rows : List Row) : List Row := rows.map fun row => (front ++ row.1, row.2)

def steps (path : List Key) : List Step := path.map fun key => .key key.name

def Setting.stated (s : Setting) : Row := (steps (s.parents ++ [s.key]), some s.value)

def Section.stated (s : Section) : List Row :=
  (steps (s.parents ++ [s.key]), none) :: below (steps (s.parents ++ [s.key])) (s.settings.map Setting.stated)

/-- The rows of statements, those behind a header below it. -/
def stated (front : List Step) : List Statement → List Row
  | [] => []
  | .sets setting :: rest => below front [setting.stated] ++ stated front rest
  | .opens _ _ parents key :: rest => (steps (parents ++ [key]), none) :: stated (steps (parents ++ [key])) rest

mutual

/-- The definitions at a node and below it. The values of a document are not looked into. -/
def Node.outline : Node → List Row
  | .table span .inline entries => [([], some (.table span .inline entries))]
  | .table _ .header entries => ([], none) :: Entries.outline entries
  | .table _ .implied entries | .table _ .dotted entries => Entries.outline entries
  | .tables _ items => outlineItems items
  | node => [([], some node)]

def Entries.outline : List (Key × Node) → List Row
  | [] => []
  | (key, node) :: entries => below [.key key.name] node.outline ++ Entries.outline entries

def outlineItems : List Node → List Row
  | [] => []
  | item :: items => item.outline ++ outlineItems items

end

/-- The keys of a table are distinct at each level that is no value, and a row of tables has tables with headers. -/
inductive Node.Tidy : Node → Prop where
  | value {node : Node} (value : node.IsValue) : Tidy node
  | table {span : Span} {origin : Origin} {entries : Entries} (opened : origin ≠ .inline)
      (distinct : entries.names.Nodup) (each : ∀ entry ∈ entries, Tidy entry.2) : Tidy (.table span origin entries)
  | tables {span : Span} {items : List Node} (each : ∀ item ∈ items, Tidy item)
      (headed : ∀ item ∈ items, ∃ span entries, item = .table span .header entries) : Tidy (.tables span items)

structure Entries.Tidy (entries : Entries) : Prop where
  distinct : entries.names.Nodup
  each : ∀ entry ∈ entries, entry.2.Tidy

/-- Entries go on by rows: they are tidy, and state what there was and these rows. -/
structure Grows (rows : List Row) (entries after : Entries) : Prop where
  tidy : after.Tidy
  outline : (Entries.outline after).Perm (Entries.outline entries ++ rows)

variable {entries after before sub grown : Entries} {rows more : List Row} {node old new : Node} {name : String}
  {key : Key} {front : List Step} {origin : Origin} {span : Span}

theorem below_append (front : List Step) (rows more : List Row) :
    below front (rows ++ more) = below front rows ++ below front more := List.map_append

theorem below_below (front back : List Step) (rows : List Row) :
    below front (below back rows) = below (front ++ back) rows := by
  simp [below]

theorem below_nil (rows : List Row) : below [] rows = rows := List.map_id rows

theorem below_perm (front : List Step) (perm : rows.Perm more) : (below front rows).Perm (below front more) :=
  perm.map _

theorem below_steps_cons (key : Key) (path : List Key) (rows : List Row) :
    below (steps (key :: path)) rows = below [.key key.name] (below (steps path) rows) := by
  rw [below_below]
  rfl

theorem outline_append (entries more : Entries) :
    Entries.outline (entries ++ more) = Entries.outline entries ++ Entries.outline more := by
  induction entries with
  | nil => rfl
  | cons entry entries ih => rw [List.cons_append, Entries.outline, Entries.outline, ih, List.append_assoc]

theorem outline_within (before : Entries) (key : Key) (node : Node) (after : Entries) :
    Entries.outline (before ++ (key, node) :: after) =
      Entries.outline before ++ (below [.key key.name] node.outline ++ Entries.outline after) := by
  rw [outline_append, Entries.outline]

theorem outline_tables_concat (span : Span) (items : List Node) (item : Node) :
    (Node.tables span (items ++ [item])).outline = (Node.tables span items).outline ++ item.outline := by
  induction items with
  | nil => exact List.append_nil _
  | cons first items ih =>
    simp only [Node.outline, List.cons_append, outlineItems, List.append_assoc] at ih ⊢
    rw [ih]

theorem outline_of_isValue (value : node.IsValue) : node.outline = [([], some node)] := by
  cases node with
  | table span origin entries =>
    obtain rfl : origin = .inline := value
    rfl
  | tables => exact value.elim
  | _ => rfl

def Origin.outline : Origin → List Row
  | .header => [([], none)]
  | _ => []

theorem outline_table (opened : origin ≠ .inline) (span : Span) (entries : Entries) :
    (Node.table span origin entries).outline = origin.outline ++ Entries.outline entries := by
  cases origin <;> first | contradiction | rfl

theorem outline_eq_flatMap (entries : Entries) :
    Entries.outline entries = entries.flatMap fun entry => below [.key entry.1.name] entry.2.outline := by
  induction entries with
  | nil => rfl
  | cons entry entries ih => rw [Entries.outline, ih, List.flatMap_cons]

theorem find?_split (found : entries.find? name = some node) (distinct : entries.names.Nodup) :
    ∃ (before : Entries) (key : Key) (after : Entries), entries = before ++ (key, node) :: after ∧ key.name = name ∧
      key.name ∉ before.names ∧ key.name ∉ after.names := by
  obtain ⟨⟨key, node⟩, present, rfl⟩ := Option.map_eq_some_iff.mp found
  obtain ⟨named, before, after, rfl, -⟩ := List.find?_eq_some_iff_append.mp present
  rw [Entries.names_append, Entries.names_cons, List.nodup_append, List.nodup_cons] at distinct
  obtain ⟨-, ⟨back, -⟩, apart⟩ := distinct
  refine ⟨before, key, after, rfl, by simpa using named, fun member => ?_, back⟩
  exact apart _ member _ List.mem_cons_self rfl

theorem Entries.Tidy.of_find? (tidy : entries.Tidy) (found : entries.find? name = some node) : node.Tidy := by
  obtain ⟨before, key, after, rfl, -⟩ := find?_split found tidy.distinct
  exact tidy.each (key, node) (by simp)

theorem Node.Tidy.inside (tidy : (Node.table span origin entries).Tidy) (opened : origin ≠ .inline) : entries.Tidy := by
  cases tidy with
  | value value => exact absurd value opened
  | table _ distinct each => exact ⟨distinct, each⟩

theorem Node.Tidy.items {items : List Node} (tidy : (Node.tables span items).Tidy) :
    (∀ item ∈ items, item.Tidy) ∧ ∀ item ∈ items, ∃ span entries, item = .table span .header entries := by
  cases tidy with
  | value value => exact value.elim
  | tables each headed => exact ⟨each, headed⟩

theorem tidy_nil : Entries.Tidy [] := ⟨.nil, by simp⟩

namespace Grows

theorem refl (tidy : entries.Tidy) : Grows [] entries entries := ⟨tidy, (List.append_nil _).symm ▸ .refl _⟩

theorem trans (first : Grows rows entries after) (second : Grows more after grown) :
    Grows (rows ++ more) entries grown := by
  refine ⟨second.tidy, second.outline.trans ?_⟩
  rw [← List.append_assoc]
  exact first.outline.append_right more

theorem perm (grows : Grows rows entries after) (perm : after.Perm grown) : Grows rows entries grown := by
  refine ⟨⟨(perm.map _).nodup grows.tidy.distinct, fun entry member => ?_⟩, ?_⟩
  · exact grows.tidy.each entry (perm.mem_iff.mpr member)
  · rw [outline_eq_flatMap grown]
    refine (perm.flatMap_right _).symm.trans ?_
    rw [← outline_eq_flatMap]
    exact grows.outline

theorem of_new (tidy : entries.Tidy) (absent : key.name ∉ entries.names) (tidyNode : node.Tidy) :
    Grows (below [.key key.name] node.outline) entries (entries ++ [(key, node)]) := by
  refine ⟨⟨?_, ?_⟩, ?_⟩
  · rw [Entries.names_append]
    refine List.nodup_append.mpr ⟨tidy.distinct, List.pairwise_singleton _ _, fun name member last only same => ?_⟩
    obtain rfl := List.mem_singleton.mp only
    subst same
    exact absent member
  · rw [List.forall_mem_append]
    exact ⟨tidy.each, List.forall_mem_singleton.mpr tidyNode⟩
  · rw [outline_append, Entries.outline, Entries.outline, List.append_nil]

/-- An entry goes on by rows, and its key may be written anew. -/
theorem of_changed {again : Key} (same : again.name = key.name) (tidy : Entries.Tidy (before ++ (key, old) :: after))
    (tidyNew : new.Tidy) (outline : new.outline.Perm (old.outline ++ rows)) :
    Grows (below [.key key.name] rows) (before ++ (key, old) :: after) (before ++ (again, new) :: after) := by
  refine ⟨⟨?_, ?_⟩, ?_⟩
  · have distinct := tidy.distinct
    rw [Entries.names_append, Entries.names_cons] at distinct ⊢
    rwa [same]
  · have each := tidy.each
    rw [List.forall_mem_append, List.forall_mem_cons] at each ⊢
    exact ⟨each.1, tidyNew, each.2.2⟩
  · have inside := outline.map fun row : Row => ([.key key.name] ++ row.1, row.2)
    rw [outline_within, outline_within, same, List.append_assoc]
    refine List.Perm.append_left _ ((List.Perm.append_right _ inside).trans ?_)
    rw [← below, below_append]
    simp only [List.append_assoc]
    exact List.perm_append_comm.append_left _

theorem of_replace (tidy : entries.Tidy) (found : entries.find? name = some old) (tidyNew : new.Tidy)
    (outline : new.outline.Perm (old.outline ++ rows)) :
    Grows (below [.key name] rows) entries (entries.replace name new) := by
  obtain ⟨before, key, after, rfl, rfl, front, back⟩ := find?_split found tidy.distinct
  rw [Entries.replace_within front back]
  exact of_changed rfl tidy tidyNew outline

theorem of_erase (tidy : entries.Tidy) (found : entries.find? key.name = some old) (tidyNew : new.Tidy)
    (outline : new.outline.Perm (old.outline ++ rows)) :
    Grows (below [.key key.name] rows) entries (entries.erase key.name ++ [(key, new)]) := by
  obtain ⟨before, earlier, after, rfl, named, front, back⟩ := find?_split found tidy.distinct
  have erased : Entries.erase key.name (before ++ (earlier, old) :: after) = before ++ after := by
    rw [← named]
    calc
      Entries.erase earlier.name (before ++ (earlier, old) :: after) =
          before.erase earlier.name ++ after.erase earlier.name := by simp [Entries.erase]
      _ = before ++ after := by rw [Entries.erase_of_absent front, Entries.erase_of_absent back]
  rw [erased, ← named]
  refine (of_changed named.symm tidy tidyNew outline).perm ?_
  rw [List.append_assoc]
  exact (List.perm_append_singleton (key, new) after).symm.append_left before

theorem congr (grows : Grows rows entries after) (perm : rows.Perm more) : Grows more entries after :=
  ⟨grows.tidy, grows.outline.trans (perm.append_left _)⟩

theorem of_table (opened : origin ≠ .inline) (grows : Grows rows sub grown) (span : Span) :
    (Node.table span origin grown).Tidy ∧
      (Node.table span origin grown).outline.Perm ((Node.table span origin sub).outline ++ rows) := by
  refine ⟨.table opened grows.tidy.distinct grows.tidy.each, ?_⟩
  rw [outline_table opened, outline_table opened, List.append_assoc]
  exact grows.outline.append_left _

theorem of_another {items : List Node} {last : Span} (tidy : (Node.tables span items).Tidy)
    (tidyLast : (Node.table last .header grown).Tidy) (outline : (Node.table last .header grown).outline.Perm rows) :
    (Node.tables span (items ++ [.table last .header grown])).Tidy ∧
      (Node.tables span (items ++ [.table last .header grown])).outline.Perm
        ((Node.tables span items).outline ++ rows) := by
  obtain ⟨each, headed⟩ := tidy.items
  refine ⟨.tables ?_ ?_, ?_⟩
  · rw [List.forall_mem_append, List.forall_mem_singleton]
    exact ⟨each, tidyLast⟩
  · rw [List.forall_mem_append, List.forall_mem_singleton]
    exact ⟨headed, last, grown, rfl⟩
  · rw [outline_tables_concat]
    exact outline.append_left _

theorem of_last {items : List Node} {last : Span} (tidy : (Node.tables span (items ++ [.table last origin sub])).Tidy)
    (grows : sub.Tidy → Grows rows sub grown) :
    (Node.tables span (items ++ [.table last origin grown])).Tidy ∧
      (Node.tables span (items ++ [.table last origin grown])).outline.Perm
        ((Node.tables span (items ++ [.table last origin sub])).outline ++ rows) := by
  obtain ⟨each, headed⟩ := tidy.items
  rw [List.forall_mem_append, List.forall_mem_singleton] at each headed
  obtain ⟨_, _, same⟩ := headed.2
  obtain ⟨-, rfl, -⟩ := Node.table.inj same
  have opened : Origin.header ≠ .inline := by decide
  obtain ⟨tidyLast, outline⟩ := (grows (each.2.inside opened)).of_table opened last
  rw [outline_tables_concat span items (.table last .header sub), List.append_assoc]
  exact of_another (.tables each.1 headed.1) tidyLast outline

/-- What is done to the table at the end of a path is done to the tables on the way, too. The tables that are made on
the way have no rows of their own. -/
theorem of_change {dotted : Bool} {f : Origin → Entries → Option Entries} {path : List Key}
    (step : ∀ origin (entries after : Entries), entries.Tidy → f origin entries = some after → Grows rows entries after)
    (tidy : entries.Tidy) (changed : Entries.change? dotted f origin path entries = some after) :
    Grows (below (steps path) rows) entries after := by
  induction path generalizing origin entries after with
  | nil =>
    have grows := step origin entries after tidy changed
    exact (below_nil rows).symm ▸ grows
  | cons key path ih =>
    rw [below_steps_cons]
    rw [Entries.change?] at changed
    split at changed
    · next absent =>
      obtain ⟨sub, made, same⟩ := Option.bind_eq_some_iff.mp changed
      obtain rfl := Option.some.inj same
      have grows := ih tidy_nil made
      have opened : (if dotted then Origin.dotted else Origin.implied) ≠ .inline := by cases dotted <;> simp
      obtain ⟨tidySub, outline⟩ := grows.of_table opened key.span
      refine (of_new tidy (Entries.find?_eq_none_iff.mp absent) tidySub).congr (below_perm _ ?_)
      refine outline.trans ?_
      cases dotted <;> exact .refl _
    · next span inner sub found =>
      split at changed
      · next enter =>
        obtain ⟨grown, made, same⟩ := Option.bind_eq_some_iff.mp changed
        obtain rfl := Option.some.inj same
        have opened : inner ≠ .inline := by
          rintro rfl
          contradiction
        obtain ⟨tidySub, outline⟩ := (ih ((tidy.of_find? found).inside opened) made).of_table opened span
        exact of_replace tidy found tidySub outline
      · contradiction
    · next span items found =>
      split at changed
      · next last inner sub ends =>
        obtain ⟨grown, made, same⟩ := Option.bind_eq_some_iff.mp changed
        obtain rfl := Option.some.inj same
        obtain ⟨earlier, rfl⟩ := List.getLast?_eq_some_iff.mp ends
        obtain ⟨tidyTables, outline⟩ := of_last (tidy.of_find? found) fun tidySub => ih tidySub made
        rw [List.dropLast_concat]
        exact of_replace tidy found tidyTables outline
      · contradiction
    · contradiction

theorem of_set {s : Setting} (tidy : entries.Tidy) (value : s.value.IsValue)
    (set : entries.set? s.parents s.key s.value = some after) : Grows [s.stated] entries after := by
  have add {entries after : Entries} (tidy : entries.Tidy) (added : entries.add? s.key s.value = some after) :
      Grows (below [.key s.key.name] s.value.outline) entries after := by
    unfold Entries.add? at added
    split at added
    · contradiction
    · next absent =>
      obtain rfl := Option.some.inj added
      rw [Option.not_isSome_iff_eq_none, Entries.find?_eq_none_iff] at absent
      exact of_new tidy absent (.value value)
  have row : below (steps s.parents) (below [.key s.key.name] s.value.outline) = [s.stated] := by
    rw [outline_of_isValue value]
    simp [below, Setting.stated, steps]
  rw [← row]
  unfold Entries.set? at set
  split at set
  · next top =>
    obtain parents : s.parents = [] := List.isEmpty_iff.mp top
    rw [parents]
    exact (below_nil _).symm ▸ add tidy set
  · refine of_change (fun origin sub grown tidy set => ?_) tidy set
    split at set
    · exact add tidy set
    · contradiction

theorem of_setAll {settings : List Setting} (tidy : entries.Tidy) (values : ∀ s ∈ settings, s.value.IsValue)
    (set : Entries.setAll? settings entries = some after) : Grows (settings.map Setting.stated) entries after := by
  induction settings generalizing entries with
  | nil =>
    obtain rfl := Option.some.inj set
    exact .refl tidy
  | cons s settings ih =>
    obtain ⟨value, others⟩ := List.forall_mem_cons.mp values
    obtain ⟨middle, first, later⟩ := Option.bind_eq_some_iff.mp set
    have grows := of_set tidy value first
    exact grows.trans (ih grows.tidy others later)

theorem headed (grows : Grows rows sub grown) (span : Span) :
    (Node.table span .header grown).Tidy ∧
      (Node.table span .header grown).outline.Perm (Entries.outline sub ++ ([], none) :: rows) := by
  have opened : Origin.header ≠ .inline := by decide
  obtain ⟨tidy, -⟩ := grows.of_table opened span
  exact ⟨tidy, (grows.outline.cons _).trans List.perm_middle.symm⟩

theorem of_attach {section_ : Section} (tidy : entries.Tidy) (values : ∀ s ∈ section_.settings, s.value.IsValue)
    (attached : section_.attach? entries = some after) :
    Grows (below [.key section_.key.name] (([], none) :: section_.settings.map Setting.stated)) entries after := by
  simp only [Section.attach?] at attached
  split at attached
  · next absent =>
    simp only [absent, Option.bind_eq_bind, Option.bind_some] at attached
    obtain ⟨grown, set, attached⟩ := Option.bind_eq_some_iff.mp attached
    obtain ⟨tidyTable, outline⟩ := (of_setAll tidy_nil values set).headed section_.span
    have new := Entries.find?_eq_none_iff.mp absent
    split at attached
    · obtain rfl := Option.some.inj attached
      have empty : (Node.tables section_.span []).Tidy := .tables (by simp) (by simp)
      obtain ⟨tidyTables, outline⟩ := of_another empty tidyTable outline
      exact (of_new tidy new tidyTables).congr (below_perm _ outline)
    · obtain rfl := Option.some.inj attached
      rw [Entries.erase_of_absent new]
      exact (of_new tidy new tidyTable).congr (below_perm _ outline)
  · next span sub found =>
    split at attached
    · contradiction
    · simp only [Option.bind_eq_bind, Option.bind_some] at attached
      obtain ⟨grown, set, attached⟩ := Option.bind_eq_some_iff.mp attached
      obtain rfl := Option.some.inj attached
      have tidySub := (tidy.of_find? found).inside (by decide)
      obtain ⟨tidyTable, outline⟩ := (of_setAll tidySub values set).headed section_.span
      exact of_erase tidy found tidyTable outline
  · next span items found =>
    split at attached
    · simp only [found, Option.bind_eq_bind, Option.bind_some] at attached
      obtain ⟨grown, set, attached⟩ := Option.bind_eq_some_iff.mp attached
      obtain rfl := Option.some.inj attached
      obtain ⟨tidyTable, outline⟩ := (of_setAll tidy_nil values set).headed section_.span
      obtain ⟨tidyTables, outline⟩ := of_another (tidy.of_find? found) tidyTable outline
      exact of_replace tidy found tidyTables outline
    · contradiction
  · contradiction

theorem of_open {section_ : Section} (tidy : entries.Tidy) (values : ∀ s ∈ section_.settings, s.value.IsValue)
    (opens : entries.open? section_ = some after) : Grows section_.stated entries after := by
  have path : steps section_.parents ++ [.key section_.key.name] = steps (section_.parents ++ [section_.key]) := by
    simp [steps]
  have grows := of_change (fun _ _ _ tidy attached => of_attach tidy values attached) tidy opens
  rw [below_below, path] at grows
  simpa [below, Section.stated] using grows

theorem of_openAll {sections : List Section} (tidy : entries.Tidy)
    (values : ∀ section_ ∈ sections, ∀ s ∈ section_.settings, s.value.IsValue)
    (opens : sections.foldlM (fun root section_ => root.open? section_) entries = some after) :
    Grows (sections.flatMap Section.stated) entries after := by
  induction sections generalizing entries with
  | nil =>
    obtain rfl := Option.some.inj opens
    exact .refl tidy
  | cons section_ sections ih =>
    obtain ⟨value, others⟩ := List.forall_mem_cons.mp values
    obtain ⟨middle, first, later⟩ := Option.bind_eq_some_iff.mp opens
    have grows := of_open tidy value first
    exact grows.trans (ih grows.tidy others later)

end Grows

theorem stated_eq (front : List Step) (statements : List Statement) :
    stated front statements =
      below front ((group statements).1.map Setting.stated) ++ (group statements).2.flatMap Section.stated := by
  induction statements generalizing front with
  | nil => rfl
  | cons statement statements ih => cases statement <;> simp [stated, group, ih, below, Section.stated]

theorem forall_group {p : Setting → Prop} {statements : List Statement} (each : ∀ s, .sets s ∈ statements → p s) :
    (∀ s ∈ (group statements).1, p s) ∧ ∀ section_ ∈ (group statements).2, ∀ s ∈ section_.settings, p s := by
  induction statements with
  | nil => simp [group]
  | cons statement statements ih =>
    obtain ⟨top, sections⟩ := ih fun s later => each s (List.mem_cons_of_mem _ later)
    cases statement with
    | sets setting => exact ⟨List.forall_mem_cons.mpr ⟨each setting List.mem_cons_self, top⟩, sections⟩
    | opens double span parents key => exact ⟨by simp [group], List.forall_mem_cons.mpr ⟨top, sections⟩⟩

/-- The table of a document states what its statements do, each definition as often as it is written. -/
theorem assemble?_outline {statements : List Statement} (values : ∀ s, .sets s ∈ statements → s.value.IsValue)
    (assembled : assemble? statements = some entries) :
    entries.Tidy ∧ (Entries.outline entries).Perm (stated [] statements) := by
  obtain ⟨top, inside⟩ := forall_group values
  obtain ⟨root, set, opens⟩ := Option.bind_eq_some_iff.mp assembled
  have settings := Grows.of_setAll tidy_nil top set
  have sections := Grows.of_openAll settings.tidy inside opens
  refine ⟨sections.tidy, ?_⟩
  rw [stated_eq, below_nil]
  exact (settings.trans sections).outline

end ImageRelease.Toml
