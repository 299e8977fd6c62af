import Mathlib.Data.List.Nodup
import ImageRelease.Proofs.Config.Entries
import ImageRelease.Proofs.Config.Override
import ImageRelease.Proofs.Toml.Written

/-! Each key of a document that is accepted is accounted for: it is known, is set once, and holds the value that the
configuration has. Only what is inside of surplus items of a list of limits is left alone.
-/
namespace ImageRelease

open Toml (Entries Node Key Origin Row Span Step below withInside)

namespace Config

def leafPaths : List (List Step) :=
  TextField.all.map (fun f => [.key f.key]) ++ LimitField.all.map fun f => [.key limitsKey, .key f.key]

def knownPaths : List (List Step) := [.key limitsKey] :: leafPaths

def Known (path : List Step) : Prop := ∀ front, front <+: path → front ≠ [] → front ∈ knownPaths

/-- A way into an item of a list of limits behind those that are read. -/
def Surplus (path : List Step) : Prop :=
  ∃ index rest, path = .key limitsKey :: .item index :: rest ∧ LimitField.all.length ≤ index

/-- The rows of a document are those of a configuration. -/
structure Accounted (config : Config) (rows : List Row) : Prop where
  known : ∀ row ∈ rows, Known row.1 ∨ Surplus row.1
  once : ∀ path ∈ leafPaths, (rows.map Prod.fst).count path ≤ 1
  text : ∀ (f : TextField) value, ([.key f.key], value) ∈ rows → ∃ span, value = some (.text span (config.get f))
  limit : ∀ (f : LimitField) value, ([.key limitsKey, .key f.key], value) ∈ rows →
    ∃ node, value = some node ∧ Holds node (config.limits.get f)

variable {config : Config} {limits : Limits} {entries sub : Entries} {entry : Key × Node} {node : Node} {n : Nat}
  {rows more : List Row}

/-! ### Ways -/

theorem mem_leafPaths_text (f : TextField) : [.key f.key] ∈ leafPaths := by cases f <;> decide

theorem mem_leafPaths_limit (f : LimitField) : [.key limitsKey, .key f.key] ∈ leafPaths := by cases f <;> decide

theorem leafPaths_cases {path : List Step} (leaf : path ∈ leafPaths) :
    (∃ f : TextField, path = [.key f.key]) ∨ ∃ f : LimitField, path = [.key limitsKey, .key f.key] := by
  rcases List.mem_append.mp leaf with text | limit
  · obtain ⟨f, -, rfl⟩ := List.mem_map.mp text
    exact .inl ⟨f, rfl⟩
  · obtain ⟨f, -, rfl⟩ := List.mem_map.mp limit
    exact .inr ⟨f, rfl⟩

theorem limitsKey_not_leaf : [.key limitsKey] ∉ leafPaths := by decide

theorem text_ne (f : TextField) (rest : List Step) : [.key f.key] ≠ .key limitsKey :: rest := fun same =>
  f.key_ne_limitsKey (Step.key.inj (List.cons.inj same).1)

theorem not_surplus_of_mem {path : List Step} (known : path ∈ knownPaths) : ¬Surplus path := by
  rintro ⟨index, rest, rfl, -⟩
  rcases List.mem_cons.mp known with same | leaf
  · exact List.cons_ne_nil _ _ (List.cons.inj same).2
  · rcases leafPaths_cases leaf with ⟨f, same⟩ | ⟨f, same⟩
    · exact text_ne f _ same.symm
    · exact Step.noConfusion (List.cons.inj (List.cons.inj same).2).1

theorem known_singleton {first : Step} (listed : [first] ∈ knownPaths) : Known [first] := by
  intro front part present
  obtain ⟨more, rfl, nothing⟩ := (List.prefix_cons_iff.mp part).resolve_left present
  obtain rfl := List.prefix_nil.mp nothing
  exact listed

theorem known_limits : Known [.key limitsKey] := known_singleton List.mem_cons_self

theorem known_text (f : TextField) : Known [.key f.key] :=
  known_singleton (List.mem_cons_of_mem _ (mem_leafPaths_text f))

theorem known_limit (f : LimitField) : Known [.key limitsKey, .key f.key] := by
  intro front part present
  obtain ⟨more, rfl, last⟩ := (List.prefix_cons_iff.mp part).resolve_left present
  rcases List.prefix_cons_iff.mp last with rfl | ⟨nothing, rfl, ends⟩
  · exact List.mem_cons_self
  · obtain rfl := List.prefix_nil.mp ends
    exact List.mem_cons_of_mem _ (mem_leafPaths_limit f)

/-! ### Rows -/

theorem Accounted.perm (accounted : Accounted config rows) (perm : rows.Perm more) : Accounted config more where
  known row member := accounted.known row (perm.mem_iff.mpr member)
  once path leaf := by
    rw [← (perm.map Prod.fst).count_eq]
    exact accounted.once path leaf
  text f value member := accounted.text f value (perm.mem_iff.mpr member)
  limit f value member := accounted.limit f value (perm.mem_iff.mpr member)

theorem count_flatMap_le {α : Type} {p : α → List (List Step)} {path : List Step} {xs : List α}
    (each : ∀ x ∈ xs, (p x).count path ≤ 1) (apart : xs.Pairwise fun x y => path ∈ p x → path ∉ p y) :
    (xs.flatMap p).count path ≤ 1 := by
  induction xs with
  | nil => exact Nat.zero_le 1
  | cons x xs ih =>
    obtain ⟨first, later⟩ := List.pairwise_cons.mp apart
    rw [List.flatMap_cons, List.count_append]
    by_cases here : path ∈ p x
    · have others : (xs.flatMap p).count path = 0 := by
        rw [List.count_eq_zero, List.mem_flatMap]
        rintro ⟨y, member, there⟩
        exact first y member here there
      rw [others]
      exact each x List.mem_cons_self
    · rw [List.count_eq_zero.mpr here, Nat.zero_add]
      exact ih (fun y member => each y (List.mem_cons_of_mem _ member)) later

/-- Rows that are accounted for at each entry of a table are so together. -/
theorem Accounted.flatMap {f : Key × Node → List Row} (distinct : entries.names.Nodup)
    (each : ∀ entry ∈ entries, Accounted config (f entry) ∧
      ∀ row ∈ f entry, row.1.head? = some (.key entry.1.name)) : Accounted config (entries.flatMap f) where
  known row member := by
    obtain ⟨entry, listed, inside⟩ := List.mem_flatMap.mp member
    exact (each entry listed).1.known row inside
  once path leaf := by
    rw [List.map_flatMap]
    refine count_flatMap_le (fun entry listed => (each entry listed).1.once path leaf) ?_
    rw [Entries.names, List.Nodup, List.pairwise_map] at distinct
    refine distinct.imp_of_mem fun listed alsoListed other here there => other ?_
    obtain ⟨row, first, rfl⟩ := List.mem_map.mp here
    obtain ⟨again, second, same⟩ := List.mem_map.mp there
    have head := (each _ alsoListed).2 again second
    rw [same, (each _ listed).2 row first] at head
    exact Step.key.inj (Option.some.inj head)
  text f value member := by
    obtain ⟨entry, listed, inside⟩ := List.mem_flatMap.mp member
    exact (each entry listed).1.text f value inside
  limit f value member := by
    obtain ⟨entry, listed, inside⟩ := List.mem_flatMap.mp member
    exact (each entry listed).1.limit f value inside

variable {text : List Char} {depth : Nat} {span : Span} {items : List Node}

theorem inside_of_isScalar (scalar : node.IsScalar) : Toml.inside text depth node = [] := by
  cases depth with
  | zero => rfl
  | succ depth => cases node <;> first | rfl | exact scalar.elim

theorem Holds.isScalar (holds : Holds node n) : node.IsScalar := by
  obtain ⟨span, numeral, rfl, -⟩ := holds
  trivial

def entryRows (text : List Char) (entry : Key × Node) : List Row :=
  (below [.key entry.1.name] entry.2.outline).flatMap (withInside (Toml.inside text Toml.nestingLimit))

theorem prefix_of_withInside {inside : Node → List Row} {outer row : Row} (member : row ∈ withInside inside outer) :
    outer.1 <+: row.1 := by
  rcases List.mem_cons.mp member with rfl | later
  · exact List.prefix_rfl
  · cases value : outer.2 with
    | none => simp [value] at later
    | some node =>
      rw [value] at later
      obtain ⟨inner, -, rfl⟩ := List.mem_map.mp later
      exact List.prefix_append _ _

theorem head_of_entryRows {row : Row} (member : row ∈ entryRows text entry) :
    row.1.head? = some (.key entry.1.name) := by
  obtain ⟨outer, listed, here⟩ := List.mem_flatMap.mp member
  obtain ⟨inner, -, rfl⟩ := List.mem_map.mp listed
  obtain ⟨rest, split⟩ := prefix_of_withInside here
  rw [← split]
  rfl

theorem rows_of_scalars (front : List Step) (scalars : ∀ entry ∈ sub, entry.2.IsScalar) :
    (below front (Entries.outline sub)).flatMap (withInside (Toml.inside text depth)) =
      sub.map fun entry => (front ++ [.key entry.1.name], some entry.2) := by
  induction sub with
  | nil => rfl
  | cons entry sub ih =>
    obtain ⟨first, later⟩ := List.forall_mem_cons.mp scalars
    have single : entry.2.outline = [([], some entry.2)] := Toml.outline_of_isValue first.isValue
    rw [Entries.outline, Toml.below_append, List.flatMap_append, ih later, single, List.map_cons]
    simp [below, withInside, inside_of_isScalar first]

theorem entryRows_of_isValue (key : Key) (value : node.IsValue) :
    entryRows text (key, node) =
      ([.key key.name], some node) :: below [.key key.name] (Toml.inside text Toml.nestingLimit node) := by
  rw [entryRows, Toml.outline_of_isValue value]
  simp [below, withInside]

theorem entryRows_of_isScalar (key : Key) (scalar : node.IsScalar) :
    entryRows text (key, node) = [([.key key.name], some node)] := by
  rw [entryRows_of_isValue key scalar.isValue, inside_of_isScalar scalar]
  rfl

/-! ### Entries of a document -/

theorem accounted_text {f : TextField} {key : Key} (named : key.name = f.key) :
    Accounted config (entryRows text (key, .text span (config.get f))) := by
  have scalar : (Node.text span (config.get f)).IsScalar := trivial
  rw [entryRows_of_isScalar key scalar, named]
  refine ⟨List.forall_mem_singleton.mpr (.inl (known_text f)), fun path _ => List.count_le_length, ?_, ?_⟩
  · intro g value member
    obtain ⟨same, rfl⟩ := Prod.mk.inj (List.mem_singleton.mp member)
    obtain rfl := TextField.key_injective (Step.key.inj (List.cons.inj same).1)
    exact ⟨span, rfl⟩
  · intro g value member
    obtain ⟨same, -⟩ := Prod.mk.inj (List.mem_singleton.mp member)
    exact absurd same.symm (text_ne f _)

theorem accounted_limits {table : List Row} (headed : ∀ row ∈ table, row.1 = [.key limitsKey])
    (distinct : sub.names.Nodup)
    (each : ∀ entry ∈ sub, ∃ f : LimitField, entry.1.name = f.key ∧ Holds entry.2 (config.limits.get f)) :
    Accounted config (table ++ sub.map fun entry => ([.key limitsKey, .key entry.1.name], some entry.2)) := by
  refine ⟨fun row member => .inl ?_, fun path leaf => ?_, fun f value member => ?_, fun f value member => ?_⟩
  · rcases List.mem_append.mp member with head | limit
    · rw [headed row head]
      exact known_limits
    · obtain ⟨entry, listed, rfl⟩ := List.mem_map.mp limit
      obtain ⟨f, named, -⟩ := each entry listed
      rw [named]
      exact known_limit f
  · have heads : (table.map Prod.fst).count path = 0 := by
      rw [List.count_eq_zero]
      intro member
      obtain ⟨row, listed, rfl⟩ := List.mem_map.mp member
      exact limitsKey_not_leaf (headed row listed ▸ leaf)
    rw [List.map_append, List.count_append, heads, Nat.zero_add]
    refine List.nodup_iff_count_le_one.mp ?_ path
    have paths : (sub.map fun entry => (([.key limitsKey, .key entry.1.name], some entry.2) : Row)).map Prod.fst =
        sub.names.map fun name => [Step.key limitsKey, .key name] := by simp [Entries.names]
    rw [paths]
    refine distinct.map fun name other same => ?_
    exact Step.key.inj (List.cons.inj (List.cons.inj same).2).1
  · rcases List.mem_append.mp member with head | limit
    · exact absurd (headed _ head) (text_ne f _)
    · obtain ⟨entry, -, same⟩ := List.mem_map.mp limit
      exact absurd (Prod.mk.inj same).1.symm (text_ne f _)
  · rcases List.mem_append.mp member with head | limit
    · exact absurd (List.cons.inj (headed _ head)).2 (List.cons_ne_nil _ _)
    · obtain ⟨entry, listed, same⟩ := List.mem_map.mp limit
      obtain ⟨path, rfl⟩ := Prod.mk.inj same
      obtain ⟨g, named, holds⟩ := each entry listed
      have key := Step.key.inj (List.cons.inj (List.cons.inj path).2).1
      obtain rfl := LimitField.key_injective (named.symm.trans key)
      exact ⟨entry.2, rfl, holds⟩

theorem accounted_list (value : Node) (surplus : ∀ row ∈ rows, Surplus row.1) :
    Accounted config (([.key limitsKey], some value) :: rows) := by
  have other {row : Row} (member : row ∈ rows) (leaf : row.1 ∈ leafPaths) : False :=
    not_surplus_of_mem (List.mem_cons_of_mem _ leaf) (surplus row member)
  refine ⟨List.forall_mem_cons.mpr ⟨.inl known_limits, fun row later => .inr (surplus row later)⟩,
    fun path leaf => ?_, fun f value member => ?_, fun f value member => ?_⟩
  · have absent : path ∉ (([.key limitsKey], some value) :: rows : List Row).map Prod.fst := by
      intro member
      obtain ⟨row, listed, rfl⟩ := List.mem_map.mp member
      rcases List.mem_cons.mp listed with rfl | later
      · exact limitsKey_not_leaf leaf
      · exact other later leaf
    exact (List.count_eq_zero.mpr absent).trans_le (Nat.zero_le 1)
  · rcases List.mem_cons.mp member with head | later
    · exact absurd (Prod.mk.inj head).1 (text_ne f _)
    · exact (other later (mem_leafPaths_text f)).elim
  · rcases List.mem_cons.mp member with head | later
    · exact absurd (List.cons.inj (Prod.mk.inj head).1).2 (List.cons_ne_nil _ _)
    · exact (other later (mem_leafPaths_limit f)).elim

theorem surplus_of_setLimits {after : Limits} {row : Row}
    (decoded : setLimits LimitField.all items limits = .ok after)
    (member : row ∈ below [.key limitsKey] (Toml.inside text (depth + 1) (.array span items))) : Surplus row.1 := by
  obtain ⟨inner, listed, rfl⟩ := List.mem_map.mp member
  obtain ⟨⟨item, index⟩, found, inside⟩ := List.mem_flatMap.mp listed
  obtain ⟨innermost, here, rfl⟩ := List.mem_map.mp inside
  refine ⟨index, innermost.1, rfl, Nat.not_lt.mp fun early => ?_⟩
  obtain ⟨n, holds⟩ := item_of_setLimits decoded (List.mk_mem_zipIdx_iff_getElem?.mp found) early
  rw [inside_of_isScalar holds.isScalar] at here
  contradiction

theorem accounted_braces {key : Key} (named : key.name = limitsKey)
    (decoded : decodeLimits (.table span .inline sub) = .ok config.limits)
    (read : Toml.ReadIn (Toml.takeValue Toml.nestingLimit) text (.table span .inline sub)) :
    Accounted config (entryRows text (key, .table span .inline sub)) := by
  obtain ⟨depth, limit⟩ : ∃ depth, Toml.nestingLimit = depth + 1 := ⟨79, rfl⟩
  rw [limit] at read
  obtain ⟨tidy, inner⟩ := Toml.inside_table read
  have each := fun entry (member : entry ∈ sub) => entry_of_decodeLimits tidy.distinct decoded member
  have scalars : ∀ entry ∈ sub, entry.2.IsScalar := fun entry member => by
    obtain ⟨f, -, holds⟩ := each entry member
    exact holds.isScalar
  rw [← Toml.below_nil (Entries.outline sub), rows_of_scalars [] scalars] at inner
  have value : (Node.table span .inline sub).IsValue := rfl
  rw [entryRows_of_isValue key value, named, limit]
  refine (accounted_limits (List.forall_mem_singleton.mpr rfl) tidy.distinct each).perm (.cons _ ?_)
  refine .trans ?_ (Toml.below_perm [.key limitsKey] inner.symm)
  rw [below, List.map_map]
  exact .refl _

theorem accounted_opened {key : Key} {origin : Origin} (named : key.name = limitsKey)
    (decoded : decodeLimits (.table span origin sub) = .ok config.limits) (opened : origin ≠ .inline)
    (tidy : sub.Tidy) :
    Accounted config (entryRows text (key, .table span origin sub)) := by
  have each := fun entry (member : entry ∈ sub) => entry_of_decodeLimits tidy.distinct decoded member
  have scalars : ∀ entry ∈ sub, entry.2.IsScalar := fun entry member => by
    obtain ⟨f, -, holds⟩ := each entry member
    exact holds.isScalar
  rw [entryRows, Toml.outline_table opened, Toml.below_append, List.flatMap_append, named, rows_of_scalars _ scalars]
  refine accounted_limits (fun row member => ?_) tidy.distinct each
  cases origin <;> simp [Origin.outline, below, withInside] at member
  rw [member]

theorem accounted_entry (distinct : entries.names.Nodup) (decoded : ofEntries entries = .ok config)
    (member : entry ∈ entries) (tidy : entry.2.Tidy)
    (read : entry.2.IsValue → Toml.ReadIn (Toml.takeValue Toml.nestingLimit) text entry.2) :
    Accounted config (entryRows text entry) := by
  obtain ⟨key, node⟩ := entry
  rcases entry_of_ofEntries distinct decoded member with ⟨f, span, named, rfl⟩ | ⟨named, taken⟩
  · exact accounted_text named
  cases node with
  | table span origin sub =>
    by_cases opened : origin = .inline
    · subst opened
      exact accounted_braces named taken (read rfl)
    · exact accounted_opened named taken opened (tidy.inside opened)
  | array span items =>
    have value : (Node.array span items).IsValue := trivial
    obtain ⟨depth, limit⟩ : ∃ depth, Toml.nestingLimit = depth + 1 := ⟨79, rfl⟩
    rw [entryRows_of_isValue key value, named, limit]
    exact accounted_list _ fun row member => surplus_of_setLimits taken member
  | tables span items =>
    cases items with
    | nil =>
      have none : entryRows text (key, .tables span []) = [] := rfl
      rw [none]
      exact ⟨by simp, by simp, by simp, by simp⟩
    | cons first items =>
      -- The first limit would have to be a number, and not a table behind a double header.
      have found : (first :: items)[0]? = some first := rfl
      obtain ⟨n, span, numeral, rfl, -⟩ := item_of_setLimits taken found (by decide)
      obtain ⟨_, _, same⟩ := tidy.items.2 _ List.mem_cons_self
      contradiction
  | _ => simp [decodeLimits] at taken

/-! ### Documents -/

theorem accounted_of_parse {text : String} (accepted : parse text = .ok config) :
    ∃ rows, Toml.written? text.toList = some rows ∧ Accounted config rows := by
  unfold parse ofDocument at accepted
  split at accepted
  · contradiction
  · next entries read =>
    obtain ⟨rows, written, tidy, perm, values⟩ := Toml.written?_of_read? read
    have decoded : ofEntries entries = .ok config := by
      cases decoded : ofEntries entries with
      | error fault => simp [decoded, Except.mapError] at accepted
      | ok other =>
        rw [decoded] at accepted
        exact congrArg _ (Except.ok.inj accepted)
    refine ⟨rows, written, Accounted.perm ?_ perm.symm⟩
    rw [Toml.outline_eq_flatMap, List.flatMap_assoc]
    refine Accounted.flatMap tidy.distinct fun entry member => ⟨?_, fun row => head_of_entryRows⟩
    refine accounted_entry tidy.distinct decoded member (tidy.each entry member) fun value => ?_
    have listed : ([.key entry.1.name], some entry.2) ∈ Entries.outline entries := by
      rw [Toml.outline_eq_flatMap, List.mem_flatMap]
      exact ⟨entry, member, by simp [Toml.outline_of_isValue value, below]⟩
    exact values _ listed _ rfl

/-- When a document is accepted, the way to each key is known, wherever and however it is written, unless it is inside
of surplus items of a list of limits. Each value is set at most once, and the configuration has it. A file with any
other key is not loaded. -/
theorem keys_accounted (text : String) :
    (∀ config, parse text = .ok config → ∃ rows, Toml.written? text.toList = some rows ∧ Accounted config rows ∧
      ((∀ row ∈ rows, Known row.1) ↔ ∀ row ∈ rows, ¬Surplus row.1)) ∧
    ((∀ rows, Toml.written? text.toList = some rows → ∃ row ∈ rows, ¬Known row.1 ∧ ¬Surplus row.1) →
      ∀ (files : FileTree) (env : Environment) (path : String), files.pathExists path = true →
        files.readText path = .ok text → ∃ fault, load files env path = .error (.configInvalid path fault)) := by
  refine ⟨fun config accepted => ?_, fun stray files env path present read => ?_⟩
  · obtain ⟨rows, written, accounted⟩ := accounted_of_parse accepted
    refine ⟨rows, written, accounted, fun known row member surplus => ?_, fun none row member => ?_⟩
    · obtain ⟨index, rest, same, -⟩ := id surplus
      exact not_surplus_of_mem (known row member row.1 List.prefix_rfl (by simp [same])) surplus
    · exact (accounted.known row member).resolve_right (none row member)
  · cases parsed : parse text with
    | error fault =>
      refine ⟨fault, ?_⟩
      rw [load, readFrom, if_pos present, read]
      simp [parsed, Except.mapError, Except.map]
    | ok config =>
      obtain ⟨rows, written, accounted⟩ := accounted_of_parse parsed
      obtain ⟨row, member, unknown, unread⟩ := stray rows written
      exact ((accounted.known row member).elim unknown unread).elim

def quotedDocument : String := "'timeouts' = \x7b # key = 1\n\"command_secs\" = 0x1_0,\n\x7d\n"

def misplaced : String := "[timeouts]\ncommand_secs = 5\nmanifest = 'm'\n"

def misplacedFiles : FileTree := { workingDirectory := [], entries := [(["tasks"], .file misplaced.toUTF8)] }

theorem keys_accounted_quoted :
    (∃ config rows, parse quotedDocument = .ok config ∧ Toml.written? quotedDocument.toList = some rows ∧
      rows.map Prod.fst = [[.key "timeouts"], [.key "timeouts", .key "command_secs"]] ∧ Accounted config rows) ∧
    ∃ fault, load misplacedFiles [] "tasks" = .error (.configInvalid "tasks" fault) := by
  refine ⟨?_, ?_⟩
  · have parses : (parse quotedDocument).toOption.isSome = true := by decide +kernel
    have paths : (Toml.written? quotedDocument.toList).map (·.map Prod.fst) =
        some [[.key "timeouts"], [.key "timeouts", .key "command_secs"]] := by decide +kernel
    obtain ⟨config, parsed⟩ := Option.isSome_iff_exists.mp parses
    have accepted := except_toOption_eq_some.mp parsed
    obtain ⟨rows, written, accounted, -⟩ := (keys_accounted quotedDocument).1 config accepted
    rw [written] at paths
    exact ⟨config, rows, accepted, written, Option.some.inj paths, accounted⟩
  · have read : misplacedFiles.readText "tasks" = .ok misplaced := except_toOption_eq_some.mp (by decide +kernel)
    have paths : (Toml.written? misplaced.toList).map (·.map Prod.fst) =
        some [[.key "timeouts"], [.key "timeouts", .key "command_secs"], [.key "timeouts", .key "manifest"]] := by
      decide +kernel
    refine (keys_accounted misplaced).2 (fun rows written => ?_) misplacedFiles [] "tasks" (by decide +kernel) read
    rw [written] at paths
    have same : rows.map Prod.fst = _ := Option.some.inj paths
    have last : [.key "timeouts", .key "manifest"] ∈ rows.map Prod.fst := by
      rw [same]
      decide
    obtain ⟨row, member, path⟩ := List.mem_map.mp last
    refine ⟨row, member, ?_⟩
    rw [path]
    refine ⟨fun known => absurd (known _ List.prefix_rfl (List.cons_ne_nil _ _)) (by decide), ?_⟩
    rintro ⟨index, rest, same, -⟩
    exact Step.noConfusion (List.cons.inj (List.cons.inj same).2).1

/-- An unknown key is accepted inside of the third item of a list of limits. -/
theorem surplus_key_accepted :
    ∃ config rows row, parse "timeouts = [1, 2, \x7bfoo = 3\x7d]" = .ok config ∧
      Toml.written? "timeouts = [1, 2, \x7bfoo = 3\x7d]".toList = some rows ∧ row ∈ rows ∧
      row.1 = [.key "timeouts", .item 2, .key "foo"] ∧ row.1 ∉ knownPaths := by
  have parses : (parse "timeouts = [1, 2, \x7bfoo = 3\x7d]").toOption.isSome = true := by decide +kernel
  have paths : (Toml.written? "timeouts = [1, 2, \x7bfoo = 3\x7d]".toList).map (·.map Prod.fst) =
      some [[.key "timeouts"], [.key "timeouts", .item 2, .key "foo"]] := by decide +kernel
  obtain ⟨config, parsed⟩ := Option.isSome_iff_exists.mp parses
  obtain ⟨rows, written, same⟩ := Option.map_eq_some_iff.mp paths
  have last : [.key "timeouts", .item 2, .key "foo"] ∈ rows.map Prod.fst := by
    rw [same]
    decide
  obtain ⟨row, member, path⟩ := List.mem_map.mp last
  refine ⟨config, rows, row, except_toOption_eq_some.mp parsed, written, member, path, ?_⟩
  rw [path]
  decide

end Config

end ImageRelease
