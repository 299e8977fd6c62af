import ImageRelease.Proofs.Toml.Outline

/-! All that is written in a document: its definitions, and those inside of its values. -/
namespace ImageRelease.Toml

def withInside (inside : Node → List Row) (row : Row) : List Row :=
  row :: row.2.elim [] fun node => below row.1 (inside node)

/-- The definitions inside of a value. The settings of a table in braces are read once more where the table stands,
since the table only has what they make together. -/
def inside (text : List Char) : (depth : Nat) → Node → List Row
  | depth + 1, .array _ items =>
    items.zipIdx.flatMap fun item => below [.item item.2] (inside text depth item.1)
  | depth + 1, .table span .inline _ =>
    match takeSettings (takeValue depth) (textAt text span).tail with
    | some (settings, _) => (settings.map Setting.stated).flatMap (withInside (inside text depth))
    | none => []
  | _, _ => []

/-- All definitions that are written in a document; none when its lines are malformed. -/
def written? (document : List Char) : Option (List Row) :=
  let text := dropByteOrderMark document
  (takeStatements text).map fun statements => (stated [] statements).flatMap (withInside (inside text nestingLimit))

variable {text document : List Char} {depth : Nat} {span : Span} {node : Node} {entries : Entries} {row : Row}

/-- The rows inside of a table in braces are those of the settings that its entries are made of. -/
theorem inside_table (read : ReadIn (takeValue (depth + 1)) text (.table span .inline entries)) :
    entries.Tidy ∧ (inside text (depth + 1) (.table span .inline entries)).Perm
      ((Entries.outline entries).flatMap (withInside (inside text depth))) := by
  obtain ⟨rest, reads : Reads (depth + 1) (textAt text span) _ rest⟩ := read.again
  -- The table was read from where its span begins, so its settings are found there again.
  generalize begins : textAt text span = s at reads
  cases reads with
  | table taken set =>
    obtain ⟨-, within⟩ := readIn_of_takeSettings (shortens_takeValue depth) taken
    have grows := Grows.of_setAll tidy_nil (fun s member => (within s member).isValue) set
    rw [inside, begins, List.tail_cons, taken]
    exact ⟨grows.tidy, (grows.outline.flatMap_right _).symm⟩
  | word _ meant => exact (isScalar_of_ofWord? meant).2.elim

theorem value_of_stated {front : List Step} {statements : List Statement} (member : row ∈ stated front statements)
    (value : row.2 = some node) : ∃ s, .sets s ∈ statements ∧ s.value = node := by
  induction statements generalizing front with
  | nil => contradiction
  | cons statement statements ih =>
    cases statement with
    | sets setting =>
      rcases List.mem_append.mp member with here | later
      · obtain ⟨stated, only, rfl⟩ := List.mem_map.mp here
        obtain rfl := List.mem_singleton.mp only
        exact ⟨setting, List.mem_cons_self, Option.some.inj value⟩
      · obtain ⟨s, setsLater, same⟩ := ih later
        exact ⟨s, List.mem_cons_of_mem _ setsLater, same⟩
    | opens double span parents key =>
      rcases List.mem_cons.mp member with rfl | later
      · contradiction
      · obtain ⟨s, setsLater, same⟩ := ih later
        exact ⟨s, List.mem_cons_of_mem _ setsLater, same⟩

theorem written?_of_read? (read : read? document = some entries) :
    ∃ rows, written? document = some rows ∧ entries.Tidy ∧
      rows.Perm ((Entries.outline entries).flatMap (withInside (inside (dropByteOrderMark document) nestingLimit))) ∧
      ∀ row ∈ Entries.outline entries, ∀ node, row.2 = some node →
        ReadIn (takeValue nestingLimit) (dropByteOrderMark document) node := by
  obtain ⟨statements, taken, assembled⟩ := Option.bind_eq_some_iff.mp read
  obtain ⟨tidy, outline⟩ :=
    assemble?_outline (fun s member => (readIn_of_takeStatements taken member).isValue) assembled
  refine ⟨_, Option.map_eq_some_iff.mpr ⟨statements, taken, rfl⟩, tidy, (outline.flatMap_right _).symm, ?_⟩
  intro row member node value
  obtain ⟨s, sets, rfl⟩ := value_of_stated (outline.mem_iff.mp member) value
  exact readIn_of_takeStatements taken sets

end ImageRelease.Toml
