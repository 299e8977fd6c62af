import ImageRelease.Toml.Document

/-! What a reader leaves is the end of the text that it was given. So a value is read from the text that its span begins
with, wherever it stands in a document.
-/
namespace ImageRelease.Toml

/-- A node that a value stands for: tables that dotted keys or headers make are none. -/
def Node.IsValue : Node → Prop
  | .tables _ _ => False
  | .table _ origin _ => origin = .inline
  | _ => True

def Node.IsScalar : Node → Prop
  | .array _ _ | .tables _ _ | .table _ _ _ => False
  | _ => True

def Shortens (value : List Char → Option (Node × List Char)) : Prop :=
  ∀ ⦃s node rest⦄, value s = some (node, rest) → rest <:+ s

def ReadIn (value : List Char → Option (Node × List Char)) (s : List Char) (node : Node) : Prop :=
  ∃ start rest, start <:+ s ∧ value start = some (node, rest)

inductive Reads : Nat → List Char → Node → List Char → Prop where
  | text {depth : Nat} {s content rest : List Char} (read : takeText s = some (content, rest)) :
      Reads depth s (.text ⟨s.length, rest.length⟩ (String.ofList content)) rest
  | array {depth : Nat} {s rest : List Char} {items : List Node}
      (read : takeItems (takeValue depth) s = some (items, rest)) :
      Reads (depth + 1) ('[' :: s) (.array ⟨s.length + 1, rest.length⟩ items) rest
  | table {depth : Nat} {s rest : List Char} {settings : List Setting} {entries : Entries}
      (read : takeSettings (takeValue depth) s = some (settings, rest))
      (set : Entries.setAll? settings [] = some entries) :
      Reads (depth + 1) ('\x7b' :: s) (.table ⟨s.length + 1, rest.length⟩ .inline entries) rest
  | word {depth : Nat} {s word rest : List Char} {node : Node} (read : takeWord s = (word, rest))
      (meant : ofWord? ⟨s.length, rest.length⟩ word = some node) : Reads depth s node rest

variable {s t start rest content : List Char} {node : Node} {c? : Option Char}

/-! ### Texts -/

theorem suffix_of_end {α : Type} {a b : α} (read : some (a, s) = some (b, rest)) : rest <:+ s := by
  obtain ⟨-, rfl⟩ := Prod.mk.inj (Option.some.inj read)
  exact List.suffix_rfl

theorem suffix_of_addChar {more : Option (List Char × List Char)} (read : addChar c? more = some (content, rest))
    (later : ∀ {content}, more = some (content, rest) → rest <:+ s) : rest <:+ s := by
  unfold addChar at read
  split at read
  · obtain ⟨-, rfl⟩ := Prod.mk.inj (Option.some.inj read)
    exact later rfl
  · contradiction

theorem suffix_of_basicBody (read : basicBody s = some (content, rest)) : rest <:+ s := by
  fun_induction basicBody s generalizing content with
  | case1 s => exact (suffix_of_end read).trans (List.suffix_cons _ s)
  | case2 a b s ih => exact (suffix_of_addChar read ih).trans (List.suffix_append ['\\', 'x', a, b] s)
  | case3 a b c d s ih => exact (suffix_of_addChar read ih).trans (List.suffix_append ['\\', 'u', a, b, c, d] s)
  | case4 a b c d e f g h s ih =>
    exact (suffix_of_addChar read ih).trans (List.suffix_append ['\\', 'U', a, b, c, d, e, f, g, h] s)
  | case5 c s _ _ _ ih => exact (suffix_of_addChar read ih).trans (List.suffix_append ['\\', c] s)
  | case7 c s _ _ _ _ _ _ ih => exact (suffix_of_addChar read ih).trans (List.suffix_cons c s)
  | case6 => contradiction
  | case8 => contradiction

theorem suffix_of_literalBody (read : literalBody s = some (content, rest)) : rest <:+ s := by
  fun_induction literalBody s generalizing content with
  | case1 s => exact (suffix_of_end read).trans (List.suffix_cons _ s)
  | case3 c s _ _ ih => exact (suffix_of_addChar read ih).trans (List.suffix_cons c s)
  | case2 => contradiction
  | case4 => contradiction

theorem dropLineEnd_suffix (s : List Char) : dropLineEnd s <:+ s := by
  unfold dropLineEnd
  split
  · exact List.suffix_cons _ _
  · exact List.suffix_append ['\r', '\n'] _
  · exact List.suffix_rfl

theorem dropFold_suffix (s : List Char) : dropFold s <:+ s := by
  fun_induction dropFold s with
  | case1 s ih => exact ih.trans (List.suffix_append ['\r', '\n'] s)
  | case2 c s _ _ ih => exact ih.trans (List.suffix_cons c s)
  | case3 => exact List.suffix_rfl
  | case4 => exact List.suffix_rfl

theorem suffix_of_literalLines (read : literalLines s = some (content, rest)) : rest <:+ s := by
  fun_induction literalLines s generalizing content with
  | case1 s => exact (suffix_of_end read).trans (List.suffix_append ['\'', '\'', '\'', '\'', '\''] s)
  | case2 s => exact (suffix_of_end read).trans (List.suffix_append ['\'', '\'', '\'', '\''] s)
  | case3 s => exact (suffix_of_end read).trans (List.suffix_append ['\'', '\'', '\''] s)
  | case4 s ih =>
    exact (suffix_of_addChar read fun read => suffix_of_addChar read ih).trans (List.suffix_append ['\r', '\n'] s)
  | case6 c s _ _ _ _ _ ih => exact (suffix_of_addChar read ih).trans (List.suffix_cons c s)
  | case5 => contradiction
  | case7 => contradiction

theorem suffix_of_basicLines (read : basicLines s = some (content, rest)) : rest <:+ s := by
  fun_induction basicLines s generalizing content with
  | case1 s => exact (suffix_of_end read).trans (List.suffix_append ['"', '"', '"', '"', '"'] s)
  | case2 s => exact (suffix_of_end read).trans (List.suffix_append ['"', '"', '"', '"'] s)
  | case3 s => exact (suffix_of_end read).trans (List.suffix_append ['"', '"', '"'] s)
  | case4 a b s ih => exact (suffix_of_addChar read ih).trans (List.suffix_append ['\\', 'x', a, b] s)
  | case5 a b c d s ih => exact (suffix_of_addChar read ih).trans (List.suffix_append ['\\', 'u', a, b, c, d] s)
  | case6 a b c d e f g h s ih =>
    exact (suffix_of_addChar read ih).trans (List.suffix_append ['\\', 'U', a, b, c, d, e, f, g, h] s)
  | case7 c s _ _ _ _ ih => exact ((ih read).trans (dropFold_suffix (c :: s))).trans (List.suffix_cons '\\' (c :: s))
  | case8 c s _ _ _ _ ih => exact (suffix_of_addChar read ih).trans (List.suffix_append ['\\', c] s)
  | case9 s ih =>
    exact (suffix_of_addChar read fun read => suffix_of_addChar read ih).trans (List.suffix_append ['\r', '\n'] s)
  | case11 c s _ _ _ _ _ _ _ _ _ ih => exact (suffix_of_addChar read ih).trans (List.suffix_cons c s)
  | case10 => contradiction
  | case12 => contradiction

theorem suffix_of_takeText (read : takeText s = some (content, rest)) : rest <:+ s := by
  unfold takeText at read
  split at read
  · next s =>
    exact ((suffix_of_basicLines read).trans (dropLineEnd_suffix s)).trans (List.suffix_append ['"', '"', '"'] s)
  · next s _ => exact (suffix_of_basicBody read).trans (List.suffix_cons '"' s)
  · next s =>
    exact ((suffix_of_literalLines read).trans (dropLineEnd_suffix s)).trans (List.suffix_append ['\'', '\'', '\''] s)
  · next s _ => exact (suffix_of_literalBody read).trans (List.suffix_cons '\'' s)
  · contradiction

/-! ### Gaps, keys and words -/

theorem suffix_of_skipTrivia {comment : Bool} (skipped : skipTrivia comment s = some rest) : rest <:+ s := by
  fun_induction skipTrivia comment s with
  | case1 _ s ih => exact (ih skipped).trans (List.suffix_append ['\r', '\n'] s)
  | case2 c s _ _ ih => exact (ih skipped).trans (List.suffix_cons c s)
  | case3 c s _ _ _ ih => exact (ih skipped).trans (List.suffix_cons c s)
  | case5 c s _ _ ih => exact (ih skipped).trans (List.suffix_cons c s)
  | case7 c s _ _ _ ih => exact (ih skipped).trans (List.suffix_cons c s)
  | case4 =>
    obtain rfl := Option.some.inj skipped
    exact List.suffix_rfl
  | case6 => contradiction
  | case8 =>
    obtain rfl := Option.some.inj skipped
    exact List.suffix_rfl

theorem suffix_of_takeName (read : takeName s = some (content, rest)) : rest <:+ s := by
  unfold takeName at read
  split at read
  · next s => exact (suffix_of_basicBody read).trans (List.suffix_cons '"' s)
  · next s => exact (suffix_of_literalBody read).trans (List.suffix_cons '\'' s)
  · dsimp only at read
    split at read
    · contradiction
    · exact (suffix_of_end read).trans (List.dropWhile_suffix _)

theorem suffix_of_takeKey {key : Key} (read : takeKey s = some (key, rest)) : rest <:+ s := by
  obtain ⟨⟨name, behind⟩, named, read⟩ := Option.bind_eq_some_iff.mp read
  exact (suffix_of_end read).trans (suffix_of_takeName named)

theorem suffix_of_takePath {parents : List Key} {key : Key} (read : takePath s = some (parents, key, rest)) :
    rest <:+ s := by
  fun_induction takePath s generalizing parents key with
  | case1 s ih =>
    obtain ⟨⟨first, behind⟩, named, read⟩ := Option.bind_eq_some_iff.mp read
    have front := suffix_of_takeKey named
    dsimp only at read
    split at read
    · next more dotted =>
      have dot : '.' :: more <:+ behind := dotted ▸ List.dropWhile_suffix _
      split at read
      · next shorter =>
        obtain ⟨⟨others, last, left⟩, later, read⟩ := Option.bind_eq_some_iff.mp read
        simp only [Option.pure_def, Option.some.injEq, Prod.mk.injEq] at read
        obtain ⟨-, -, rfl⟩ := read
        have behindDot : left <:+ '.' :: more :=
          ((ih more shorter later).trans (List.dropWhile_suffix _)).trans (List.suffix_cons _ _)
        exact behindDot.trans (dot.trans front)
      · contradiction
    · simp only [Option.pure_def, Option.some.injEq, Prod.mk.injEq] at read
      obtain ⟨-, -, rfl⟩ := read
      exact front

theorem takeWord_suffix (s : List Char) : (takeWord s).2 <:+ s := by
  fun_induction takeWord s with
  | case1 => exact List.suffix_rfl
  | case2 c s _ word rest taken ih =>
    rw [taken] at ih
    exact ih.trans (List.suffix_cons c s)
  | case3 => exact List.suffix_rfl

/-! ### Values -/

variable {value : List Char → Option (Node × List Char)} {depth : Nat}

theorem ReadIn.mono (read : ReadIn value s node) (part : s <:+ t) : ReadIn value t node := by
  obtain ⟨start, rest, front, taken⟩ := read
  exact ⟨start, rest, front.trans part, taken⟩

theorem readIn_of_takeItems (shortens : Shortens value) {items : List Node}
    (read : takeItems value s = some (items, rest)) : rest <:+ s ∧ ∀ item ∈ items, ReadIn value s item := by
  fun_induction takeItems value s generalizing items with
  | case1 s ih =>
    obtain ⟨front, skipped, read⟩ := Option.bind_eq_some_iff.mp read
    have whole := suffix_of_skipTrivia skipped
    split at read
    · next behind =>
      obtain ⟨rfl, rfl⟩ := Prod.mk.inj (Option.some.inj read)
      exact ⟨(List.suffix_cons _ _).trans whole, by simp⟩
    · obtain ⟨⟨item, behind⟩, taken, read⟩ := Option.bind_eq_some_iff.mp read
      obtain ⟨mark, skipped, read⟩ := Option.bind_eq_some_iff.mp read
      have here : ReadIn value s item := ⟨front, behind, whole, taken⟩
      have marked : mark <:+ s := ((suffix_of_skipTrivia skipped).trans (shortens taken)).trans whole
      split at read
      · next last =>
        obtain ⟨rfl, rfl⟩ := Prod.mk.inj (Option.some.inj read)
        exact ⟨(List.suffix_cons _ _).trans marked, List.forall_mem_singleton.mpr here⟩
      · next more =>
        split at read
        · next shorter =>
          obtain ⟨⟨others, left⟩, later, read⟩ := Option.bind_eq_some_iff.mp read
          obtain ⟨rfl, rfl⟩ := Prod.mk.inj (Option.some.inj read)
          obtain ⟨suffix, each⟩ := ih more shorter later
          have part : more <:+ s := (List.suffix_cons _ _).trans marked
          exact ⟨suffix.trans part,
            List.forall_mem_cons.mpr ⟨here, fun other member => (each other member).mono part⟩⟩
        · contradiction
      · contradiction

theorem readIn_of_takeSetting {skip : List Char → Option (List Char)}
    (skips : ∀ ⦃s rest⦄, skip s = some rest → rest <:+ s) (shortens : Shortens value) {setting : Setting}
    (read : takeSetting skip value s = some (setting, rest)) : rest <:+ s ∧ ReadIn value s setting.value := by
  obtain ⟨⟨parents, key, behind⟩, path, read⟩ := Option.bind_eq_some_iff.mp read
  obtain ⟨mark, skipped, read⟩ := Option.bind_eq_some_iff.mp read
  have marked : mark <:+ s := (skips skipped).trans (suffix_of_takePath path)
  split at read
  · next more =>
    obtain ⟨start, skipped, read⟩ := Option.bind_eq_some_iff.mp read
    obtain ⟨⟨node, left⟩, taken, read⟩ := Option.bind_eq_some_iff.mp read
    obtain ⟨rfl, rfl⟩ := Prod.mk.inj (Option.some.inj read)
    have part : start <:+ s := ((skips skipped).trans (List.suffix_cons _ _)).trans marked
    exact ⟨(shortens taken).trans part, start, left, part, taken⟩
  · contradiction

theorem readIn_of_takeSettings (shortens : Shortens value) {settings : List Setting}
    (read : takeSettings value s = some (settings, rest)) :
    rest <:+ s ∧ ∀ setting ∈ settings, ReadIn value s setting.value := by
  fun_induction takeSettings value s generalizing settings with
  | case1 s ih =>
    obtain ⟨front, skipped, read⟩ := Option.bind_eq_some_iff.mp read
    have whole := suffix_of_skipTrivia skipped
    split at read
    · next behind =>
      obtain ⟨rfl, rfl⟩ := Prod.mk.inj (Option.some.inj read)
      exact ⟨(List.suffix_cons _ _).trans whole, by simp⟩
    · obtain ⟨⟨setting, behind⟩, taken, read⟩ := Option.bind_eq_some_iff.mp read
      obtain ⟨mark, skipped, read⟩ := Option.bind_eq_some_iff.mp read
      obtain ⟨shorter, inside⟩ := readIn_of_takeSetting (fun _ _ => suffix_of_skipTrivia) shortens taken
      have here := inside.mono whole
      have marked : mark <:+ s := ((suffix_of_skipTrivia skipped).trans shorter).trans whole
      split at read
      · next last =>
        obtain ⟨rfl, rfl⟩ := Prod.mk.inj (Option.some.inj read)
        exact ⟨(List.suffix_cons _ _).trans marked, List.forall_mem_singleton.mpr here⟩
      · next more =>
        split at read
        · next shorter =>
          obtain ⟨⟨others, left⟩, later, read⟩ := Option.bind_eq_some_iff.mp read
          obtain ⟨rfl, rfl⟩ := Prod.mk.inj (Option.some.inj read)
          obtain ⟨suffix, each⟩ := ih more shorter later
          have part : more <:+ s := (List.suffix_cons _ _).trans marked
          exact ⟨suffix.trans part,
            List.forall_mem_cons.mpr ⟨here, fun other member => (each other member).mono part⟩⟩
        · contradiction
      · contradiction

theorem Node.IsScalar.isValue (scalar : node.IsScalar) : node.IsValue := by
  cases node <;> trivial

theorem isScalar_of_ofWord? {span : Span} {word : List Char} (meant : ofWord? span word = some node) :
    node.span = span ∧ node.IsScalar := by
  unfold ofWord? at meant
  split at meant
  · obtain rfl := Option.some.inj meant
    exact ⟨rfl, trivial⟩
  split at meant
  · obtain rfl := Option.some.inj meant
    exact ⟨rfl, trivial⟩
  split at meant
  · obtain rfl := Option.some.inj meant
    exact ⟨rfl, trivial⟩
  split at meant
  · obtain rfl := Option.some.inj meant
    exact ⟨rfl, trivial⟩
  · obtain ⟨number, -, rfl⟩ := Option.map_eq_some_iff.mp meant
    exact ⟨rfl, trivial⟩

theorem reads_of_takeValue (taken : takeValue depth s = some (node, rest)) : Reads depth s node rest := by
  have quoted {s : List Char} (taken : (takeText s >>= fun read =>
      pure (Node.text ⟨s.length, read.2.length⟩ (String.ofList read.1), read.2)) = some (node, rest)) :
      Reads depth s node rest := by
    obtain ⟨⟨content, left⟩, read, same⟩ := Option.bind_eq_some_iff.mp taken
    obtain ⟨rfl, rfl⟩ := Prod.mk.inj (Option.some.inj same)
    exact .text read
  unfold takeValue at taken
  split at taken
  · exact quoted taken
  · exact quoted taken
  · next inner =>
    cases depth with
    | zero => contradiction
    | succ depth =>
      obtain ⟨⟨items, left⟩, read, same⟩ := Option.bind_eq_some_iff.mp taken
      obtain ⟨rfl, rfl⟩ := Prod.mk.inj (Option.some.inj same)
      exact .array read
  · next inner =>
    cases depth with
    | zero => contradiction
    | succ depth =>
      obtain ⟨⟨settings, left⟩, read, taken⟩ := Option.bind_eq_some_iff.mp taken
      obtain ⟨entries, set, same⟩ := Option.bind_eq_some_iff.mp taken
      obtain ⟨rfl, rfl⟩ := Prod.mk.inj (Option.some.inj same)
      exact .table read set
  · obtain ⟨found, meant, same⟩ := Option.bind_eq_some_iff.mp taken
    obtain ⟨rfl, rfl⟩ := Prod.mk.inj (Option.some.inj same)
    exact .word rfl meant

theorem Reads.isValue (reads : Reads depth s node rest) : node.IsValue := by
  cases reads with
  | text => trivial
  | array => trivial
  | table => rfl
  | word _ meant => exact (isScalar_of_ofWord? meant).2.isValue

theorem Reads.span_eq (reads : Reads depth s node rest) : node.span = ⟨s.length, rest.length⟩ := by
  cases reads with
  | text => rfl
  | array => rfl
  | table => rfl
  | word _ meant => exact (isScalar_of_ofWord? meant).1

theorem shortens_takeValue (depth : Nat) : Shortens (takeValue depth) := by
  induction depth using Nat.strongRecOn with
  | ind depth ih =>
    intro s node rest taken
    cases reads_of_takeValue taken with
    | text read => exact suffix_of_takeText read
    | @array depth _ _ _ read =>
      exact (readIn_of_takeItems (ih depth (Nat.lt_succ_self _)) read).1.trans (List.suffix_cons _ _)
    | @table depth _ _ _ _ read _ =>
      exact (readIn_of_takeSettings (ih depth (Nat.lt_succ_self _)) read).1.trans (List.suffix_cons _ _)
    | word read _ =>
      have left := takeWord_suffix s
      rw [read] at left
      exact left

/-! ### Documents -/

/-- The text of a document from the beginning of a span on. -/
def textAt (text : List Char) (span : Span) : List Char := text.drop (text.length - span.before)

/-- A value that is read somewhere in a text is read once more where its span begins. -/
theorem ReadIn.again {text : List Char} (read : ReadIn (takeValue depth) text node) :
    ∃ rest, Reads depth (textAt text node.span) node rest := by
  obtain ⟨start, rest, part, taken⟩ := read
  have reads := reads_of_takeValue taken
  have same : textAt text node.span = start := by
    rw [textAt, reads.span_eq]
    exact (List.suffix_iff_eq_drop.mp part).symm
  exact ⟨rest, same.symm ▸ reads⟩

theorem ReadIn.isValue (read : ReadIn (takeValue depth) s node) : node.IsValue := by
  obtain ⟨start, rest, -, taken⟩ := read
  exact (reads_of_takeValue taken).isValue

theorem suffix_of_takeHeader {double : Bool} {inner : List Char} {statement : Statement}
    (taken : takeHeader double start inner = some (statement, rest)) :
    rest <:+ inner ∧ ∀ setting, statement ≠ .sets setting := by
  obtain ⟨⟨parents, key, behind⟩, path, taken⟩ := Option.bind_eq_some_iff.mp taken
  have front : behind <:+ inner := (suffix_of_takePath path).trans (List.dropWhile_suffix _)
  have closing {mark : List Char} (marked : behind.dropWhile isSpace = mark) : mark <:+ inner :=
    (marked ▸ List.dropWhile_suffix _ : mark <:+ behind).trans front
  dsimp only at taken
  split at taken
  · next left marked _ =>
    obtain ⟨rfl, rfl⟩ := Prod.mk.inj (Option.some.inj taken)
    exact ⟨(List.suffix_cons ']' left).trans (closing marked), fun setting => Statement.noConfusion⟩
  · next left marked _ =>
    obtain ⟨rfl, rfl⟩ := Prod.mk.inj (Option.some.inj taken)
    exact ⟨(List.suffix_append [']', ']'] left).trans (closing marked), fun setting => Statement.noConfusion⟩
  · contradiction

theorem readIn_of_takeStatement {statement : Statement} (taken : takeStatement s = some (statement, rest)) :
    rest <:+ s ∧ ∀ setting, statement = .sets setting → ReadIn (takeValue nestingLimit) s setting.value := by
  unfold takeStatement at taken
  split at taken
  · next inner =>
    obtain ⟨part, other⟩ := suffix_of_takeHeader taken
    exact ⟨part.trans (List.suffix_append ['[', '['] inner), fun setting same => absurd same (other setting)⟩
  · next inner _ =>
    obtain ⟨part, other⟩ := suffix_of_takeHeader taken
    exact ⟨part.trans (List.suffix_cons '[' inner), fun setting same => absurd same (other setting)⟩
  · obtain ⟨⟨setting, left⟩, read, same⟩ := Option.bind_eq_some_iff.mp taken
    obtain ⟨rfl, rfl⟩ := Prod.mk.inj (Option.some.inj same)
    have skips : ∀ ⦃s rest⦄, skipSpace s = some rest → rest <:+ s := fun s rest skipped =>
      Option.some.inj skipped ▸ List.dropWhile_suffix _
    obtain ⟨part, inside⟩ := readIn_of_takeSetting skips (shortens_takeValue nestingLimit) read
    refine ⟨part, fun other same => ?_⟩
    obtain rfl := Statement.sets.inj same
    exact inside

theorem readIn_of_takeStatements {statements : List Statement} {setting : Setting}
    (taken : takeStatements s = some statements) (member : .sets setting ∈ statements) :
    ReadIn (takeValue nestingLimit) s setting.value := by
  fun_induction takeStatements s generalizing statements with
  | case1 s ih =>
    obtain ⟨front, skipped, taken⟩ := Option.bind_eq_some_iff.mp taken
    have whole := suffix_of_skipTrivia skipped
    split at taken
    · obtain rfl := Option.some.inj taken
      contradiction
    · obtain ⟨⟨statement, left⟩, read, taken⟩ := Option.bind_eq_some_iff.mp taken
      obtain ⟨part, inside⟩ := readIn_of_takeStatement read
      dsimp only at taken
      split at taken
      · next goesOn =>
        obtain ⟨others, later, same⟩ := Option.bind_eq_some_iff.mp taken
        obtain rfl := Option.some.inj same
        rcases List.mem_cons.mp member with rfl | behind
        · exact (inside setting rfl).mono whole
        · exact (ih left goesOn later behind).mono (part.trans whole)
      · contradiction

end ImageRelease.Toml
