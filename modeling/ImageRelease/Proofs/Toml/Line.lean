import Mathlib.Data.List.Forall2
import ImageRelease.Proofs.Toml.Number
import ImageRelease.Proofs.Toml.Quote
import ImageRelease.Toml.Document

/-! Documents that are written line by line, with bare keys. A line is given without the places of its parts. Each line
is read up to its line feed, and the lines of a document are read in their order.
-/
namespace ImageRelease.Toml

/-- A value that is written on one line. -/
inductive Scalar where
  | text (value : String)
  | number (value : Nat)

inductive Line where
  | setting (parents : List String) (name : String) (value : Scalar)
  | header (name : String)

structure Bare (name : String) : Prop where
  present : name.toList ≠ []
  letters : ∀ c ∈ name.toList, isBareKeyChar c = true

def dottedKey : List String → String → List Char
  | [], name => name.toList
  | parent :: parents, name => parent.toList ++ '.' :: dottedKey parents name

inductive Scalar.Spelling : Scalar → List Char → Prop where
  | text {value : String} {body : List Char} (spelled : Spells body value.toList) :
      Spelling (.text value) ('"' :: (body ++ ['"']))
  | number (n : Nat) : Spelling (.number n) (Nat.toDigits 10 n)

inductive Line.Spelling : Line → List Char → Prop where
  | setting {parents : List String} {name : String} {value : Scalar} {before after written : List Char}
      (bare : ∀ key ∈ name :: parents, Bare key) (left : ∀ c ∈ before, isSpace c = true)
      (right : ∀ c ∈ after, isSpace c = true) (spelled : value.Spelling written) :
      Spelling (.setting parents name value) (dottedKey parents name ++ (before ++ '=' :: (after ++ written)))
  | header {name : String} (bare : Bare name) : Spelling (.header name) ('[' :: (name.toList ++ [']']))

/-- A node holds this value, wherever it stands. -/
inductive Scalar.HeldBy : Scalar → Node → Prop where
  | text (value : String) (span : Span) : HeldBy (.text value) (.text span value)
  | number (n : Nat) (span : Span) : HeldBy (.number n) (.integer span { base := 10, text := Nat.toDigits 10 n })

inductive Line.HeldBy : Line → Statement → Prop where
  | setting {value : Scalar} {node : Node} (parents : List Key) (key : Key) (held : value.HeldBy node) :
      HeldBy (.setting (parents.map Key.name) key.name value) (.sets ⟨parents, key, node⟩)
  | header (span : Span) (key : Key) : HeldBy (.header key.name) (.opens false span [] key)

def ofLines (texts : List (List Char)) : List Char := texts.flatMap (· ++ ['\n'])

variable {name : String} {parents : List String} {s rest gap text : List Char} {line : Line} {value : Scalar} {c : Char}

/-! ### First characters -/

def Starts (p : Char → Bool) (s : List Char) : Prop := ∃ c more, s = c :: more ∧ p c = true

variable {p : Char → Bool}

theorem Starts.ne (starts : Starts p s) (outside : p c = false) (more : List Char) : s ≠ c :: more := by
  obtain ⟨d, later, rfl, inside⟩ := starts
  intro same
  exact ne_of_outside inside outside (List.cons.inj same).1

theorem Starts.append (starts : Starts p s) (rest : List Char) : Starts p (s ++ rest) := by
  obtain ⟨c, more, rfl, inside⟩ := starts
  exact ⟨c, more ++ rest, rfl, inside⟩

theorem Starts.unspaced (starts : Starts p s) (space : p ' ' = false) (tab : p '\t' = false) :
    s.dropWhile isSpace = s := by
  obtain ⟨c, more, rfl, inside⟩ := starts
  have printed : isSpace c = false := by simp [isSpace, ne_of_outside inside space, ne_of_outside inside tab]
  rw [List.dropWhile_cons, printed]
  rfl

theorem starts_of_forall (present : s ≠ []) (inside : ∀ c ∈ s, p c = true) : Starts p s := by
  obtain ⟨c, more, rfl⟩ := List.exists_cons_of_ne_nil present
  exact ⟨c, more, rfl, inside c List.mem_cons_self⟩

theorem dropWhile_gap (blank : ∀ c ∈ gap, isSpace c = true) (unspaced : s.dropWhile isSpace = s) :
    (gap ++ s).dropWhile isSpace = s := by
  rw [List.dropWhile_append_of_pos blank, unspaced]

/-! ### Keys -/

theorem takeKey_bare (bare : Bare name) (stops : Version.Stops isBareKeyChar rest) :
    ∃ key, key.name = name ∧ takeKey (name.toList ++ rest) = some (key, rest) := by
  obtain ⟨taken, dropped⟩ := Version.run_iff.mpr ⟨bare.letters, stops, rfl⟩
  have starts := (starts_of_forall bare.present bare.letters).append rest
  have read : takeName (name.toList ++ rest) = some (name.toList, rest) := by
    unfold takeName
    split
    · next quoted => exact absurd quoted (starts.ne (by decide) _)
    · next quoted => exact absurd quoted (starts.ne (by decide) _)
    · simp [taken, dropped, bare.present]
  refine ⟨⟨name, ⟨(name.toList ++ rest).length, rest.length⟩⟩, rfl, ?_⟩
  simp [takeKey, read]

theorem starts_dottedKey (bare : ∀ key ∈ name :: parents, Bare key) :
    Starts isBareKeyChar (dottedKey parents name) := by
  cases parents with
  | nil =>
    have first := bare name List.mem_cons_self
    exact starts_of_forall first.present first.letters
  | cons parent parents =>
    have first := bare parent (by simp)
    exact (starts_of_forall first.present first.letters).append _

theorem takePath_dottedKey (bare : ∀ key ∈ name :: parents, Bare key) (stops : Version.Stops isBareKeyChar rest)
    (ends : (rest.dropWhile isSpace).head? ≠ some '.') :
    ∃ keys key, keys.map Key.name = parents ∧ key.name = name ∧
      takePath (dottedKey parents name ++ rest) = some (keys, key, rest) := by
  induction parents with
  | nil =>
    obtain ⟨key, named, taken⟩ := takeKey_bare (bare name List.mem_cons_self) stops
    refine ⟨[], key, rfl, named, ?_⟩
    rw [dottedKey, takePath, taken]
    simp only [Option.bind_eq_bind, Option.bind_some]
    split
    · next dotted => simp [dotted] at ends
    · rfl
  | cons parent parents ih =>
    have bareRest : ∀ key ∈ name :: parents, Bare key := by
      intro key member
      rcases List.mem_cons.mp member with rfl | later
      · exact bare _ List.mem_cons_self
      · exact bare key (by simp [later])
    obtain ⟨keys, key, parentsRead, named, taken⟩ := ih bareRest
    have dot : Version.Stops isBareKeyChar ('.' :: (dottedKey parents name ++ rest)) :=
      Version.stops_cons.mpr (by decide)
    obtain ⟨first, firstNamed, firstTaken⟩ := takeKey_bare (bare parent (by simp)) dot
    refine ⟨first :: keys, key, by simp [firstNamed, parentsRead], named, ?_⟩
    have dotted : ('.' :: (dottedKey parents name ++ rest)).dropWhile isSpace =
        '.' :: (dottedKey parents name ++ rest) := List.dropWhile_cons_of_neg (by decide)
    have unspaced : (dottedKey parents name ++ rest).dropWhile isSpace = dottedKey parents name ++ rest :=
      ((starts_dottedKey bareRest).append rest).unspaced (by decide) (by decide)
    have shorter : (dottedKey parents name ++ rest).length <
        (parent.toList ++ '.' :: (dottedKey parents name ++ rest)).length := by
      simp only [List.length_append, List.length_cons]
      omega
    rw [dottedKey, List.append_assoc, List.cons_append, takePath, firstTaken]
    simp only [Option.bind_eq_bind, Option.bind_some, dotted, unspaced, if_pos shorter, taken]
    rfl

/-! ### Values -/

theorem starts_toDigits (n : Nat) : Starts Char.isDigit (Nat.toDigits 10 n) :=
  starts_of_forall (numeral_toDigits n).present (numeral_toDigits n).decimal

theorem takeValue_spelling {written : List Char} (depth : Nat) (spelled : value.Spelling written) (rest : List Char) :
    ∃ node, value.HeldBy node ∧ takeValue depth (written ++ '\n' :: rest) = some (node, '\n' :: rest) := by
  cases spelled with
  | @text value body spelled =>
    have read := takeText_spelling spelled ('\n' :: rest) (by simp)
    refine ⟨_, .text value ⟨('"' :: (body ++ '"' :: '\n' :: rest)).length, ('\n' :: rest).length⟩, ?_⟩
    rw [List.cons_append, List.append_assoc, List.cons_append, List.nil_append, takeValue]
    simp [read]
  | number n =>
    have numeral := numeral_toDigits n
    have word := takeWord_of_digits numeral.decimal rest
    have starts := (starts_toDigits n).append ('\n' :: rest)
    refine ⟨_, .number n ⟨(Nat.toDigits 10 n ++ '\n' :: rest).length, ('\n' :: rest).length⟩, ?_⟩
    unfold takeValue
    split
    · next quoted => exact absurd quoted (starts.ne (by decide) _)
    · next quoted => exact absurd quoted (starts.ne (by decide) _)
    · next bracket => exact absurd bracket (starts.ne (by decide) _)
    · next brace => exact absurd brace (starts.ne (by decide) _)
    · simp [word, ofWord?_of_numeral numeral]

theorem Scalar.Spelling.unspaced {written : List Char} (spelled : value.Spelling written) (rest : List Char) :
    (written ++ rest).dropWhile isSpace = written ++ rest := by
  cases spelled with
  | text spelled => exact List.dropWhile_cons_of_neg (by decide)
  | number n => exact ((starts_toDigits n).append rest).unspaced (by decide) (by decide)

/-! ### Lines -/

theorem stops_isBareKeyChar (blank : ∀ c ∈ gap, isSpace c = true) (s : List Char) :
    Version.Stops isBareKeyChar (gap ++ '=' :: s) := by
  cases gap with
  | nil => exact Version.stops_cons.mpr (by decide)
  | cons c gap =>
    have space := blank c List.mem_cons_self
    simp only [isSpace, Bool.or_eq_true, beq_iff_eq] at space
    refine Version.stops_cons.mpr ?_
    rcases space with rfl | rfl <;> decide

theorem takeSetting_spelling {written : List Char} {before after : List Char}
    (bare : ∀ key ∈ name :: parents, Bare key) (left : ∀ c ∈ before, isSpace c = true)
    (right : ∀ c ∈ after, isSpace c = true) (spelled : value.Spelling written) (depth : Nat) (rest : List Char) :
    ∃ keys key node, keys.map Key.name = parents ∧ key.name = name ∧ value.HeldBy node ∧
      takeSetting skipSpace (takeValue depth)
        (dottedKey parents name ++ (before ++ '=' :: (after ++ (written ++ '\n' :: rest)))) =
        some (⟨keys, key, node⟩, '\n' :: rest) := by
  obtain ⟨node, held, valueRead⟩ := takeValue_spelling depth spelled rest
  have equals : ('=' :: (after ++ (written ++ '\n' :: rest))).dropWhile isSpace =
      '=' :: (after ++ (written ++ '\n' :: rest)) := List.dropWhile_cons_of_neg (by decide)
  have gapBefore := dropWhile_gap left equals
  have gapAfter := dropWhile_gap right (spelled.unspaced ('\n' :: rest))
  obtain ⟨keys, key, parentsRead, named, path⟩ := takePath_dottedKey bare
    (stops_isBareKeyChar left (after ++ (written ++ '\n' :: rest))) (by rw [gapBefore]; simp)
  refine ⟨keys, key, node, parentsRead, named, held, ?_⟩
  simp only [takeSetting, path, skipSpace, gapBefore, gapAfter, valueRead, Option.bind_eq_bind, Option.bind_some]
  rfl

theorem takeHeader_bare (bare : Bare name) (start rest : List Char) :
    ∃ span key, key.name = name ∧
      takeHeader false start (name.toList ++ ']' :: rest) = some (.opens false span [] key, rest) := by
  have unspaced : (name.toList ++ ']' :: rest).dropWhile isSpace = name.toList ++ ']' :: rest :=
    ((starts_of_forall bare.present bare.letters).append _).unspaced (by decide) (by decide)
  have closed : (']' :: rest).dropWhile isSpace = ']' :: rest := List.dropWhile_cons_of_neg (by decide)
  have stops : Version.Stops isBareKeyChar (']' :: rest) := Version.stops_cons.mpr (by decide)
  have single : ∀ key ∈ [name], Bare key := List.forall_mem_singleton.mpr bare
  obtain ⟨keys, key, top, named, path⟩ := takePath_dottedKey single stops (by rw [closed]; simp)
  obtain rfl := List.map_eq_nil_iff.mp top
  rw [dottedKey] at path
  refine ⟨⟨start.length, rest.length⟩, key, named, ?_⟩
  simp only [takeHeader, unspaced, path, closed, Option.bind_eq_bind, Option.bind_some]
  rfl

theorem takeStatement_spelling (spelled : line.Spelling text) (rest : List Char) :
    ∃ statement, line.HeldBy statement ∧ takeStatement (text ++ '\n' :: rest) = some (statement, '\n' :: rest) := by
  cases spelled with
  | @setting parents name value before after written bare left right spelled =>
    obtain ⟨keys, key, node, rfl, rfl, held, read⟩ := takeSetting_spelling bare left right spelled nestingLimit rest
    refine ⟨_, .setting keys key held, ?_⟩
    have starts := starts_dottedKey bare
    simp only [List.append_assoc, List.cons_append]
    unfold takeStatement
    split
    · next bracket => exact absurd bracket ((starts.append _).ne (by decide) _)
    · next bracket => exact absurd bracket ((starts.append _).ne (by decide) _)
    · rw [read]
      rfl
  | @header name bare =>
    have text : '[' :: (name.toList ++ [']']) ++ '\n' :: rest = '[' :: (name.toList ++ ']' :: '\n' :: rest) := by simp
    obtain ⟨span, key, rfl, read⟩ := takeHeader_bare bare ('[' :: (name.toList ++ ']' :: '\n' :: rest)) ('\n' :: rest)
    have starts := (starts_of_forall bare.present bare.letters).append (']' :: '\n' :: rest)
    refine ⟨_, .header span key, ?_⟩
    rw [text]
    unfold takeStatement
    split
    · next twice => exact absurd (List.cons.inj twice).2 (starts.ne (by decide) _)
    · next once =>
      obtain ⟨-, rfl⟩ := List.cons.inj once
      exact read
    · next unopened => exact absurd rfl (unopened _)

/-! ### Documents -/

def isLineStart (c : Char) : Bool := isBareKeyChar c || c == '['

theorem Line.Spelling.starts (spelled : line.Spelling text) : Starts isLineStart text := by
  cases spelled with
  | setting bare left right spelled =>
    obtain ⟨c, more, split, letter⟩ := starts_dottedKey bare
    exact ⟨c, _, by rw [split, List.cons_append], by rw [isLineStart, letter]; rfl⟩
  | header bare => exact ⟨'[', _, rfl, rfl⟩

theorem skipTrivia_of_starts (starts : Starts isLineStart s) : skipTrivia false s = some s := by
  obtain ⟨c, more, rfl, start⟩ := starts
  have back := ne_of_outside (d := '\r') start (by decide)
  have feed := ne_of_outside (d := '\n') start (by decide)
  have hash := ne_of_outside (d := '#') start (by decide)
  have space := ne_of_outside (d := ' ') start (by decide)
  have tab := ne_of_outside (d := '\t') start (by decide)
  unfold skipTrivia
  split
  · next same => exact absurd (List.cons.inj same).1 back
  · next same =>
    obtain ⟨rfl, rfl⟩ := List.cons.inj same
    simp [isSpace, feed, hash, space, tab]
  · contradiction
  · contradiction

theorem takeStatements_cons {start : List Char} {statement : Statement} {statements : List Statement}
    (skipped : skipTrivia false s = some start) (present : start ≠ [])
    (taken : takeStatement start = some (statement, '\n' :: rest)) (shorter : ('\n' :: rest).length < s.length)
    (later : takeStatements ('\n' :: rest) = some statements) : takeStatements s = some (statement :: statements) := by
  have ends : (atLineEnd ('\n' :: rest) && decide (('\n' :: rest).length < s.length)) = true := by
    simp only [shorter, decide_true, Bool.and_true]
    rfl
  rw [takeStatements, skipped]
  simp only [Option.bind_eq_bind, Option.bind_some, taken, if_pos ends, later]
  rfl

/-- The lines of a document are read in their order. Behind its first line a document goes on with a line feed, so it is
also read with one in front. -/
theorem takeStatements_ofLines {lines : List Line} {texts : List (List Char)}
    (spelled : List.Forall₂ Line.Spelling lines texts) :
    ∃ statements, List.Forall₂ Line.HeldBy lines statements ∧ takeStatements (ofLines texts) = some statements ∧
      takeStatements ('\n' :: ofLines texts) = some statements := by
  induction spelled with
  | nil =>
    refine ⟨[], .nil, ?_, ?_⟩
    · rw [ofLines, takeStatements]; rfl
    · rw [ofLines, takeStatements]; rfl
  | @cons line text lines texts first later ih =>
    obtain ⟨statements, held, -, read⟩ := ih
    obtain ⟨statement, firstHeld, taken⟩ := takeStatement_spelling first (ofLines texts)
    have document : ofLines (text :: texts) = text ++ '\n' :: ofLines texts := by simp [ofLines]
    have skipped := skipTrivia_of_starts (first.starts.append ('\n' :: ofLines texts))
    have present : text ++ '\n' :: ofLines texts ≠ [] := by simp
    have longer : ('\n' :: ofLines texts).length < (text ++ '\n' :: ofLines texts).length := by
      obtain ⟨c, more, split, -⟩ := first.starts
      rw [split, List.length_append, List.length_cons (a := c)]
      omega
    rw [document]
    refine ⟨statement :: statements, .cons firstHeld held, ?_, ?_⟩
    · exact takeStatements_cons skipped present taken longer read
    · exact takeStatements_cons skipped present taken (longer.trans (Nat.lt_succ_self _)) read

theorem read?_ofLines {lines : List Line} {texts : List (List Char)}
    (spelled : List.Forall₂ Line.Spelling lines texts) :
    ∃ statements, List.Forall₂ Line.HeldBy lines statements ∧ read? (ofLines texts) = assemble? statements := by
  obtain ⟨statements, held, taken, -⟩ := takeStatements_ofLines spelled
  have unmarked : dropByteOrderMark (ofLines texts) = ofLines texts := by
    cases spelled with
    | nil => rfl
    | @cons line text _ texts first later =>
      obtain ⟨c, more, split, start⟩ := first.starts
      have plain := ne_of_outside (d := '\uFEFF') start (by decide)
      simp [ofLines, split, dropByteOrderMark, plain]
  refine ⟨statements, held, ?_⟩
  rw [read?, unmarked, taken]
  rfl

end ImageRelease.Toml
