import ImageRelease.Command.Line

/-! Reading the line of a command. Spaces part words, single quotes take the letters between them as they are, and
outside of them a backslash takes the letter behind it as it is. Read so, a line has the program and the arguments of
its command as its words, so commands with the same line call the same program with the same arguments.
-/
namespace ImageRelease.Command

inductive Quoting where
  | bare
  | quoted
  | escaped
deriving DecidableEq, Repr

abbrev Words := List Char × List (List Char)

def Words.prepend (front : List Char) (words : Words) : Words := (front ++ words.1, words.2)

/-- A space in front: the first word is over before it has begun. -/
def Words.apart (words : Words) : Words := ([], words.1 :: words.2)

/-- Reads the words of a line; none when a quote is left open or nothing is escaped. -/
def readWords? : Quoting → List Char → Option Words
  | .bare, [] => some ([], [])
  | .quoted, [] => none
  | .escaped, [] => none
  | .bare, c :: s =>
    if c = '\'' then readWords? .quoted s
    else if c = '\\' then readWords? .escaped s
    else if c = ' ' then (readWords? .bare s).map Words.apart
    else (readWords? .bare s).map (Words.prepend [c])
  | .quoted, c :: s =>
    if c = '\'' then readWords? .bare s else (readWords? .quoted s).map (Words.prepend [c])
  | .escaped, c :: s => (readWords? .bare s).map (Words.prepend [c])

def words? (line : String) : Option (List String) :=
  (readWords? .bare line.toList).map fun words => (words.1 :: words.2).map String.ofList

variable {a s : List Char} {program : List Char}

@[simp] theorem Words.prepend_nil : prepend [] = id := rfl

theorem map_prepend_map_prepend (front back : List Char) (words : Option Words) :
    (words.map (Words.prepend back)).map (Words.prepend front) = words.map (Words.prepend (front ++ back)) := by
  cases words with
  | none => rfl
  | some words => simp [Words.prepend]

/-- A text that reads as it stands: it has no space, no single quote and no backslash. -/
def Plain (a : List Char) : Prop := ∀ c ∈ a, c ≠ ' ' ∧ c ≠ '\'' ∧ c ≠ '\\'

theorem plain_of_needsQuotes (bare : needsQuotes a = false) : Plain a := by
  rw [needsQuotes, Bool.or_eq_false_iff, List.any_eq_false] at bare
  intro c member
  have harmless := bare.2 c member
  refine ⟨?_, ?_, ?_⟩
  all_goals
    rintro rfl
    exact absurd rfl harmless

theorem readWords?_plain (plain : Plain a) (s : List Char) :
    readWords? .bare (a ++ s) = (readWords? .bare s).map (Words.prepend a) := by
  induction a with
  | nil => simp
  | cons c a ih =>
    obtain ⟨⟨space, quote, backslash⟩, later⟩ := List.forall_mem_cons.mp plain
    rw [List.cons_append, readWords?, if_neg quote, if_neg backslash, if_neg space, ih later, map_prepend_map_prepend]
    rfl

/-- A quoted text is read up to the quote behind it, through every quote inside. -/
theorem readWords?_quoteInside (a s : List Char) :
    readWords? .quoted (quoteInside a ++ '\'' :: s) = (readWords? .bare s).map (Words.prepend a) := by
  induction a with
  | nil => simp [quoteInside, readWords?]
  | cons c a ih =>
    by_cases quote : c = '\''
    · -- The quotes are left, the quote is escaped, and the quotes are entered again.
      subst quote
      have inside : readWords? .quoted (quoteInside ('\'' :: a) ++ '\'' :: s) =
          (readWords? .quoted (quoteInside a ++ '\'' :: s)).map (Words.prepend ['\'']) := rfl
      rw [inside, ih, map_prepend_map_prepend]
      rfl
    · have inside : quoteInside (c :: a) = c :: quoteInside a := if_neg quote
      rw [inside, List.cons_append, readWords?, if_neg quote, ih, map_prepend_map_prepend]
      rfl

theorem readWords?_shownArg (a s : List Char) :
    readWords? .bare (shownArg a ++ s) = (readWords? .bare s).map (Words.prepend a) := by
  rw [shownArg]
  split
  · have entered : readWords? .bare ('\'' :: quoteInside a ++ ['\''] ++ s) =
        readWords? .quoted (quoteInside a ++ '\'' :: s) := by
      rw [List.append_assoc]
      rfl
    rw [entered, readWords?_quoteInside]
  · next unquoted => exact readWords?_plain (plain_of_needsQuotes (by simpa using unquoted)) s

theorem readWords?_args (args : List (List Char)) :
    readWords? .bare (args.flatMap fun a => ' ' :: shownArg a) = some ([], args) := by
  induction args with
  | nil => rfl
  | cons a args ih =>
    have spaced : readWords? .bare (' ' :: (shownArg a ++ args.flatMap fun a => ' ' :: shownArg a)) =
        (readWords? .bare (shownArg a ++ args.flatMap fun a => ' ' :: shownArg a)).map Words.apart := rfl
    rw [List.flatMap_cons, List.cons_append, spaced, readWords?_shownArg, ih]
    simp [Words.prepend, Words.apart]

theorem words?_line {c : Command} (bare : needsQuotes c.program.toList = false) : words? c.line = some c.argv := by
  have read : readWords? .bare (lineChars c.program.toList (c.args.map String.toList)) =
      some (c.program.toList, c.args.map String.toList) := by
    rw [lineChars, readWords?_plain (plain_of_needsQuotes bare), readWords?_args]
    simp [Words.prepend]
  rw [words?, line, String.toList_ofList, read]
  simp [argv]

/-- A line reads as the program and the arguments of its command, whatever the arguments are. So commands with the same
line have the same program and the same arguments. -/
theorem line_unambiguous {c : Command} (bare : needsQuotes c.program.toList = false) :
    words? c.line = some (c.program :: c.args) ∧
      ∀ d : Command, needsQuotes d.program.toList = false → d.line = c.line →
        d.program = c.program ∧ d.args = c.args := by
  refine ⟨words?_line bare, fun d also same => ?_⟩
  have read := words?_line also
  rw [same, words?_line bare] at read
  obtain ⟨program, args⟩ := List.cons.inj (Option.some.inj read)
  exact ⟨program.symm, args.symm⟩

def quotedCommand : Command := Command.of "echo" ["", "it's", "'", "a  b\\\n", "--x=\u00E9"]

theorem line_unambiguous_quoted :
    needsQuotes quotedCommand.program.toList = false ∧
      quotedCommand.line = "echo '' 'it'\\''s' ''\\''' 'a  b\\\n' --x=\u00E9" ∧
      words? quotedCommand.line = some ["echo", "", "it's", "'", "a  b\\\n", "--x=\u00E9"] ∧
      quotedCommand.echoed.patient.line = quotedCommand.line ∧
      quotedCommand.echoed.patient.args = quotedCommand.args := by
  have bare : needsQuotes quotedCommand.program.toList = false := by decide +kernel
  obtain ⟨read, same⟩ := line_unambiguous bare
  exact ⟨bare, by decide +kernel, read, rfl, (same quotedCommand.echoed.patient bare rfl).2⟩

end ImageRelease.Command
