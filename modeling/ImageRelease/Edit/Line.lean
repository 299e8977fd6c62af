/-!
Texts as lines. A line ends in a line feed, with or without a carriage return before it; the last one
may end without either. Joining the lines of a text gives the text back.
-/
namespace ImageRelease.Edit

inductive Ending where
  | open_
  | lineFeed
  | carriageReturn
deriving DecidableEq, Repr

def Ending.chars : Ending → List Char
  | .open_ => []
  | .lineFeed => ['\n']
  | .carriageReturn => ['\r', '\n']

structure Line where
  text : List Char
  ending : Ending
deriving DecidableEq, Repr

def Line.chars (l : Line) : List Char := l.text ++ l.ending.chars

def addChar (c : Char) : List Line → List Line
  | [] => [⟨[c], .open_⟩]
  | line :: more => ⟨c :: line.text, line.ending⟩ :: more

def lines : List Char → List Line
  | [] => []
  | '\n' :: s => ⟨[], .lineFeed⟩ :: lines s
  | '\r' :: '\n' :: s => ⟨[], .carriageReturn⟩ :: lines s
  | c :: s => addChar c (lines s)

def join (ls : List Line) : List Char := ls.flatMap Line.chars

theorem join_addChar (c : Char) (ls : List Line) : join (addChar c ls) = c :: join ls := by
  cases ls <;> simp [addChar, join, Line.chars, Ending.chars]

@[simp] theorem join_lines (s : List Char) : join (lines s) = s := by
  fun_induction lines s with
  | case1 => rfl
  | case2 s ih => simpa [join, Line.chars, Ending.chars] using ih
  | case3 s ih => simpa [join, Line.chars, Ending.chars] using ih
  | case4 c s _ _ ih => rw [join_addChar, ih]

end ImageRelease.Edit
