/-!
Dates and times of documents: a date, a time of day, or both with an optional offset. Seconds and
their fraction may be left out.
-/
namespace ImageRelease.Toml.Moment

def digit? (c : Char) : Option Nat := if c.isDigit then some (c.toNat - '0'.toNat) else none

def two (low high : Nat) : List Char → Option (Nat × List Char)
  | a :: b :: s => do
    let n := 10 * (← digit? a) + (← digit? b)
    if low ≤ n && n ≤ high then some (n, s) else none
  | _ => none

def four : List Char → Option (Nat × List Char)
  | a :: b :: c :: d :: s => do
    some (1000 * (← digit? a) + 100 * (← digit? b) + 10 * (← digit? c) + (← digit? d), s)
  | _ => none

def mark (m : Char) : List Char → Option (List Char)
  | c :: s => if c = m then some s else none
  | [] => none

def isLeap (year : Nat) : Bool := year % 4 == 0 && (year % 100 != 0 || year % 400 == 0)

def daysIn (year month : Nat) : Nat :=
  if month = 2 then (if isLeap year then 29 else 28)
  else if month = 4 || month = 6 || month = 9 || month = 11 then 30
  else 31

def afterDate? (s : List Char) : Option (List Char) := do
  let (year, s) ← four s
  let (month, s) ← two 1 12 (← mark '-' s)
  let (_, s) ← two 1 (daysIn year month) (← mark '-' s)
  return s

def afterFraction? : List Char → Option (List Char)
  | '.' :: s => if (s.takeWhile Char.isDigit).isEmpty then none else some (s.dropWhile Char.isDigit)
  | s => some s

def afterSeconds? : List Char → Option (List Char)
  | ':' :: s => do
    let (_, s) ← two 0 60 s
    afterFraction? s
  | s => some s

def afterTime? (s : List Char) : Option (List Char) := do
  let (_, s) ← two 0 23 s
  let (_, s) ← two 0 59 (← mark ':' s)
  afterSeconds? s

/-- Whether the text is an offset from universal time, or empty. -/
def isOffset : List Char → Bool
  | [] => true
  | c :: s =>
    if c == 'Z' || c == 'z' then s.isEmpty
    else if c == '+' || c == '-' then
      ((two 0 23 s).bind fun (_, s) => (mark ':' s).bind fun s => two 0 59 s).any (·.2.isEmpty)
    else false

/-- Whether the text after a date is nothing or a time of day with an optional offset. -/
def isTimePart : List Char → Bool
  | [] => true
  | c :: s => (c == 'T' || c == 't' || c == ' ') && (afterTime? s).any isOffset

def isMoment (s : List Char) : Bool :=
  match afterDate? s with
  | some rest => isTimePart rest
  | none => (afterTime? s).any (·.isEmpty)

end ImageRelease.Toml.Moment
