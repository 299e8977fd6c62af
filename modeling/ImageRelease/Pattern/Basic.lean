import ImageRelease.Text.Blank

/-!
Patterns over lines: a sequence of pieces, each matching one character, a run of characters of one
class, or a position. Runs are as long as the rest of the pattern allows.
-/
namespace ImageRelease

inductive CharClass where
  | literal (c : Char)
  | any
  | blank
deriving DecidableEq, Repr

/-- Anything but a line feed counts as any character. -/
def CharClass.contains : CharClass → Char → Bool
  | .literal d, c => c == d
  | .any, c => c != '\n'
  | .blank, c => Text.isBlank c

inductive Piece where
  /-- Matches without taking anything. -/
  | nothing
  | start
  | finish
  | once (class_ : CharClass)
  /-- A run, which may be empty. -/
  | many (class_ : CharClass)
  | some (class_ : CharClass)
deriving DecidableEq, Repr

abbrev Pattern := List Piece

namespace Pattern

def literal (s : List Char) : Pattern := s.map fun c => .once (.literal c)

/-- What is left after a run at the front and a continuation; the longest run that lets the
continuation succeed is taken. The flag says whether nothing was taken before. -/
def runThen (class_ : CharClass) (next : Bool → List Char → Option (List Char)) (atStart : Bool) :
    List Char → Option (List Char)
  | [] => next atStart []
  | c :: s =>
    if class_.contains c then
      match runThen class_ next false s with
      | .some rest => .some rest
      | .none => next atStart (c :: s)
    else next atStart (c :: s)

def oneThen (class_ : CharClass) (next : Bool → List Char → Option (List Char)) :
    List Char → Option (List Char)
  | [] => none
  | c :: s => if class_.contains c then next false s else none

/-- What is left of a text after the match at its front, if there is one. -/
def matchFront : Pattern → (atStart : Bool) → List Char → Option (List Char)
  | [], _, s => some s
  | .nothing :: p, atStart, s => matchFront p atStart s
  | .start :: p, atStart, s => if atStart then matchFront p atStart s else none
  | .finish :: p, atStart, s => if s.isEmpty then matchFront p atStart s else none
  | .once class_ :: p, _, s => oneThen class_ (matchFront p) s
  | .many class_ :: p, atStart, s => runThen class_ (matchFront p) atStart s
  | .some class_ :: p, _, s => oneThen class_ (runThen class_ (matchFront p)) s

/-- Replaces the matches in a text from left to right. A match that takes nothing counts unless it
directly follows another match. -/
def replaceFrom (p : Pattern) (replacement : List Char) (atStart afterMatch : Bool)
    (s : List Char) : List Char :=
  match p.matchFront atStart s with
  | some rest =>
    if rest.length < s.length then replacement ++ replaceFrom p replacement false true rest
    else
      let inserted := if afterMatch then [] else replacement
      match s with
      | [] => inserted
      | c :: s => inserted ++ c :: replaceFrom p replacement false false s
  | none =>
    match s with
    | [] => []
    | c :: s => c :: replaceFrom p replacement false false s
termination_by s.length

def replaceAll (p : Pattern) (replacement s : List Char) : List Char :=
  p.replaceFrom replacement true false s

end Pattern

end ImageRelease
