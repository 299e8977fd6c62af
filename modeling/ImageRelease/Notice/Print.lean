import ImageRelease.Notice.Basic

/-!
The text of notices, plain or with terminal colors. A style is set after a reset, and every styled
part is followed by a reset.
-/
namespace ImageRelease

inductive Color where
  | red
  | green
  | yellow
  | blue
  | cyan
deriving DecidableEq, Repr

def Color.code : Color → String
  | .red => "31"
  | .green => "32"
  | .yellow => "33"
  | .blue => "34"
  | .cyan => "36"

structure Style where
  color : Option Color
  bold : Bool
deriving DecidableEq, Repr

def terminalSequence (code : String) : String := "\x1b[" ++ code ++ "m"

def resetSequence : String := terminalSequence "0"

def Style.sequences (s : Style) : String :=
  resetSequence ++ (if s.bold then terminalSequence "1" else "") ++
    (match s.color with
      | some c => terminalSequence c.code
      | none => "")

inductive Palette where
  | plain
  | colored
deriving DecidableEq, Repr

def Palette.write (p : Palette) (sequences : String) : String :=
  match p with
  | .plain => ""
  | .colored => sequences

/-- A marker in its style, then a message in its own if it has one. -/
def Palette.withMarker (p : Palette) (marker : String) (markerStyle : Style)
    (messageStyle : Option Style) (message : String) : String :=
  p.write markerStyle.sequences ++ marker ++ p.write resetSequence ++
    (match messageStyle with
      | some s => p.write s.sequences
      | none => "") ++
    " " ++ message ++ "\n" ++ p.write resetSequence

namespace Notice

def print (p : Palette) : Notice → String
  | command line => p.withMarker "$" ⟨some .cyan, true⟩ (some ⟨none, true⟩) line
  | success message => p.withMarker "✓" ⟨some .green, true⟩ none message
  | warning message =>
    p.withMarker "⚠" ⟨some .yellow, true⟩ (some ⟨some .yellow, false⟩) message
  | error message => p.withMarker "✗" ⟨some .red, true⟩ (some ⟨some .red, false⟩) message
  | detail message => p.withMarker "→" ⟨some .blue, false⟩ none message
  | section_ title =>
    "\n" ++ p.write (Style.sequences ⟨some .cyan, true⟩) ++ "═══ " ++ title ++ " ═══\n" ++
      p.write resetSequence
  | item message => "    " ++ message ++ "\n"

end Notice

def printOut (p : Palette) (v : Verbosity) (notices : List Notice) : String :=
  String.join ((notices.filter fun n => v.shows n && !n.isError).map (Notice.print p))

def printErr (p : Palette) (v : Verbosity) (notices : List Notice) : String :=
  String.join ((notices.filter fun n => v.shows n && n.isError).map (Notice.print p))

end ImageRelease
