/-!
Backslash escapes in the arguments of programs that print text. An escape stands for a control
character or, in octal digits, for one byte; an unknown escape stands for itself.
-/
namespace ImageRelease.Machine

/-- Which escapes count: octal numbers may start with a zero that is not one of their three digits,
and a number may be given in hexadecimal digits. -/
structure EscapeStyle where
  zeroMark : Bool
  hexadecimal : Bool
deriving DecidableEq, Repr

namespace Escape

inductive Mode where
  | plain
  | backslash
  | digits (base left value : Nat)

def control? : Char → Option UInt8
  | 'a' => some 7
  | 'b' => some 8
  | 'e' => some 27
  | 'f' => some 12
  | 'n' => some 10
  | 'r' => some 13
  | 't' => some 9
  | 'v' => some 11
  | '\\' => some 92
  | _ => none

def bytesOf (c : Char) : List UInt8 := (String.singleton c).toUTF8.toList

def digit? (base : Nat) (c : Char) : Option Nat :=
  let value :=
    if c.isDigit then c.toNat - '0'.toNat
    else if 'a' ≤ c && c ≤ 'f' then c.toNat - 'a'.toNat + 10
    else if 'A' ≤ c && c ≤ 'F' then c.toNat - 'A'.toNat + 10
    else base
  if value < base then some value else none

def pending : Mode → List UInt8
  | .digits _ _ value => [value.toUInt8]
  | .backslash => [92]
  | .plain => []

def read (style : EscapeStyle) : Mode → List Char → List UInt8 × Bool
  | mode, [] => (pending mode, false)
  | .plain, c :: s =>
    if c = '\\' then read style .backslash s
    else
      let (bytes, stopped) := read style .plain s
      (bytesOf c ++ bytes, stopped)
  | .backslash, c :: s =>
    if c = 'c' then ([], true)
    else if style.hexadecimal && c == 'x' then read style (.digits 16 2 0) s
    else if style.zeroMark && c == '0' then read style (.digits 8 3 0) s
    else
      match digit? 8 c, control? c with
      | some d, _ => read style (.digits 8 2 d) s
      | none, some b =>
        let (bytes, stopped) := read style .plain s
        (b :: bytes, stopped)
      | none, none =>
        let (bytes, stopped) := read style .plain s
        (92 :: bytesOf c ++ bytes, stopped)
  | .digits base left value, c :: s =>
    match left, digit? base c with
    | left + 1, some d => read style (.digits base left (value * base + d)) s
    | _, _ =>
      if c = '\\' then
        let (bytes, stopped) := read style .backslash s
        (value.toUInt8 :: bytes, stopped)
      else
        let (bytes, stopped) := read style .plain s
        (value.toUInt8 :: bytesOf c ++ bytes, stopped)

end Escape

/-- The bytes of a text with escapes, and whether an escape asked to stop there. -/
def unescape (style : EscapeStyle) (s : List Char) : List UInt8 × Bool :=
  Escape.read style .plain s

end ImageRelease.Machine
