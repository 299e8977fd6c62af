import ImageRelease.Machine.Escape

/-!
Formatted printing: a format is text with escapes and with directives, each of which takes one
argument. The format is used again as long as arguments are left.
-/
namespace ImageRelease.Machine.Format

inductive Directive where
  | literal (text : List Char)
  | argument (kind : Char)
deriving DecidableEq, Repr

/-- The literal read so far, which is in reverse order, if it is not empty. -/
def flush (run : List Char) (directives : List Directive) : List Directive :=
  if run.isEmpty then directives else .literal run.reverse :: directives

def directives (run : List Char) : List Char → List Directive
  | [] => flush run []
  | '\\' :: c :: s => directives (c :: '\\' :: run) s
  | '%' :: '%' :: s => directives ('%' :: run) s
  | '%' :: c :: s => flush run (.argument c :: directives [] s)
  | c :: s => directives (c :: run) s

/-- The number at the front of an argument; zero when there is none. -/
def numberOf (argument : String) : Int :=
  match argument.toList with
  | '-' :: s => -((String.ofList (s.takeWhile Char.isDigit)).toNat?.getD 0 : Int)
  | s => ((String.ofList (s.takeWhile Char.isDigit)).toNat?.getD 0 : Int)

def shown (style : EscapeStyle) (kind : Char) (argument : String) : List UInt8 × Bool :=
  if kind = 'b' then unescape { style with zeroMark := true } argument.toList
  else if kind = 'd' || kind = 'i' || kind = 'u' then
    ((toString (numberOf argument)).toUTF8.toList, false)
  else if kind = 'c' then ((String.ofList (argument.toList.take 1)).toUTF8.toList, false)
  else (argument.toUTF8.toList, false)

def once (style : EscapeStyle) : List Directive → List String → List UInt8 × List String × Bool
  | [], args => ([], args, false)
  | .literal text :: rest, args =>
    match unescape style text with
    | (bytes, true) => (bytes, args, true)
    | (bytes, false) =>
      let (more, args, stopped) := once style rest args
      (bytes ++ more, args, stopped)
  | .argument kind :: rest, args =>
    match shown style kind (args.head?.getD "") with
    | (bytes, true) => (bytes, args, true)
    | (bytes, false) =>
      let (more, args, stopped) := once style rest args.tail
      (bytes ++ more, args, stopped)

/-- At most so many uses of a format, one at least. -/
def uses (style : EscapeStyle) (format : List Directive) : Nat → List String → List UInt8
  | 0, _ => []
  | n + 1, args =>
    let (bytes, left, stopped) := once style format args
    if stopped || left.isEmpty || left.length = args.length then bytes
    else bytes ++ uses style format n left

def print (style : EscapeStyle) (format : String) (args : List String) : ByteArray :=
  ⟨(uses style (directives [] format.toList) (args.length + 1) args).toArray⟩

end ImageRelease.Machine.Format
