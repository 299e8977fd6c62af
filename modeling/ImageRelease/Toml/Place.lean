import ImageRelease.Toml.Node

/-!
Places in a document, as messages show them: the line with its number, and marks under the part that
is meant. Columns count characters; the marks are as many as the part has bytes, within the line.
-/
namespace ImageRelease.Toml

structure Place where
  line : Nat
  column : Nat
  source : String
  width : Nat
deriving DecidableEq, Repr

def byteLength (s : List Char) : Nat := s.foldl (fun n c => n + c.utf8Size) 0

namespace Place

def lastLine (s : List Char) : List Char := (s.reverse.takeWhile (· != '\n')).reverse

def ofSpan (document : List Char) (span : Span) : Place :=
  let before := document.take (document.length - span.before)
  let from_ := document.drop (document.length - span.before)
  let indent := lastLine before
  let source := indent ++ from_.takeWhile (· != '\n')
  let width := byteLength (from_.take (span.before - span.after))
  { line := before.count '\n' + 1
    column := indent.length + 1
    source := String.ofList source
    width := max 1 (min width (byteLength source - indent.length)) }

def margin (p : Place) (mark : String) : String :=
  "".pushn ' ' (toString p.line).length ++ " |" ++ mark ++ "\n"

def excerpt (p : Place) : String :=
  "TOML parse error at line " ++ toString p.line ++ ", column " ++ toString p.column ++ "\n" ++
    p.margin "" ++
    toString p.line ++ " | " ++ p.source ++ "\n" ++
    p.margin ("".pushn ' ' p.column ++ "".pushn '^' p.width)

end Place

end ImageRelease.Toml
