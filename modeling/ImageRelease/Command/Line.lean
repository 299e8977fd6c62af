import ImageRelease.Text.Blank
import ImageRelease.Command.Basic

/-!
The line that shows a command. The program stands as it is. An argument that is empty or has blank
or shell-active characters stands between single quotes, where a single quote is written by leaving
the quotes, escaping it, and entering them again.
-/
namespace ImageRelease.Command

/-- The characters other than blanks that make quotes necessary. -/
def isActive (c : Char) : Bool :=
  c == '\'' || c == '"' || c == '$' || c == '\x60' || c == '\\' || c == ';' || c == '&' || c == '|'

def needsQuotes (a : List Char) : Bool :=
  a.isEmpty || a.any fun c => Text.isBlank c || isActive c

def quoteInside : List Char → List Char
  | [] => []
  | c :: a => if c = '\'' then '\'' :: '\\' :: '\'' :: '\'' :: quoteInside a else c :: quoteInside a

def shownArg (a : List Char) : List Char :=
  if needsQuotes a then '\'' :: quoteInside a ++ ['\''] else a

def lineChars (program : List Char) (args : List (List Char)) : List Char :=
  program ++ args.flatMap fun a => ' ' :: shownArg a

def line (c : Command) : String :=
  String.ofList (lineChars c.program.toList (c.args.map String.toList))

end ImageRelease.Command
