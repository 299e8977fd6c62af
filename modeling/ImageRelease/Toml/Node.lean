import ImageRelease.Decimal.Shortest

/-!
Configuration documents in TOML, as trees. Every key and every value knows the part of the document
that it was written in.
-/
namespace ImageRelease.Toml

/-- A part of a document, given by the number of characters from its start to the end of the
document, and from its end to the end of the document. -/
structure Span where
  before : Nat
  after : Nat
deriving DecidableEq, Repr

structure Key where
  name : String
  span : Span
deriving DecidableEq, Repr

/-- An integer as it is written: its base, and its sign and digits without underscores. Whether these
stand for a number is asked only when the number is needed. -/
structure Numeral where
  base : Nat
  text : List Char
deriving DecidableEq, Repr

inductive FloatValue where
  | finite (negative : Bool) (digits : Nat) (exponent : Int)
  | infinite (negative : Bool)
  | notANumber
deriving DecidableEq, Repr

/-- How a table came to be: written in braces, opened by its own header, implied by the header of a
table inside it, or by dotted keys. -/
inductive Origin where
  | inline
  | header
  | implied
  | dotted
deriving DecidableEq, Repr

/-- A value of a document. An array may stand for a row of tables with double headers. -/
inductive Node where
  | text (span : Span) (value : String)
  | integer (span : Span) (numeral : Numeral)
  | float (span : Span) (value : FloatValue)
  | boolean (span : Span) (value : Bool)
  | moment (span : Span)
  | array (span : Span) (items : List Node)
  | tables (span : Span) (items : List Node)
  | table (span : Span) (origin : Origin) (entries : List (Key × Node))
deriving Repr

abbrev Entries := List (Key × Node)

namespace Node

def span : Node → Span
  | text s _ | integer s _ | float s _ | boolean s _ | moment s | array s _ | tables s _
  | table s _ _ => s

end Node

def Entries.find? (entries : Entries) (name : String) : Option Node :=
  (List.find? (fun entry => entry.1.name == name) entries).map (·.2)

end ImageRelease.Toml
