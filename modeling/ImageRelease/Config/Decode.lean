import ImageRelease.Config.Basic
import ImageRelease.Text.Quoted
import ImageRelease.Toml.Document
import ImageRelease.Toml.Place

/-!
Configurations from documents. The keys of a table are taken in the order of their names; the first
one that is unknown or has a value of the wrong kind is the misfit reported. Limits may be given as a
table, or as a list of which the values beyond the known ones are left alone.
-/
namespace ImageRelease

namespace Config

inductive Expected where
  | text
  | path
  | limits
  | seconds
deriving DecidableEq, Repr

def Expected.words : Expected → String
  | .text => "a string"
  | .path => "path string"
  | .limits => "struct TimeoutConfig"
  | .seconds => "u64"

/-- The widths of integers that do not fit into 64 bits. -/
inductive Width where
  | standard
  | signed128
  | unsigned128
deriving DecidableEq, Repr

def Width.words : Width → String
  | .standard => ""
  | .signed128 => " as i128"
  | .unsigned128 => " as u128"

inductive Found where
  | text (value : String)
  | integer (value : Int) (width : Width)
  | float (shown : String)
  | boolean (value : Bool)
  | list
  | table
deriving DecidableEq, Repr

def Found.words : Found → String
  | .text s => "string " ++ Text.quoted s
  | .integer n width => "integer \x60" ++ toString n ++ "\x60" ++ width.words
  | .float shown => "floating point \x60" ++ shown ++ "\x60"
  | .boolean b => "boolean \x60" ++ (if b then "true" else "false") ++ "\x60"
  | .list => "sequence"
  | .table => "map"

inductive Misfit where
  | unknownKey (key : String) (known : List String)
  | wrongKind (found : Found) (expected : Expected)
  | wrongValue (found : Found) (expected : Expected)
deriving DecidableEq, Repr

def markedKey (key : String) : String := "\x60" ++ key ++ "\x60"

/-- A choice between keys; two are joined by a word, more are listed. -/
def choice : List String → String
  | [a, b] => markedKey a ++ " or " ++ markedKey b
  | keys => "one of " ++ ", ".intercalate (keys.map markedKey)

def Misfit.message : Misfit → String
  | .unknownKey key known => "unknown field " ++ markedKey key ++ ", expected " ++ choice known
  | .wrongKind found expected => "invalid type: " ++ found.words ++ ", expected " ++ expected.words
  | .wrongValue found expected => "invalid value: " ++ found.words ++ ", expected " ++ expected.words

/-- Why a table is no configuration: a number that is needed has no value, or one beyond what can be
held, or some part does not fit. -/
inductive TableFault where
  | unusableNumber
  | misfit (span : Toml.Span) (cause : Misfit)
deriving DecidableEq, Repr

def widthBound (bits : Nat) : Int := Int.ofNat (Nat.pow 2 bits)

/-- The width that an integer needs; none when it needs more than 128 bits. -/
def widthOf? (n : Int) : Option Width :=
  if -widthBound 63 ≤ n ∧ n < widthBound 64 then some .standard
  else if -widthBound 127 ≤ n ∧ n < widthBound 127 then some .signed128
  else if 0 ≤ n ∧ n < widthBound 128 then some .unsigned128
  else none

/-- What a node is; none when it is a number that has no value, or one beyond what can be held. -/
def foundOf? : Toml.Node → Option Found
  | .text _ s => some (.text s)
  | .integer _ n => do
    let value ← Toml.Number.integerValue? n
    return .integer value (← widthOf? value)
  | .float _ x => (Toml.Number.shown? x).map .float
  | .boolean _ b => some (.boolean b)
  | .array _ _ | .tables _ _ => some .list
  | .moment _ | .table _ _ _ => some .table

def refuse (expected : Expected) (node : Toml.Node) : TableFault :=
  match foundOf? node with
  | some found => .misfit node.span (.wrongKind found expected)
  | none => .unusableNumber

def decodeText (expected : Expected) : Toml.Node → Except TableFault String
  | .text _ s => .ok s
  | node => .error (refuse expected node)

/-- A number of seconds is below `2 ^ 64`. -/
def decodeSeconds (node : Toml.Node) : Except TableFault Nat :=
  match foundOf? node with
  | some (.integer n .standard) =>
    if 0 ≤ n then .ok n.toNat
    else .error (.misfit node.span (.wrongValue (.integer n .standard) .seconds))
  | _ => .error (refuse .seconds node)

def byKey (entries : Toml.Entries) : Toml.Entries :=
  entries.mergeSort fun a b => a.1.name ≤ b.1.name

def limitKeys : List String := LimitField.all.map LimitField.key

def setLimit (limits : Limits) (entry : Toml.Key × Toml.Node) : Except TableFault Limits :=
  match LimitField.ofKey? entry.1.name with
  | some field => (decodeSeconds entry.2).map (limits.set field)
  | none => .error (.misfit entry.1.span (.unknownKey entry.1.name limitKeys))

/-- The key under which a date or time would be taken for a table. -/
def momentKey : String := "$__toml_private_datetime"

/-- Limits in the order of the fields; a field without a value keeps the one it has. -/
def setLimits : List LimitField → List Toml.Node → Limits → Except TableFault Limits
  | field :: fields, node :: nodes, limits => do
    setLimits fields nodes (limits.set field (← decodeSeconds node))
  | _, _, limits => .ok limits

def decodeLimits : Toml.Node → Except TableFault Limits
  | .table _ _ entries => (byKey entries).foldlM setLimit Limits.default
  | .array _ nodes | .tables _ nodes => setLimits LimitField.all nodes Limits.default
  | .moment span => .error (.misfit span (.unknownKey momentKey limitKeys))
  | node => .error (refuse .limits node)

def knownKeys : List String := TextField.all.map TextField.key ++ [limitsKey]

/-- All text values but the branch are paths. -/
def expectedOf : TextField → Expected
  | .mainBranch => .text
  | _ => .path

def setEntry (config : Config) (entry : Toml.Key × Toml.Node) : Except TableFault Config :=
  match TextField.ofKey? entry.1.name with
  | some field => (decodeText (expectedOf field) entry.2).map (config.set field)
  | none =>
    if entry.1.name = limitsKey then
      (decodeLimits entry.2).map fun limits => { config with limits }
    else .error (.misfit entry.1.span (.unknownKey entry.1.name knownKeys))

def ofEntries (entries : Toml.Entries) : Except TableFault Config :=
  (byKey entries).foldlM setEntry default

inductive Fault where
  | malformed
  | misfit (place : Toml.Place) (cause : Misfit)
deriving DecidableEq, Repr

def Fault.message : Fault → String
  | .malformed => "TOML parse error\nmalformed document\n"
  | .misfit place cause => place.excerpt ++ cause.message ++ "\n"

def TableFault.inDocument (document : List Char) : TableFault → Fault
  | .unusableNumber => .malformed
  | .misfit span cause => .misfit (Toml.Place.ofSpan document span) cause

def ofDocument (document : List Char) : Except Fault Config :=
  match Toml.read? document with
  | none => .error .malformed
  | some entries => (ofEntries entries).mapError (·.inDocument document)

def parse (text : String) : Except Fault Config := ofDocument text.toList

end Config

end ImageRelease
