/-!
Shell scripts: commands with their redirections, joined into pipelines, which are run one after the
other depending on how the one before ended. Compound commands and substitutions are no part of the
language.
-/
namespace ImageRelease.Shell

/-- A part of a word. Quoted parts are not split into several arguments. -/
inductive Part where
  | text (quoted : Bool) (chars : List Char)
  | parameter (quoted : Bool) (name : String)
deriving DecidableEq, Repr

inductive Redirection where
  | output (descriptor : Nat) (append : Bool) (target : List Part)
  | input (target : List Part)
  | copy (descriptor : Nat) (target : List Part)
deriving DecidableEq, Repr

structure Simple where
  words : List (List Part)
  redirections : List Redirection
deriving DecidableEq, Repr

inductive Condition where
  | always
  | afterSuccess
  | afterFailure
deriving DecidableEq, Repr

structure Step where
  condition : Condition
  pipeline : List Simple
deriving DecidableEq, Repr

inductive Arrow where
  | output (descriptor : Nat) (append : Bool)
  | input
  | copy (descriptor : Nat)
deriving DecidableEq, Repr

inductive Token where
  | word (parts : List Part)
  | arrow (arrow : Arrow)
  | pipe
  | next (condition : Condition)
deriving DecidableEq, Repr

def isNameStart (c : Char) : Bool := c.isAlpha || c == '_'

def isNameChar (c : Char) : Bool := c.isAlphanum || c == '_'

def takeParameter (s : List Char) : Option (String × List Char) :=
  match s with
  | '\x7b' :: inner =>
    let name := inner.takeWhile (· != '\x7d')
    match inner.dropWhile (· != '\x7d') with
    | _ :: rest => some (String.ofList name, rest)
    | [] => none
  | c :: rest =>
    if c.isDigit || c == '#' || c == '$' || c == '?' || c == '@' || c == '*' then
      some (String.singleton c, rest)
    else if isNameStart c then
      some (String.ofList ((c :: rest).takeWhile isNameChar), (c :: rest).dropWhile isNameChar)
    else none
  | [] => none

/-- The rest of a text between double quotes after the parts read so far, which are in reverse order.
Only the quote, the dollar sign and the backslash can be escaped. -/
def takeDouble : (fuel : Nat) → List Part → List Char → Option (List Part × List Char)
  | 0, _, _ => none
  | fuel + 1, parts, s =>
    match s with
    | [] => none
    | '"' :: rest => some (.text true [] :: parts, rest)
    | '\\' :: c :: rest =>
      if c == '"' || c == '$' || c == '\\' || c == '\x60' then
        takeDouble fuel (.text true [c] :: parts) rest
      else takeDouble fuel (.text true ['\\', c] :: parts) rest
    | '$' :: rest =>
      match takeParameter rest with
      | some (name, rest) => takeDouble fuel (.parameter true name :: parts) rest
      | none => takeDouble fuel (.text true ['$'] :: parts) rest
    | c :: rest =>
      if c == '\x60' then none else takeDouble fuel (.text true [c] :: parts) rest

def endWord : Option (List Part) → List Token
  | none => []
  | some parts => [.word parts.reverse]

def descriptorOf : Option (List Part) → Option Nat
  | some [.text false [c]] => if c.isDigit then some (c.toNat - '0'.toNat) else none
  | _ => none

/-- The tokens for an arrow. A digit directly before it is the descriptor meant. -/
def arrowTokens (word : Option (List Part)) (usual : Nat) (arrow : Nat → Arrow) : List Token :=
  match descriptorOf word with
  | some n => [.arrow (arrow n)]
  | none => endWord word ++ [.arrow (arrow usual)]

def extend (part : Part) (word : Option (List Part)) : Option (List Part) :=
  some (part :: word.getD [])

/-- The tokens of a script after a word read so far. Every step shortens the text, so its length is
fuel enough. -/
def tokens : (fuel : Nat) → Option (List Part) → List Char → Option (List Token)
  | 0, word, _ => some (endWord word)
  | fuel + 1, word, s =>
    match s with
    | [] => some (endWord word)
    | '&' :: '&' :: rest =>
      (tokens fuel none rest).map (endWord word ++ .next .afterSuccess :: ·)
    | '|' :: '|' :: rest =>
      (tokens fuel none rest).map (endWord word ++ .next .afterFailure :: ·)
    | '>' :: '>' :: rest =>
      (tokens fuel none rest).map (arrowTokens word 1 (.output · true) ++ ·)
    | '>' :: '&' :: rest => (tokens fuel none rest).map (arrowTokens word 1 .copy ++ ·)
    | '\\' :: '\n' :: rest => tokens fuel word rest
    | '\\' :: c :: rest => tokens fuel (extend (.text true [c]) word) rest
    | '\'' :: rest =>
      let inner := rest.takeWhile (· != '\'')
      match rest.dropWhile (· != '\'') with
      | [] => none
      | _ :: after => tokens fuel (extend (.text true inner) word) after
    | '"' :: rest =>
      match takeDouble (rest.length + 1) (word.getD []) rest with
      | some (parts, after) => tokens fuel (some parts) after
      | none => none
    | '$' :: rest =>
      match takeParameter rest with
      | some (name, after) => tokens fuel (extend (.parameter false name) word) after
      | none => tokens fuel (extend (.text false ['$']) word) rest
    | c :: rest =>
      if c == ' ' || c == '\t' then (tokens fuel none rest).map (endWord word ++ ·)
      else if c == '\n' || c == ';' then
        (tokens fuel none rest).map (endWord word ++ .next .always :: ·)
      else if c == '|' then (tokens fuel none rest).map (endWord word ++ .pipe :: ·)
      else if c == '>' then (tokens fuel none rest).map (arrowTokens word 1 (.output · false) ++ ·)
      else if c == '<' then
        (tokens fuel none rest).map (arrowTokens word 0 (fun _ => .input) ++ ·)
      else if c == '#' && word.isNone then tokens fuel none (rest.dropWhile (· != '\n'))
      else if c == '&' || c == '(' || c == ')' || c == '\x60' then none
      else tokens fuel (extend (.text false [c]) word) rest

/-- What was read of a script so far: steps that are complete, and the pipeline in front. -/
structure Draft where
  steps : List Step
  condition : Condition
  pipeline : List Simple
  words : List (List Part)
  redirections : List Redirection
  arrow : Option Arrow

namespace Draft

def empty : Draft :=
  { steps := [], condition := .always, pipeline := [], words := [], redirections := [],
    arrow := none }

def isIdle (d : Draft) : Bool := d.words.isEmpty && d.redirections.isEmpty

def endSimple? (d : Draft) : Option Draft :=
  if d.isIdle || d.arrow.isSome then none
  else some { d with
    pipeline := d.pipeline ++ [⟨d.words, d.redirections⟩], words := [], redirections := [] }

def endStep? (d : Draft) : Option Draft := do
  let d ← d.endSimple?
  return { d with steps := d.steps ++ [⟨d.condition, d.pipeline⟩], pipeline := [] }

def redirect (arrow : Arrow) (target : List Part) : Redirection :=
  match arrow with
  | .output n append => .output n append target
  | .input => .input target
  | .copy n => .copy n target

def take? (d : Draft) : Token → Option Draft
  | .word parts =>
    match d.arrow with
    | some arrow =>
      some { d with redirections := d.redirections ++ [redirect arrow parts], arrow := none }
    | none => some { d with words := d.words ++ [parts] }
  | .arrow arrow => if d.arrow.isSome then none else some { d with arrow := some arrow }
  | .pipe => d.endSimple?
  | .next .always =>
    if d.isIdle && d.pipeline.isEmpty && d.condition == .always then some d
    else if d.isIdle && d.pipeline.isEmpty then none
    else do return { (← d.endStep?) with condition := .always }
  | .next condition => do return { (← d.endStep?) with condition }

def finish? (d : Draft) : Option (List Step) :=
  if d.isIdle && d.pipeline.isEmpty && d.condition == .always && d.arrow.isNone then some d.steps
  else d.endStep?.map Draft.steps

end Draft

def parse? (script : String) : Option (List Step) := do
  let found ← tokens (script.length + 1) none script.toList
  (← found.foldlM Draft.take? Draft.empty).finish?

end ImageRelease.Shell
