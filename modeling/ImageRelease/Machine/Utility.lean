import ImageRelease.Machine.Basic
import ImageRelease.Machine.Format
import ImageRelease.Pattern.Parse

/-!
The standard utilities of a machine.
-/
namespace ImageRelease.Machine

def faultWords : FileFault → String
  | .notFound => "No such file or directory"
  | .notDirectory => "Not a directory"
  | .isDirectory => "Is a directory"
  | .nameTooLong => "File name too long"
  | .zeroByte | .notText => "Invalid argument"
  | .notPermitted => "Permission denied"

namespace Utility

def newline : ByteArray := "\n".toUTF8

/-- The output of several steps: the failing ones only add their message. -/
def tally (name : String) (results : List (Except String ByteArray)) : Finished :=
  results.foldl
    (fun done result =>
      match result with
      | .ok bytes => { done with stdout := done.stdout ++ bytes }
      | .error message =>
        { done with
          ending := .exited 1
          stderr := done.stderr ++ (name ++ ": " ++ message ++ "\n").toUTF8 })
    (Finished.success .empty)

def cat (name : String) (paths : List String) (stdin : ByteArray) (files : FileTree) : Finished :=
  let paths := if paths.isEmpty then ["-"] else paths
  tally name (paths.map fun path =>
    if path = "-" then .ok stdin
    else if path = nullDevice then .ok .empty
    else (files.read path).mapError fun fault => path ++ ": " ++ faultWords fault)

def numbers (first step last : Int) : ByteArray :=
  let count :=
    if step = 0 then 0
    else if 0 < step then (last - first + step).toNat / step.toNat
    else (first - last - step).toNat / (-step).toNat
  (String.join ((List.range count).map fun i : Nat => toString (first + step * i) ++ "\n")).toUTF8

def seq (name : String) (args : List String) : Finished :=
  match args.mapM String.toInt? with
  | some [last] => .success (numbers 1 1 last)
  | some [first, last] => .success (numbers first 1 last)
  | some [first, step, last] => .success (numbers first step last)
  | some [] => .failure 1 (name ++ ": missing operand\n")
  | _ => .failure 1 (name ++ ": extra operand\n")

/-- Whole seconds; a fraction does not count. -/
def wholeSeconds (arg : String) : Nat :=
  (String.ofList (arg.toList.takeWhile Char.isDigit)).toNat?.getD 0

def sleep (args : List String) (w : World) : Finished × World :=
  match w.pass? (args.foldl (fun n arg => n + wholeSeconds arg) 0) with
  | some w => (.success .empty, w)
  | none => ({ Finished.success .empty with ending := .outlived }, w)

def splitOptions (args : List String) : List Char × List String :=
  let isOption (a : String) : Bool := a.toList.head? == some '-' && a != "-"
  ((args.filter isOption).flatMap String.toList, args.filter fun a => !isOption a)

def changeEach (name : String) (change : FileTree → String → Except String FileTree) :
    List String → FileTree → Finished × FileTree
  | [], files => (.success .empty, files)
  | path :: paths, files =>
    match change files path with
    | .ok files => changeEach name change paths files
    | .error message =>
      let (finished, files) := changeEach name change paths files
      ({ finished with
          ending := .exited 1
          stderr := (name ++ ": " ++ message ++ "\n").toUTF8 ++ finished.stderr }, files)

def makeDirectory (withParents : Bool) (files : FileTree) (path : String) :
    Except String FileTree :=
  let refused (reason : String) : Except String FileTree :=
    .error ("cannot create directory '" ++ path ++ "': " ++ reason)
  match files.resolve path with
  | .ok l =>
    match files.lookup l with
    | none => .ok (files.put l .directory)
    | some .directory => if withParents then .ok files else refused "File exists"
    | some _ => refused "File exists"
  | .error .notFound =>
    if withParents && !Path.isAbsolute path then
      .ok (files.putDeep (files.workingDirectory ++ (Path.parts path).filter (· != "")) .directory)
    else refused (faultWords .notFound)
  | .error fault => refused (faultWords fault)

def removePath (forced deep : Bool) (files : FileTree) (path : String) : Except String FileTree :=
  let refused (reason : String) : Except String FileTree :=
    .error ("cannot remove '" ++ path ++ "': " ++ reason)
  match files.resolve path with
  | .error .notFound => if forced then .ok files else refused (faultWords .notFound)
  | .error fault => refused (faultWords fault)
  | .ok l =>
    match files.lookup l with
    | some (.file _) => .ok (files.remove l)
    | some .directory => if deep then .ok (files.remove l) else refused (faultWords .isDirectory)
    | none => if forced then .ok files else refused (faultWords .notFound)

def touchPath (files : FileTree) (path : String) : Except String FileTree :=
  if files.pathExists path then .ok files
  else (files.write path .empty).mapError fun fault =>
    "cannot touch '" ++ path ++ "': " ++ faultWords fault

def onPaths (name : String) (change : FileTree → String → Except String FileTree)
    (paths : List String) (w : World) : Finished × World :=
  let (finished, files) := changeEach name change paths w.files
  (finished, { w with files })

def echo (args : List String) : ByteArray :=
  let isOption (a : String) : Bool :=
    match a.toList with
    | '-' :: letters => !letters.isEmpty && letters.all fun c => c == 'n' || c == 'e' || c == 'E'
    | _ => false
  let letters := (args.takeWhile isOption).flatMap String.toList
  let text := " ".intercalate (args.dropWhile isOption)
  let (bytes, stopped) :=
    if letters.contains 'e' then unescape ⟨true, true⟩ text.toList
    else (text.toUTF8.toList, false)
  ⟨bytes.toArray⟩ ++ (if stopped || letters.contains 'n' then .empty else newline)

def printf (style : EscapeStyle) (name : String) : List String → Finished
  | [] => .failure 2 (name ++ ": missing operand\n")
  | format :: args => .success (Format.print style format args)

def directoryText (l : Location) : String := "/" ++ "/".intercalate l

/-- A replacement of the first match, or of all, in each line. -/
structure LineEdit where
  pattern : Pattern
  replacement : List Char
  everywhere : Bool

/-- Marks of richer patterns stand for themselves in an edit unless they are escaped. -/
def editPattern? (s : List Char) : Option Pattern :=
  Pattern.read? [] (s.flatMap fun c =>
    if c == '+' || c == '?' || c == '(' || c == ')' || c == '|' || c == '\x7b' then ['\\', c] else [c])

/-- Reads an edit: the letter, then pattern, replacement and flags behind a mark each. -/
def lineEdit? (script : String) : Option LineEdit :=
  match script.toList with
  | 's' :: mark :: s =>
    match s.splitOn mark with
    | [pattern, replacement, flags] => do
      return ⟨← editPattern? pattern, replacement, flags.contains 'g'⟩
    | _ => none
  | _ => none

def replaceFirst (p : Pattern) (replacement : List Char) (atStart : Bool) :
    List Char → List Char
  | [] => if (p.matchFront atStart []).isSome then replacement else []
  | c :: s =>
    match p.matchFront atStart (c :: s) with
    | some rest => replacement ++ rest
    | none => c :: replaceFirst p replacement false s

def LineEdit.apply (e : LineEdit) (line : List Char) : List Char :=
  if e.everywhere then e.pattern.replaceAll e.replacement line
  else replaceFirst e.pattern e.replacement true line

def LineEdit.run (e : LineEdit) (input : ByteArray) : ByteArray :=
  let lines := (Text.decodeLossy input).toList.splitOn '\n'
  let edited (lines : List (List Char)) : List (List Char) := lines.map e.apply
  let all :=
    match lines.getLast? with
    | some [] => edited lines.dropLast ++ [[]]
    | _ => edited lines
  (String.ofList (['\n'].intercalate all)).toUTF8

def sed (name : String) (args : List String) (stdin : ByteArray) (files : FileTree) : Finished :=
  match args with
  | script :: paths =>
    match lineEdit? script with
    | some edit =>
      let read := cat name paths stdin files
      { read with stdout := edit.run read.stdout }
    | none => .failure 1 (name ++ ": -e expression #1, char 0: unknown command\n")
  | [] => .failure 1 (name ++ ": no script\n")

end Utility

def utility? (name : String) : Option Program :=
  match name with
  | "true" => some fun _ _ w => (.success .empty, w)
  | "false" => some fun _ _ w => ({ Finished.success .empty with ending := .exited 1 }, w)
  | "echo" => some fun argv _ w => (.success (Utility.echo argv.tail), w)
  | "printf" => some fun argv _ w => (Utility.printf ⟨false, true⟩ (argv.headD name) argv.tail, w)
  | "cat" => some fun argv stdin w => (Utility.cat (argv.headD name) argv.tail stdin w.files, w)
  | "seq" => some fun argv _ w => (Utility.seq (argv.headD name) argv.tail, w)
  | "sed" => some fun argv stdin w => (Utility.sed (argv.headD name) argv.tail stdin w.files, w)
  | "pwd" => some fun _ _ w =>
    (.success ((Utility.directoryText w.files.workingDirectory).toUTF8 ++ Utility.newline), w)
  | "sleep" => some fun argv _ w => Utility.sleep argv.tail w
  | "mkdir" => some fun argv _ w =>
    let (options, paths) := Utility.splitOptions argv.tail
    Utility.onPaths (argv.headD name) (Utility.makeDirectory (options.contains 'p')) paths w
  | "rm" => some fun argv _ w =>
    let (options, paths) := Utility.splitOptions argv.tail
    Utility.onPaths (argv.headD name)
      (Utility.removePath (options.contains 'f') (options.contains 'r')) paths w
  | "touch" => some fun argv _ w =>
    Utility.onPaths (argv.headD name) Utility.touchPath (Utility.splitOptions argv.tail).2 w
  | _ => none

end ImageRelease.Machine
