import ImageRelease.Failure
import ImageRelease.FileTree
import ImageRelease.Text.Search

/-!
Release notes: a text file that must mention every version before it is released. A project may have
none; any other trouble with reading them stops the release.
-/
namespace ImageRelease.ReleaseNotes

inductive Finding where
  | mentioned
  | noFile
deriving DecidableEq, Repr

def heading (v : Version) : List Char := "## Version ".toList ++ v.chars

def check (files : FileTree) (path : String) (v : Version) : Except Failure Finding :=
  match files.readText path with
  | .error .notFound => .ok .noFile
  | .error fault => .error (.notesUnreadable path fault.message)
  | .ok notes =>
    if Text.occurs (heading v) notes.toList then .ok .mentioned
    else .error (.notesMissing v.text path)

end ImageRelease.ReleaseNotes
