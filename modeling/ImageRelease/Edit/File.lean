import ImageRelease.Edit.Replacement
import ImageRelease.Failure
import ImageRelease.FileTree

/-!
Editing files in place. A file is written only when one of its lines changes.
-/
namespace ImageRelease.Edit

/-- Edits the file at a path; gives the number of changed lines and the files afterwards. -/
def editFile (rs : List Replacement) (path : String) (files : FileTree) :
    Except Failure (Nat × FileTree) :=
  match files.readText path with
  | .error fault => .error (.updateFailed path ("Failed to read file: " ++ fault.message))
  | .ok text =>
    let changed := changedLines rs text.toList
    if changed = 0 then .ok (0, files)
    else
      match files.writeText path (String.ofList (edit rs text.toList)) with
      | .error fault => .error (.updateFailed path ("Failed to write file: " ++ fault.message))
      | .ok files => .ok (changed, files)

end ImageRelease.Edit
