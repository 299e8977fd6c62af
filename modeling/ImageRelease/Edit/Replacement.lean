import ImageRelease.Edit.Line
import ImageRelease.Pattern.Basic
import ImageRelease.Version.Basic

/-!
Editing texts line by line. Every replacement is applied in turn to every line without its ending;
endings stay as they are. The replacements of a release pin the images of a manifest and set the
version of a source file.
-/
namespace ImageRelease.Edit

structure Replacement where
  pattern : Pattern
  text : List Char

def Replacement.apply (r : Replacement) (line : List Char) : List Char :=
  r.pattern.replaceAll r.text line

def applyAll (rs : List Replacement) (line : List Char) : List Char :=
  rs.foldl (fun text r => r.apply text) line

def editLine (rs : List Replacement) (line : Line) : Line :=
  { line with text := applyAll rs line.text }

def edit (rs : List Replacement) (content : List Char) : List Char :=
  join ((lines content).map (editLine rs))

def changedLines (rs : List Replacement) (content : List Char) : Nat :=
  (lines content).countP fun line => applyAll rs line.text != line.text

def imageMarker (image : String) : List Char := ("image: metallb/" ++ image ++ ":").toList

def pinnedImages : List String := ["speaker", "controller"]

/-- Sets the tag of an image, from its marker to the end of the line. -/
def pinImage (v : Version) (image : String) : Replacement :=
  { pattern := Pattern.literal (imageMarker image) ++ [.many .any]
    text := imageMarker image ++ v.tag.toList }

def pinImages (v : Version) : List Replacement :=
  pinnedImages.map (pinImage v)

def versionWord : List Char := "version".toList

/-- The assignment of a version, from its name to the end of the line; blanks stand before the sign. -/
def versionPattern : Pattern :=
  Pattern.literal versionWord ++ [.some .blank, .once (.literal '='), .many .any]

def versionAssignment (v : Version) : List Char :=
  versionWord ++ " = \"".toList ++ v.chars ++ ['"']

def assignVersion (v : Version) : Replacement :=
  { pattern := versionPattern, text := versionAssignment v }

end ImageRelease.Edit
