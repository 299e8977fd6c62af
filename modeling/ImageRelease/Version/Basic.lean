/-!
Release versions: three numbers, an optional pre-release and optional build metadata. The text of a
version is `major.minor.patch`, then `-` and the pre-release identifiers, then `+` and the build
identifiers, identifiers being separated by dots.
-/
namespace ImageRelease

abbrev Identifier := List Char

structure Version where
  major : Nat
  minor : Nat
  patch : Nat
  prerelease : List Identifier
  build : List Identifier
deriving DecidableEq, Repr, Inhabited

namespace Version

def dotted : List Identifier → List Char
  | [] => []
  | [i] => i
  | i :: rest => i ++ '.' :: dotted rest

/-- A mark and the identifiers after it; nothing when there are none. -/
def marked (mark : Char) : List Identifier → List Char
  | [] => []
  | i :: rest => mark :: dotted (i :: rest)

def numeral (n : Nat) : List Char := Nat.toDigits 10 n

def chars (v : Version) : List Char :=
  numeral v.major ++ '.' :: numeral v.minor ++ '.' :: numeral v.patch ++
    marked '-' v.prerelease ++ marked '+' v.build

def text (v : Version) : String := String.ofList v.chars

instance : ToString Version := ⟨text⟩

def tag (v : Version) : String := "v" ++ v.text

def branch (v : Version) : String :=
  String.ofList ('v' :: numeral v.major ++ '.' :: numeral v.minor)

/-- Patch releases reuse the branch that the first release of their line created. -/
def isPatch (v : Version) : Bool := v.patch != 0

@[simp] theorem toList_text (v : Version) : v.text.toList = v.chars := by simp [text]

end Version

end ImageRelease
