import ImageRelease.Version.Parse

/-!
The order of versions: by the three numbers, then a pre-release is below its release, then by the
pre-release identifiers, then by the build identifiers. It refines the precedence of Semantic
Versioning, which stops before build metadata.
-/
namespace ImageRelease.Version

/-- Numbers without leading zeros: the longer one is greater. -/
def compareNumerals (a b : Identifier) : Ordering :=
  (compare a.length b.length).then (compare a b)

/-- Numeric identifiers by value, others by text, numeric ones lower. -/
def comparePrereleaseIdentifier (a b : Identifier) : Ordering :=
  match isNumeric a, isNumeric b with
  | true, true => compareNumerals a b
  | true, false => .lt
  | false, true => .gt
  | false, false => compare a b

/-- A release is above its pre-releases; of two lists that agree as far as both go the longer is
greater. -/
def comparePrerelease : List Identifier → List Identifier → Ordering
  | [], [] => .eq
  | [], _ => .gt
  | _, [] => .lt
  | a, b => List.compareLex comparePrereleaseIdentifier a b

/-- As for pre-releases, but numbers may have leading zeros: of equal values the one with more of
them is greater. -/
def compareBuildIdentifier (a b : Identifier) : Ordering :=
  match isNumeric a, isNumeric b with
  | true, true =>
    (compareNumerals (a.dropWhile (· == '0')) (b.dropWhile (· == '0'))).then
      (compare a.length b.length)
  | true, false => .lt
  | false, true => .gt
  | false, false => compare a b

def compareBuild (a b : List Identifier) : Ordering := List.compareLex compareBuildIdentifier a b

def comparePrecedence (a b : Version) : Ordering :=
  (compare a.major b.major).then <| (compare a.minor b.minor).then <|
    (compare a.patch b.patch).then (comparePrerelease a.prerelease b.prerelease)

def compare (a b : Version) : Ordering :=
  (comparePrecedence a b).then (compareBuild a.build b.build)

instance : Ord Version := ⟨Version.compare⟩

/-- Ascending; equal versions keep their places. -/
def sort (versions : List Version) : List Version :=
  versions.mergeSort fun a b => (Version.compare a b).isLE

end ImageRelease.Version
