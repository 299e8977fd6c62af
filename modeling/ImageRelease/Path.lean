/-!
Path texts. Joining keeps an absolute right side as it is, and otherwise puts one separator between
the two sides unless the left one is empty or already ends in one.
-/
namespace ImageRelease.Path

def separator : Char := '/'

def isAbsolute (p : String) : Bool := p.toList.head? == some separator

def endsInSeparator (p : String) : Bool := p.toList.getLast? == some separator

def join (base path : String) : String :=
  if isAbsolute path then path
  else if base.isEmpty || endsInSeparator base then base ++ path
  else base ++ "/" ++ path

def parts (p : String) : List String :=
  (p.toList.splitOn separator).map String.ofList

end ImageRelease.Path
