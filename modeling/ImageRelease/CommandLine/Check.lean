import ImageRelease.CommandLine.Arguments
import ImageRelease.Text.Blank

/-!
Checks on what a command line asks for. A tag and a user must be such that the name of an image can be
taken apart again.
-/
namespace ImageRelease

def isTagStart (c : Char) : Bool := c.isAlphanum || c == '_'

def isTagChar (c : Char) : Bool := isTagStart c || c == '.' || c == '-'

def tagLimit : Nat := 128

/-- A tag starts with a letter, digit or underscore, and goes on with these, dots and dashes. -/
def isTag (tag : String) : Bool :=
  match tag.toList with
  | [] => false
  | c :: rest => isTagStart c && rest.all isTagChar && tag.utf8ByteSize ≤ tagLimit

/-- A user is not empty and has no blanks and no colons. -/
def isUser (user : String) : Bool :=
  !user.isEmpty && user.toList.all fun c => !Text.isBlank c && c != ':'

def ImageRequest.check (r : ImageRequest) : Except Failure Unit :=
  if !isTag r.tag then .error (.badArguments ("Invalid docker tag '" ++ r.tag ++ "'"))
  else if !isUser r.dockerUser then
    .error (.badArguments ("Invalid docker user '" ++ r.dockerUser ++ "'"))
  else .ok ()

def Request.check : Request → Except Failure Unit
  | build images | push images => images.check
  | release _ => .ok ()

def Arguments.check (a : Arguments) : Except Failure Unit := a.request.check

end ImageRelease
