import ImageRelease.Binary
import ImageRelease.Docker
import ImageRelease.Failure

/-!
What can be asked for: building images, pushing them, or cutting a release.
-/
namespace ImageRelease

structure ImageRequest where
  binaries : List String
  tag : String
  dockerUser : String
  skipTests : Bool
deriving DecidableEq, Repr

structure ReleaseRequest where
  version : String
  skipNotes : Bool
deriving DecidableEq, Repr

inductive Request where
  | build (images : ImageRequest)
  | push (images : ImageRequest)
  | release (release : ReleaseRequest)
deriving DecidableEq, Repr

def Request.name : Request → String
  | build _ => "build"
  | push _ => "push"
  | release _ => "release"

namespace ImageRequest

def selection (r : ImageRequest) : Except Failure (List Binary) :=
  (Binary.select r.binaries).mapError fun name => .unknownBinary name Binary.names

def imageName (r : ImageRequest) (b : Binary) : Docker.ImageName :=
  { user := r.dockerUser, binary := b, tag := r.tag }

end ImageRequest

end ImageRelease
