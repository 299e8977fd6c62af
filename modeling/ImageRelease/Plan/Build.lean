import ImageRelease.Docker
import ImageRelease.Git
import ImageRelease.Request

/-!
Building images: one for every selected binary, stamped with the current commit and branch, after the
unit tests have passed.
-/
namespace ImageRelease

/-- Where a plan works, how the project is laid out, and whether changes are only announced. -/
structure Setup where
  workspace : String
  config : Config
  dryRun : Bool

def Setup.pathOf (s : Setup) (path : String) : String := Path.join s.workspace path

namespace Plan

def testCommand : Command := (Command.of "go" ["test", "./..."]).echoed.patient

def runTests (request : ImageRequest) : Plan Unit :=
  if request.skipTests then notify (.warning "Skipping unit tests (--skip-tests)")
  else do
    let _ ← command testCommand

def produceEach (dockerfileDir commit branch : String) : List Docker.ImageName → Plan Unit
  | [] => pure ()
  | image :: images => do
    let _ ← command (Docker.build image commit branch dockerfileDir)
    produceEach dockerfileDir commit branch images

def produce (setup : Setup) (request : ImageRequest) (binaries : List Binary) :
    Plan (List Docker.ImageName) := do
  Docker.checkDaemon
  runTests request
  let commit ← Git.describe
  let branch ← Git.branch
  notify (.detail ("commit " ++ commit ++ " on branch " ++ branch))
  let images := binaries.map request.imageName
  produceEach setup.config.dockerfileDir commit branch images
  return images

def notifyAll : List Notice → Plan Unit
  | [] => pure ()
  | n :: notices => do
    notify n
    notifyAll notices

def build (setup : Setup) (request : ImageRequest) : Plan Unit := do
  let binaries ← ofExcept request.selection
  notify (.section_ "Build")
  let images ← produce setup request binaries
  notify (.success ("Built " ++ toString images.length ++ " image(s)"))
  notifyAll (images.map fun image => .item image.text)

end Plan

end ImageRelease
