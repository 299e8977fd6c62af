import ImageRelease.Plan.Build

/-!
Pushing images: each selected binary is built and pushed before the next one is begun, so a failure
leaves the images before it published.
-/
namespace ImageRelease.Plan

def pushEach : List Docker.ImageName → Plan Unit
  | [] => pure ()
  | image :: images => do
    let _ ← command (Docker.push image)
    notify (.success ("Pushed " ++ image.text))
    pushEach images

def publishEach (setup : Setup) (request : ImageRequest) : List Binary → Plan Unit
  | [] => pure ()
  | b :: binaries => do
    notify (.detail ("Building " ++ b.name))
    let images ← produce setup request [b]
    pushEach images
    publishEach setup request binaries

def push (setup : Setup) (request : ImageRequest) : Plan Unit := do
  let binaries ← ofExcept request.selection
  notify (.section_ "Push")
  publishEach setup request binaries

end ImageRelease.Plan
