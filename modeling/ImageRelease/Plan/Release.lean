import ImageRelease.ReleaseNotes
import ImageRelease.Edit.File
import ImageRelease.Plan.Build

/-!
Cutting a release. Nothing is changed before the checkout is known to be clean, the version to be one,
and the release notes to mention it. Then the release branch is entered, the manifest and the version
file are edited and committed, and the main branch is entered again.
-/
namespace ImageRelease

namespace Plan

def requireClean : Plan Unit := do
  let clean ← Git.isClean
  if clean then pure () else fail .dirtyCheckout

/-- Stops unless the release notes mention the version, there are none, or they are to be skipped. -/
def checkNotes (setup : Setup) (skip : Bool) (v : Version) : Plan Unit :=
  if skip then notify (.warning "Skipping release notes check (--skip-release-notes)")
  else do
    let path := setup.config.releaseNotes
    let found ← ofExcept (ReleaseNotes.check (← files) (setup.pathOf path) v)
    match found with
    | .mentioned => notify (.detail "Release notes mention this version")
    | .noFile =>
      notify (.warning ("No release notes at " ++ path ++ ", skipping release notes check"))

/-- Enters the release branch; only a release that is no patch creates it. -/
def enterBranch (v : Version) : Plan Unit :=
  if v.isPatch then Git.checkout v.branch else Git.branchOff v.branch

def changeFile (setup : Setup) (path : String) (rs : List Edit.Replacement) : Plan Unit :=
  if setup.dryRun then notify (.item ("would update " ++ path))
  else do
    let (changed, updated) ←
      ofExcept (Edit.editFile rs (setup.pathOf path) (← files))
    replaceFiles updated
    if changed = 0 then notify (.warning (path ++ ": nothing to update"))
    else notify (.detail (path ++ ": " ++ toString changed ++ " line(s) updated"))

def formatCommand (versionFile : String) : Command :=
  (Command.of "gofmt" ["-w", versionFile]).echoed

def commitMessage (v : Version) : String := "Automated update for release " ++ v.tag

/-- What has to hold before a release: then the version is known, and still nothing has changed. -/
def clear (setup : Setup) (request : ReleaseRequest) : Plan Version := do
  requireClean
  let v ← ofExcept ((Version.parse request.version).mapError (.badVersion request.version))
  notify (.section_ ("Release " ++ v.tag))
  checkNotes setup request.skipNotes v
  return v

def cut (setup : Setup) (v : Version) : Plan Unit := do
  enterBranch v
  changeFile setup setup.config.manifest (Edit.pinImages v)
  changeFile setup setup.config.versionFile [Edit.assignVersion v]
  let _ ← command (formatCommand setup.config.versionFile)
  Git.commit (commitMessage v)
  Git.checkout setup.config.mainBranch
  notify (.success ("Release " ++ v.tag ++ " committed on branch " ++ v.branch))

def release (setup : Setup) (request : ReleaseRequest) : Plan Unit := do
  let v ← clear setup request
  cut setup v

end Plan

end ImageRelease
