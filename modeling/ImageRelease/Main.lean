import ImageRelease.Program

/-!
The program on the command line. The files that a run may read are loaded first and those that it
changed are written afterwards. No processes are started here: the machine has no tools, so a request
goes as far as it can without them.
-/
namespace ImageRelease.Main

def locationOf (workingDirectory : Location) (path : String) : Location :=
  let start := if Path.isAbsolute path then [] else workingDirectory
  (Path.parts path).foldl
    (fun l part =>
      if part = "" || part = "." then l else if part = ".." then l.dropLast else l ++ [part])
    start

def loadFile (tree : FileTree) (path : String) : IO FileTree := do
  let l := locationOf tree.workingDirectory path
  try
    let content ← IO.FS.readBinFile path
    return tree.putDeep l (.file content)
  catch
    | .noFileOrDirectory .. => return tree
    | _ => return tree.putDeep l .directory

/-- The paths that a request reads besides the configuration. -/
def readPaths (a : Arguments) (config : Config) : List String :=
  [config.manifest, config.versionFile, config.releaseNotes].map (Path.join a.workspace)

def loadTree (env : Environment) (words : List String) : IO FileTree := do
  let workingDirectory := locationOf [] (← IO.currentDir).toString
  let empty : FileTree := { workingDirectory, entries := [] }
  let tree := empty.putDeep workingDirectory .directory
  match CommandLine.parse env words with
  | .error _ => return tree
  | .ok a =>
    let tree ← loadFile (tree.putDeep (locationOf workingDirectory a.workspace) .directory) a.configPath
    match Config.load tree env a.configPath with
    | .error _ => return tree
    | .ok config => (readPaths a config).foldlM loadFile tree

def loadEnvironment : IO Environment := do
  let names := [Environment.workspace, Environment.tag, Environment.dockerUser,
    Environment.buildLimit, Environment.commandLimit]
  names.filterMapM fun name => do
    return (← IO.getEnv name).map fun value => (name, value)

def palette : IO Palette := do
  match ← IO.getEnv "NO_COLOR", ← IO.getEnv "TERM" with
  | none, some terminal => return if terminal = "dumb" then .plain else .colored
  | _, _ => return .plain

def storeChanges (before after : FileTree) : IO Unit :=
  (FileTree.changes before after).forM fun (l, content) =>
    match content with
    | some bytes => IO.FS.writeBinFile ("/" ++ "/".intercalate l) bytes
    | none => IO.FS.removeFile ("/" ++ "/".intercalate l)

def run (words : List String) : IO UInt32 := do
  let env ← loadEnvironment
  let tree ← loadTree env words
  let ended := Program.run (← palette) env { tools := [], hasUtilities := false } tree words
  IO.print ended.outcome.stdout
  IO.eprint ended.outcome.stderr
  storeChanges tree ended.outcome.files
  return ended.code.toUInt32

end ImageRelease.Main

def main (words : List String) : IO UInt32 := ImageRelease.Main.run words
