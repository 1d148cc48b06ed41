import PlatformRules.Console.Run

namespace PlatformRules.Console

def Arguments.paths (a : Arguments) : List (Path × Bool) :=
  let path := match a.command with
    | .evaluate path _ _ | .check path _ => [(path, true)]
    | .tokens path _ | .format path _ => [(path, false)]
    | .host .. => []
  (a.config.toList ++ a.logFile.toList).map (·, false) ++ path

def fault : IO.Error → FileError
  | .permissionDenied .. => .system "Permission denied" 13
  | _ => .system "Input/output error" 5

partial def load (tree : FileTree) (path : Path) (below : Bool) : IO FileTree := do
  let target := (← IO.currentDir) / path.display
  if ← target.isDir then
    let mut tree := tree.add (FileTree.join path [[]]) {}
    if below then
      for entry in ← target.readDir do
        tree ← load tree (FileTree.join path [Utf8.encode entry.fileName]) below
    return tree
  else if ← target.pathExists then
    match ← (IO.FS.readBinFile target).toBaseIO with
    | .ok bytes => return tree.add path { bytes := bytes.toList }
    | .error e => return tree.add path { unreadable := fault e }
  else return tree

def pathOf (p : Place) : String :=
  let names := p.map Path.display
  match names with
  | "/" :: names => "/" ++ "/".intercalate names
  | names => "/".intercalate names

def save (old new : FileTree) : IO Unit := do
  for folder in new.folders do
    if !old.hasFolder folder then IO.FS.createDirAll (pathOf folder)
  for (place, f) in new.files do
    if old.file? place != some f then
      -- What a file holds that could not be read is not known: it is only added to.
      let mode := if f.unreadable.isSome then .append else .write
      IO.FS.withFile (pathOf place) mode (·.write f.bytes.toByteArray)

def readClock : IO Instant := do
  let (_, path) ← IO.FS.createTempFile
  let time := (← path.metadata).modified
  IO.FS.removeFile path
  return ⟨time.sec.toNat, time.nsec.toNat⟩

def readHost : IO HostProbe := do
  let probe : HostProbe := {}
  let path := (← IO.currentDir) / probe.releasePath
  if ← path.pathExists then
    let release ← IO.FS.readBinFile path
    return { probe with system := Machine.linuxName, release := some release.toList }
  else return probe

def readEnvironment : IO Environment :=
  Settings.variableNames.filterMapM fun name => do
    return (← IO.getEnv name).map (name, ·)

end PlatformRules.Console

open PlatformRules PlatformRules.Console in
def main (words : List String) : IO UInt32 := do
  let setting : Setting :=
    { environment := ← readEnvironment, host := ← readHost, now := ← readClock }
  let words := words.map Utf8.encode
  let paths := match Console.read words with
    | .ok a => a.paths
    | .error _ => []
  let files ← paths.foldlM (fun tree (path, below) => load tree path below) {}
  let (status, screen) := Console.run setting files words
  save files screen.files
  (← IO.getStdout).putStr screen.output
  (← IO.getStderr).putStr screen.errors
  return UInt32.ofNat status
