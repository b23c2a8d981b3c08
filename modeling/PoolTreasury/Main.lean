import PoolTreasury.Node.Program
import PoolTreasury.Store.Image
import Std.Time.Format

/-! # The `pool-node` command

The outer layer of the program: it reads the files a command line needs (the
configuration file and the image of the store the configuration names), runs the program
on them at the current time, prints what it printed, writes back every store it left and
ends with its status. Requests to the network fail to connect. A node told to `run`
stays up until it is stopped.
-/

namespace PoolTreasury

/-- What the file system holds at a path, as a file tree: the file with its text, the
directory, or the file the path runs through. -/
partial def probePath (path : String) : IO FileTree := do
  try
    let text ← IO.FS.readFile path
    pure { files := [(FileTree.normalize path, text)] }
  catch e =>
    match e with
    | .inappropriateType _ 21 _ => pure { directories := [FileTree.normalize path] }
    | .inappropriateType .. => blockingFile (FileTree.parents path)
    | _ => pure {}
where
  blockingFile : List String → IO FileTree
    | [] => pure {}
    | dir :: deeper => do
      let found ← probePath dir
      if found.files.isEmpty then blockingFile deeper else pure found

def FileTree.merge (a b : FileTree) : FileTree :=
  { files := a.files ++ b.files, directories := a.directories ++ b.directories }

/-- The stores kept in a directory: the one its image holds, if it has one. -/
def storesIn (directory : String) : IO (List (String × TreeTables)) := do
  let image ← try pure (some (← IO.FS.readFile (storeImagePath directory))) catch _ => pure none
  match image.bind TreeTables.ofImage? with
  | some t => pure [(FileTree.normalize directory, t)]
  | none => pure []

/-- Waits until the process is stopped. -/
partial def idle : IO Unit := do
  IO.sleep 60000
  idle

end PoolTreasury

open PoolTreasury in
def main (args : List String) : IO UInt32 := do
  let home := (← IO.getEnv "HOME").getD ""
  let now := Instant.ofNanos (← Std.Time.Timestamp.now).toNanosecondsSinceUnixEpoch.val
  let configFiles ← match configPathFor home args with
    | some path => probePath path
    | none => pure {}
  let (storeFiles, stores) ← match storeDirectoryFor home configFiles args with
    | some directory => pure (← probePath directory, ← storesIn directory)
    | none => pure ({}, [])
  let disk : Disk := { files := configFiles.merge storeFiles, stores }
  let (console, disk) := runPoolNode { disk, home, net := Network.unreachable, now, polls := 1 } args
  IO.print console.stdout
  IO.eprint console.stderr
  for (directory, t) in disk.stores do
    IO.FS.createDirAll directory
    IO.FS.writeFile (storeImagePath directory) t.image
  if console.running then idle
  pure console.code.toUInt32
