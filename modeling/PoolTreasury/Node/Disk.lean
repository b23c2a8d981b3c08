import PoolTreasury.Node.Files
import PoolTreasury.Store.Seed

/-! # The disk a node runs on

Besides files and directories, a disk holds tree stores, each in a directory of its
own. Opening a store where one is kept finds it as it was left, its id generator moved
on as after any reopening; opening one where nothing is creates it. A path that is a
file, or runs through one, cannot hold a store.
-/

namespace PoolTreasury

structure Disk where
  files : FileTree := {}
  /-- Stores by the normalized path of their directory. -/
  stores : List (String × TreeTables) := []

namespace Disk

/-- The files and directories, each store's directory among them. -/
def tree (d : Disk) : FileTree :=
  { d.files with directories := d.files.directories ++ d.stores.map (·.1) }

/-- Whether a path is a file or runs through one. -/
def blocked (d : Disk) (path : String) : Bool :=
  let p := FileTree.normalize path
  d.files.files.any fun (f, _) => f == p || (FileTree.parents p).contains f

/-- The store at a path, opened. -/
def openStore (d : Disk) (path : String) : Except StoreError TreeTables :=
  match (d.stores.find? (·.1 == FileTree.normalize path)).map Prod.snd with
  | some t => .ok t.reopen
  | none =>
    if d.blocked path then
      .error (.database "Failed to open database: IO error: Not a directory (os error 20)")
    else .ok {}

/-- The disk with a store left at a path, in place of what was there. -/
def keepStore (d : Disk) (path : String) (t : TreeTables) : Disk :=
  let p := FileTree.normalize path
  { d with stores := (d.stores.filter (·.1 != p)) ++ [(p, t)] }

end Disk

end PoolTreasury
