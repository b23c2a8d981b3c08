import PoolTreasury.Store.Trees

/-! # Store images

A tree store written out as text, so that a store outlives the program that used it. The
first line is the count of the id generator; each further line is one entry of one tree:
the tree's name, then the key and the value in hexadecimal, separated by blanks. The image
of a store is kept in a file inside the store's directory.
-/

namespace PoolTreasury

namespace TreeTables

/-- The trees of a store, by name. -/
def named (t : TreeTables) : List (String × ByteTree) :=
  [("users", t.users), ("users_by_address", t.usersByAddress), ("pools", t.pools), ("stakes", t.stakes),
   ("stakes_by_pool", t.stakesByPool), ("active_stakes", t.activeStakes), ("operations", t.operations),
   ("meta", t.metadata)]

/-- The store as text: the generator's count, then every entry of every tree. -/
def image (t : TreeTables) : String :=
  let entries := t.named.flatMap fun (name, tree) =>
    tree.entries.map fun (key, value) => name ++ " " ++ hexOfBytes key ++ " " ++ hexOfBytes value
  String.join ((toString t.generated :: entries).map (· ++ "\n"))

/-- One entry line of an image written into a store. -/
def readImageLine (t : TreeTables) (line : String) : Option TreeTables :=
  match line.splitOn " " with
  | [name, key, value] => do t.writeRaw name (← bytesOfHex? key) (← bytesOfHex? value)
  | _ => none

/-- The store an image holds; `none` for text that is not an image. -/
def ofImage? (text : String) : Option TreeTables :=
  match (text.splitOn "\n").filter (!·.isEmpty) with
  | [] => none
  | first :: entries => do
    let generated ← first.toNat?
    entries.foldlM readImageLine { generated }

end TreeTables

/-- The file that holds the image of the store kept in a directory. -/
def storeImagePath (directory : String) : String := directory ++ "/tree-store"

end PoolTreasury
