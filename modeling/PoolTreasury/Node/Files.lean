import PoolTreasury.Node.Config

/-! # Files a node reads

The part of a file system a node sees: text files and directories, by absolute path.
Reading a path that names a directory, or runs through a file, or names nothing, fails
with the system's own text for that case.
-/

namespace PoolTreasury

/-- Why a file could not be read, as the system says it. -/
inductive FileError where
  | notFound
  | isDirectory
  | notDirectory
deriving DecidableEq, Repr

def FileError.message : FileError → String
  | .notFound => "No such file or directory (os error 2)"
  | .isDirectory => "Is a directory (os error 21)"
  | .notDirectory => "Not a directory (os error 20)"

structure FileTree where
  files : List (String × String) := []
  directories : List String := []

namespace FileTree

/-- A path without trailing slashes, except the root. -/
def normalize (path : String) : String :=
  let trimmed := String.ofList (path.toList.reverse.dropWhile (· == '/')).reverse
  if trimmed.isEmpty && path.startsWith "/" then "/" else trimmed

/-- The directories a path runs through, from the outermost. -/
def parents (path : String) : List String :=
  let parts := (normalize path).splitOn "/"
  (List.range (parts.length - 1)).map fun i => "/".intercalate (parts.take (i + 1))

def isDirectory (t : FileTree) (path : String) : Bool :=
  let p := normalize path
  p == "/" || t.directories.any (fun d => d == p || (parents d).contains p) ||
    t.files.any fun (f, _) => (parents f).contains p

def read (t : FileTree) (path : String) : Except FileError String :=
  let p := normalize path
  if (parents p).any fun d => t.files.any (·.1 == d) then .error .notDirectory
  else match t.files.find? (·.1 == p) with
    | some (_, text) => if path.endsWith "/" then .error .notDirectory else .ok text
    | none => if t.isDirectory p then .error .isDirectory else .error .notFound

end FileTree

/-- A configuration read from a file and validated. -/
def NodeConfig.load (files : FileTree) (path : String) : Except ConfigError NodeConfig := do
  let text ← (files.read path).mapError fun e => ConfigError.io path e.message
  fromToml text

end PoolTreasury
