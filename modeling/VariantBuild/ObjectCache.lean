import VariantBuild.ObjectKey
import VariantBuild.Command
/-!
# The object cache

One directory that holds the objects of all variants, each under the name that its key gives.
-/

namespace VariantBuild

/-- The cache directory and the deriver of object names. -/
structure ObjectCache where
  directory : Path
  deriver : KeyDeriver

namespace ObjectCache

/-- Where the object of a source under a flag set belongs. Only a proof about names looks inside. -/
@[irreducible] def objectPath (c : ObjectCache) (source : Path) (f : FlagSet) : Path :=
  c.directory.joinText (c.deriver.derive source f).fileName

/-- Makes the cache directory. -/
def ensureDirectory (c : ObjectCache) : Activity BuildError Unit :=
  .changeDiskStepwise fun d =>
    match d.makeDirectories c.directory with
    | (.ok (), d) => (.ok (), d)
    | (.error e, d) => (.error (.io c.directory e), d)

/-- Whether a path is that of an object: a regular file with the extension of objects. -/
def isObject (d : Disk) (p : Path) : Bool :=
  d.isFile p && p.extension? == some ObjectKey.objectExtension

/-- Removes a list of files, one after another, and counts them. -/
def removeAll : List Path → Activity BuildError Nat
  | [] => pure 0
  | p :: ps => do
    .changeDisk fun d =>
      match d.remove p with
      | .ok d => .ok d
      | .error e => .error (.io p e)
    return (← removeAll ps) + 1

/-- Removes every object directly inside a directory and counts them; a directory that does not exist
holds none. -/
def clean (directory : Path) : Activity BuildError Nat := do
  let paths ← .ofDisk fun d =>
    match d.list directory with
    | .ok names => .ok ((names.map directory.joinText).filter (isObject d))
    | .error .notFound => .ok []
    | .error e => .error (.io directory e)
  removeAll paths

end ObjectCache

end VariantBuild
