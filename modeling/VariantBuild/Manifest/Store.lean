import VariantBuild.Manifest.Codec
import VariantBuild.Command
/-!
# The manifest directory

The file `files.json` names the manifest sets of a project in the order in which they are loaded;
each set has a file of its own beside it. Loading needs all of them. Saving writes every set and
leaves the index alone.
-/

namespace VariantBuild

/-- The loaded sets of a manifest directory. -/
structure ManifestStore where
  directory : Path
  sets : List ManifestSet

namespace ManifestStore

/-- The index file. -/
def indexName : String := "files.json"

/-- The names in an index: an array of strings. -/
def parseIndex (text : String) : Except BuildError (List String) :=
  let fault := BuildError.manifest indexName .malformed
  match Json.parse text with
  | some (.array items) =>
    items.mapM fun
      | .string s => .ok s
      | _ => .error fault
  | _ => .error fault

/-- The text of a manifest file. -/
def readFile (d : Disk) (p : Path) : Except BuildError String :=
  match d.readText p with
  | .ok text => .ok text
  | .error cause => .error (.manifestRead p cause)

/-- Loads the set with a name. -/
def loadSet (d : Disk) (directory : Path) (name : String) : Except BuildError ManifestSet := do
  ManifestSet.parse name (← readFile d (directory.joinText (ManifestSet.fileName name)))

/-- Loads the index and then every set that it names. -/
def load (d : Disk) (directory : Path) : Except BuildError ManifestStore := do
  let names ← parseIndex (← readFile d (directory.joinText indexName))
  return ⟨directory, ← names.mapM (loadSet d directory)⟩

/-- Writes a set to its file. -/
def saveSet (directory : Path) (set : ManifestSet) (d : Disk) : Except BuildError Disk :=
  let p := directory.joinText (ManifestSet.fileName set.name)
  match d.writeText p set.text with
  | .ok d => .ok d
  | .error cause => .error (.io p cause)

/-- Writes all sets, in order. -/
def save (store : ManifestStore) : Activity BuildError Unit :=
  store.sets.forM fun set => .changeDisk (saveSet store.directory set)

/-- The first set with a name. -/
def get? (store : ManifestStore) (name : String) : Option ManifestSet :=
  store.sets.find? (·.name = name)

/-- The sets that take part in a build: all but those at the excluded places of the index. -/
def active (store : ManifestStore) (excluded : List Nat) : List ManifestSet :=
  (store.sets.zipIdx.filter fun (_, i) => !excluded.contains i).map (·.1)

/-- How many entries all sets have together. -/
def fileCount (store : ManifestStore) : Nat :=
  (store.sets.flatMap (·.entries)).length

end ManifestStore

end VariantBuild
