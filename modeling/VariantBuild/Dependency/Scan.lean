import VariantBuild.Dependency.Rule
import VariantBuild.Manifest.Store
import VariantBuild.Text.Lossy
/-!
# Dependency scans

The dependencies of all entries are found anew by asking a compiler for the make rule of each source.
Only when every scan has succeeded are the manifests written.
-/

namespace VariantBuild

/-- Finds the make rule of a source with its include paths. -/
abbrev Scanner := Path → List Path → Activity BuildError String

namespace Dependency

/-- The command that prints the make rule of a source. -/
def command (program : String) (directory source : Path) (includePaths : List Path) : Command :=
  ⟨program, "-MM" :: source.text :: includePaths.map fun p => "-I" ++ p.text, directory, []⟩

/-- Asks a compiler for make rules, in a directory. -/
def compilerScanner (host : Host) (program : String) (directory : Path) : Scanner :=
  fun source includePaths => do
    let outcome ← .start host (command program directory source includePaths) (.spawn program)
    if outcome.exit.isSuccess then return Text.ofBytes outcome.output
    else throw (.dependencyScan source (Text.trim (Text.ofBytes outcome.errors)))

/-- An entry with the dependencies that a scan finds. -/
def rescanEntry (scan : Scanner) (entry : SourceEntry) : Activity BuildError SourceEntry := do
  let output ← scan entry.1 entry.2.includePaths
  match unexpectedFirst? entry.1 output with
  | some first => .notify (.unexpectedFirst entry.1 first)
  | none => pure ()
  return (entry.1, { entry.2 with dependencies := dependencies output })

/-- A set with all its entries scanned, in order. -/
def rescanSet (scan : Scanner) (set : ManifestSet) : Activity BuildError ManifestSet := do
  .notify (.scanning set.name)
  return { set with entries := ← set.entries.mapM (rescanEntry scan) }

/-- Scans every entry of every set and saves the sets; the result counts the entries. -/
def regenerate (scan : Scanner) (store : ManifestStore) : Activity BuildError Nat := do
  let store := { store with sets := ← store.sets.mapM (rescanSet scan) }
  store.save
  .notify (.rescanned store.fileCount)
  return store.fileCount

end Dependency

end VariantBuild
