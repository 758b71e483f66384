import VariantBuild.Config.Loader
import VariantBuild.Dependency.Scan
import VariantBuild.Link
import VariantBuild.PreBuild
import VariantBuild.Selection.Basic
import VariantBuild.Variant.Flags
import VariantBuild.Variant.Inheritance
/-!
# Builds

A build loads the manifests, asks for package flags, settles the flags and the files, runs pre-build
tasks, compiles what is stale, and links. Each phase starts only when all before it have succeeded;
up to the end of resolution nothing but package queries is started and nothing on the disk changes.

Cleaning and dependency scans need no variant.
-/

namespace VariantBuild

/-- Where a project keeps things, and how it is worked on. -/
structure Project where
  /-- Manifest paths and the output start here. -/
  root : Path
  manifestDirectory : Path
  cacheDirectory : Path
  jobs : Option Nat
  failOnTaskError : Bool
  /-- More flags that tell objects apart. -/
  trackedFlags : List String
  /-- The compiler that scans dependencies. -/
  depCc : String
  archiver : String
deriving DecidableEq, Repr

namespace Project

/-- The compiler that scans dependencies unless another is configured. -/
def defaultDepCc : String := "gcc"

/-- The project at a root, without configuration. -/
def new (root : Path) : Project :=
  let manifests := root.joinText "build"
  ⟨root, manifests, manifests.joinText "objs", none, false, [], defaultDepCc,
    Linker.defaultArchiver⟩

/-- The project of a configuration. -/
def ofConfig (c : Config) : Project :=
  ⟨c.root, c.buildDirectory, c.cacheDirectory, c.jobs, c.failOnTaskError, c.trackedFlags,
    c.toolchain.depCc.getD defaultDepCc, c.toolchain.archiver.getD Linker.defaultArchiver⟩

/-- The object cache; there may be too many tracked flags. -/
def cache (p : Project) : Except BuildError ObjectCache := do
  return ⟨p.cacheDirectory, ← KeyDeriver.default.withTracked p.trackedFlags⟩

/-- Removes all objects and counts them. -/
def clean (p : Project) : Activity BuildError Nat :=
  ObjectCache.clean p.cacheDirectory

/-- Finds all dependencies anew with any scanner, and counts the entries. -/
def rescanWith (scan : Scanner) (p : Project) : Activity BuildError Nat := do
  let store ← .ofDisk fun d => ManifestStore.load d p.manifestDirectory
  Dependency.regenerate scan store

/-- Finds all dependencies anew with the project's compiler. -/
def rescan (host : Host) (p : Project) : Activity BuildError Nat :=
  rescanWith (Dependency.compilerScanner host p.depCc p.root) p

end Project

/-- Numbers about a build. -/
structure BuildStats where
  /-- Files that were linked. -/
  totalFiles : Nat
  /-- Files that were compiled. -/
  compiledFiles : Nat
  /-- Attempts that were given up for a missing flag. -/
  restarts : Nat
  /-- Pre-build commands that were run. -/
  tasksRun : Nat
deriving DecidableEq, Repr

/-- What a successful build tells. -/
structure BuildResult where
  variant : String
  output : Path
  /-- The settled flags. -/
  flags : FlagSet
  selection : Selection
  stats : BuildStats
deriving DecidableEq, Repr

/-- What to build: a project, a variant and options. -/
structure Builder where
  project : Project
  variant : Variant
  options : BuildOptions

namespace Builder

/-- The builder of a configured variant. Configured tools replace the default compiler only. -/
def ofConfig (c : Config) (name : String) (options : BuildOptions) : Except BuildError Builder := do
  let v ← Variant.resolve c.project.variants name
  return ⟨.ofConfig c, v.applyToolchain c.toolchain.cc c.toolchain.fincc, options⟩

/-- The builder with another job limit. -/
def withJobs (b : Builder) (jobs : Option Nat) : Builder :=
  { b with project := { b.project with jobs } }

/-- The selector of the project. -/
def selector (b : Builder) : Except BuildError Selector := do
  return ⟨b.project.root, ← b.project.cache⟩

/-- Settles flags and files under the flags of the packages. -/
def resolve (b : Builder) (sets : List ManifestSet) (pkg : PackageFlags) (d : Disk) :
    Except BuildError (Selector × Resolution) := do
  let s ← b.selector
  return (s, ← s.resolve d sets (b.variant.initialFlags b.options pkg))

/-- The task runner of a build. -/
def taskRunner (b : Builder) (f : FlagSet) : TaskRunner :=
  ⟨b.project.root, f.buildType, b.project.failOnTaskError⟩

/-- The compiler of a build. -/
def compiler (b : Builder) (f : FlagSet) : Compiler :=
  ⟨f.compiler, b.project.root, b.project.jobs⟩

/-- The linker of a build. -/
def linker (b : Builder) : Linker :=
  ⟨b.variant.finalToolOf b.options, b.project.archiver, b.project.root⟩

/-- Compiles a queue; any failure is an error. An empty queue needs no cache directory. -/
def compile (host : Host) (b : Builder) (cache : ObjectCache) (f : FlagSet)
    (tasks : List CompileTask) : Activity BuildError CompileReport := do
  if tasks.isEmpty then return default
  else
    cache.ensureDirectory
    let report ← .ofStep ((b.compiler f).compile host f tasks)
    if report.isSuccess then return report else throw (.compilation report.failures)

/-- Runs a build. -/
def run (host : Host) (b : Builder) : Activity BuildError BuildResult := do
  let store ← .ofDisk fun d => ManifestStore.load d b.project.manifestDirectory
  let pkg ← PackageFlags.query host b.variant.packages
  let (s, resolution) ← .ofDisk (b.resolve (store.active b.variant.excludedManifests) pkg)
  let f := resolution.flags
  let tasks ← (b.taskRunner f).runAll host resolution.selection.toCompile
  let report ← b.compile host s.cache f resolution.selection.toCompile
  let output := b.variant.outputPath b.options
  b.linker.run host f (b.variant.finalFlags b.options pkg)
    (s.objectPaths resolution.selection f) output
  return {
    variant := b.variant.name
    output
    flags := f
    selection := resolution.selection
    stats := ⟨resolution.selection.included.length, report.completed, resolution.restarts,
      tasks.executed⟩ }

end Builder

end VariantBuild
