import VariantBuild.CommandLine.Arguments
import VariantBuild.CommandLine.Report
/-!
# The command line

`run` is the whole program as a function of its host, its environment, its arguments and the world. The
working directory is where configuration is searched from.
-/

namespace VariantBuild.CommandLine

/-- What a run ends with: the exit code, what it prints, and why it failed. -/
structure Ending where
  exitCode : Nat
  output : String
  /-- Messages from the outermost context to the first cause; empty on success. -/
  failure : List String
deriving DecidableEq, Repr

namespace Ending

/-- A successful end. -/
def success (output : String) : Ending := ⟨0, output, []⟩

/-- A failure after some output. -/
def failed (output : String) (failure : List String) : Ending := ⟨1, output, failure⟩

end Ending

/-- What is printed for help. -/
def helpText : String :=
  lines ["Incremental, variant-aware builds for C projects", "",
    "Usage: objmill [OPTIONS] [VARIANT]", "       objmill <COMMAND>", "",
    "Commands: redep, clean, variants, help"]

/-- What is printed for the version. -/
def versionText : String :=
  lines ["objmill 0.1.0"]

/-- The end of a run whose arguments ask for nothing to be run. -/
def stopped : Stop → Ending
  | .usage => ⟨2, "", []⟩
  | .help => .success helpText
  | .version => .success versionText

/-- The text, unless the run is quiet. -/
def unlessQuiet (isQuiet : Bool) (text : String) : String :=
  if isQuiet then "" else text

/-- Builds a variant and reports. -/
def build (host : Host) (c : Config) (a : BuildArguments) (isQuiet : Bool) (w : World) :
    Ending × World :=
  match a.resolve with
  | .error e => (.failed "" [e.message], w)
  | .ok (variant, options) =>
    match Builder.ofConfig c variant options with
    | .error e => (.failed "" ["Failed to set up variant '" ++ variant ++ "'", e.message], w)
    | .ok b =>
      let b := if a.jobs.isSome then b.withJobs a.jobs else b
      match (b.run host).perform w with
      | (.ok r, w) =>
        (.success (if a.json then lines [(buildJson r).compact]
          else unlessQuiet isQuiet (buildSummary r)), w)
      | (.error e, w) =>
        (.failed (if a.json then lines [(failureJson variant e).compact] else failureSummary e)
          ["Build failed", e.message], w)

/-- Scans dependencies and reports. -/
def redep (host : Host) (c : Config) (isQuiet : Bool) (w : World) : Ending × World :=
  match ((Project.ofConfig c).rescan host).perform w with
  | (.ok n, w) => (.success (unlessQuiet isQuiet (rescanSummary n)), w)
  | (.error e, w) => (.failed "" ["Failed to recalculate dependencies", e.message], w)

/-- Removes objects and reports. -/
def clean (c : Config) (isQuiet : Bool) (w : World) : Ending × World :=
  match (Project.ofConfig c).clean.perform w with
  | (.ok n, w) => (.success (unlessQuiet isQuiet (cleanSummary n)), w)
  | (.error e, w) => (.failed "" ["Failed to remove cached objects", e.message], w)

/-- Lists the variants. -/
def variants (c : Config) (json : Bool) : Ending :=
  match Variant.all c.project.variants with
  | .error e => .failed "" [e.message]
  | .ok vs => .success (if json then lines [(variantsJson vs).compact] else variantTable vs)

/-- Runs the program. -/
def run (host : Host) (env : Environment) (arguments : List String) (w : World) :
    Ending × World :=
  match Invocation.parse env arguments with
  | .error stop => (stopped stop, w)
  | .ok invocation =>
    match Config.loadFromDirectory w.disk env env.userFile? w.disk.herePath with
    | .error e => (.failed "" ("Failed to load configuration" :: e.chain), w)
    | .ok c =>
      match invocation.request with
      | .build a => build host c a invocation.isQuiet w
      | .redep => redep host c invocation.isQuiet w
      | .clean => clean c invocation.isQuiet w
      | .variants json => (variants c json, w)

end VariantBuild.CommandLine
