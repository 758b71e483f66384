import VariantBuild.Directive
import VariantBuild.Disk.Basic
/-!
# Build errors

One type for everything that stops a build, by cause; `BuildError.message` has all the wording.
-/

namespace VariantBuild

/-- What is wrong with a manifest file. -/
inductive ManifestFault where
  /-- The text is not JSON, or not of the right shape on the outside. -/
  | malformed
  /-- One entry is not as it should be. -/
  | entry (path : String) (cause : Option DirectiveError)
deriving DecidableEq, Repr

/-- Why a build, a clean or a dependency scan stops. -/
inductive BuildError where
  | manifestRead (path : Path) (cause : ReadError)
  | manifest (name : String) (fault : ManifestFault)
  | directive (error : DirectiveError)
  | unknownVariant (name : String)
  | variantCycle (variant via : String)
  | packages (names : List String) (errors : String)
  | tooManyTracked (count limit : Nat)
  | diverged (restarts : Nat)
  | taskFailed (source : Path) (command : String) (exitCode : Int)
  | spawn (program : String) (cause : SystemError)
  | compilation (failures : List Path)
  | link (tool : String) (output : Path) (status : Int)
  | dependencyScan (source : Path) (errors : String)
  | io (path : Path) (cause : SystemError)
deriving DecidableEq, Repr

/-- The fault in words, after the manifest's name. -/
def ManifestFault.message : ManifestFault → String
  | malformed => ""
  | entry path none => ": entry '" ++ path ++ "'"
  | entry path (some cause) => ": entry '" ++ path ++ "': " ++ cause.message

/-- The error in words. -/
def BuildError.message : BuildError → String
  | manifestRead path cause =>
    "Failed to read manifest at " ++ path.text ++ ": " ++ cause.message
  | manifest name fault => "Malformed manifest '" ++ name ++ "'" ++ fault.message
  | directive error => error.message
  | unknownVariant name => "Unknown variant '" ++ name ++ "'"
  | variantCycle variant via =>
    "Variant '" ++ variant ++ "' inherits from itself through '" ++ via ++ "'"
  | packages names errors =>
    "pkg-config failed for " ++ " ".intercalate names ++ ": " ++ errors
  | tooManyTracked count limit =>
    "Too many tracked flags for the object cache key (" ++ toString count ++ ", at most " ++
      toString limit ++ ")"
  | diverged restarts =>
    "Flag resolution did not settle after " ++ toString restarts ++
      " restarts; check for conflicting @use directives"
  | taskFailed source command exitCode =>
    "Pre-build task for " ++ source.text ++ " failed with exit code " ++ toString exitCode ++ ": " ++
      command
  | spawn program cause => "Failed to run '" ++ program ++ "': " ++ cause.message
  | compilation failures =>
    toString failures.length ++ " file(s) failed to compile: " ++ Path.listText failures
  | link tool output status =>
    "'" ++ tool ++ "' exited with status " ++ toString status ++ " while producing " ++ output.text
  | dependencyScan source errors =>
    "Dependency scan failed for " ++ source.text ++ ": " ++ errors
  | io path cause => "I/O error at " ++ path.text ++ ": " ++ cause.message

end VariantBuild
