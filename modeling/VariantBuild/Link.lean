import VariantBuild.Command
import VariantBuild.Error
import VariantBuild.Text.Blank
/-!
# Linking

The last step makes the output from the objects of all included files. A tool that has the archiver's
name makes an archive; every other tool links.
-/

namespace VariantBuild

/-- How the output is made. -/
inductive LinkMode where
  | link
  | archive
deriving DecidableEq, Repr

namespace LinkMode

/-- The mode of a tool, by its file name; a tool without one is compared as it stands. -/
def ofTool (tool archiver : String) : LinkMode :=
  if (Path.fileName? ⟨tool⟩).getD tool = archiver then archive else link

end LinkMode

/-- Runs the final tool. -/
structure Linker where
  tool : String
  archiver : String
  directory : Path

namespace Linker

/-- The archiver unless another is configured. -/
def defaultArchiver : String := "ar"

/-- The mode of the linker. -/
def mode (l : Linker) : LinkMode :=
  .ofTool l.tool l.archiver

/-- The tool's arguments. -/
def arguments (l : Linker) (f : FlagSet) (endFlags : List String) (objects : List Path)
    (output : Path) : List String :=
  match l.mode with
  | .link =>
    Text.wordsOfAll f.tokens ++ ["-o", output.text] ++ objects.map (·.text) ++
      Text.wordsOfAll endFlags
  | .archive => ["rcs", output.text] ++ objects.map (·.text)

/-- The final command. -/
def command (l : Linker) (f : FlagSet) (endFlags : List String) (objects : List Path)
    (output : Path) : Command :=
  ⟨l.tool, l.arguments f endFlags objects output, l.directory, []⟩

/-- Makes the output. -/
def run (host : Host) (l : Linker) (f : FlagSet) (endFlags : List String) (objects : List Path)
    (output : Path) : Activity BuildError Unit := do
  let outcome ← .start host (l.command f endFlags objects output) (.spawn l.tool)
  if outcome.exit.isSuccess then return ()
  else throw (.link l.tool output (outcome.exit.codeOr (-1)))

end Linker

end VariantBuild
