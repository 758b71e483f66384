import VariantBuild.Compile
/-!
# Pre-build tasks

Entries may carry shell commands that have to run before their file is compiled. They run once per
build, after the flags have settled, in the order of the queue. Whether a failing command stops the
build is a setting.
-/

namespace VariantBuild

/-- What came of one command. -/
structure TaskResult where
  source : Path
  command : String
  exitCode : Int
deriving DecidableEq, Repr

/-- Whether the command succeeded. -/
def TaskResult.isSuccess (r : TaskResult) : Bool :=
  r.exitCode == 0

/-- Totals of the commands of a build. -/
structure TaskReport where
  executed : Nat
  failed : Nat
deriving DecidableEq, Repr, Inhabited

/-- Runs shell commands in a directory for a build type. -/
structure TaskRunner where
  directory : Path
  buildType : String
  /-- Whether a failing command is an error. -/
  failOnError : Bool

namespace TaskRunner

/-- The variables that every command sees. -/
def environment (r : TaskRunner) (source : Path) : List (String × String) :=
  [("OBJMILL_ROOT", r.directory.text), ("OBJMILL_BUILD_TYPE", r.buildType),
   ("OBJMILL_SOURCE", source.text)]

/-- The process that runs a command. -/
def shell (r : TaskRunner) (source : Path) (command : String) : Command :=
  ⟨"sh", ["-c", command], r.directory, r.environment source⟩

/-- Runs one command for a source. A process that is killed counts as exit code one. -/
def run (host : Host) (r : TaskRunner) (source : Path) (command : String) :
    Activity BuildError TaskResult := do
  let outcome ← .start host (r.shell source command) (.spawn command)
  let exitCode := outcome.exit.codeOr 1
  if r.failOnError ∧ exitCode ≠ 0 then throw (.taskFailed source command exitCode)
  else return ⟨source, command, exitCode⟩

/-- The commands of a queue with their sources, in order. -/
def commands (tasks : List CompileTask) : List (Path × String) :=
  tasks.flatMap fun t => t.preBuild.map fun c => (t.source, c)

/-- Runs commands in order. -/
def runEach (host : Host) (r : TaskRunner) :
    List (Path × String) → Activity BuildError (List TaskResult)
  | [] => pure []
  | (source, command) :: rest => do
    let result ← r.run host source command
    return result :: (← r.runEach host rest)

/-- Totals of results. -/
def report (results : List TaskResult) : TaskReport :=
  ⟨results.length, (results.filter fun t => !t.isSuccess).length⟩

/-- Runs the commands of a queue. -/
def runAll (host : Host) (r : TaskRunner) (tasks : List CompileTask) :
    Activity BuildError TaskReport := do
  return report (← r.runEach host (commands tasks))

end TaskRunner

end VariantBuild
