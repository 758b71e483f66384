import VariantBuild.Staleness
import VariantBuild.Command
import VariantBuild.Text.Blank
/-!
# Compiling

Every queued file gets a compiler process of its own. A failing one never stops the others, and the
report lists failures in the order of the queue, whatever order the processes took effect in. A
compiler that cannot be started counts as a failure of its file.
-/

namespace VariantBuild

/-- One file to compile. -/
structure CompileTask where
  source : Path
  /-- Raw arguments for this file only. -/
  extraArguments : List String
  includePaths : List Path
  /-- Where the object goes. -/
  object : Path
  /-- Commands to run before compiling. -/
  preBuild : List String
  reason : StaleReason
deriving DecidableEq, Repr

namespace CompileTask

/-- The compiler's arguments: the words of all flags, the source, the words of the extra arguments,
the object, the include paths. -/
def arguments (t : CompileTask) (f : FlagSet) : List String :=
  Text.wordsOfAll f.tokens ++ [t.source.text] ++ Text.wordsOfAll t.extraArguments ++
    ["-c", "-o", t.object.text] ++ t.includePaths.map fun p => "-I" ++ p.text

end CompileTask

/-- What came of a batch of tasks. -/
structure CompileReport where
  /-- How many tasks were attempted. -/
  completed : Nat
  /-- The sources that failed, in queue order. -/
  failures : List Path
deriving DecidableEq, Repr, Inhabited

namespace CompileReport

/-- Whether all tasks succeeded. -/
def isSuccess (r : CompileReport) : Bool :=
  r.failures.isEmpty

/-- How many tasks succeeded. -/
def succeeded (r : CompileReport) : Nat :=
  r.completed - r.failures.length

end CompileReport

/-- Compiles files with one program, in one directory, with at most `jobs` processes at a time. -/
structure Compiler where
  program : String
  directory : Path
  jobs : Option Nat

namespace Compiler

/-- The limit that counts; zero is none. -/
def limit (c : Compiler) : Option Nat :=
  c.jobs.filter (0 < ·)

/-- The command for a task. -/
def command (c : Compiler) (f : FlagSet) (t : CompileTask) : Command :=
  ⟨c.program, t.arguments f, c.directory, []⟩

/-- Compiles one file; the result is whether it succeeded. -/
def compileOne (host : Host) (c : Compiler) (f : FlagSet) (t : CompileTask) (w : World) :
    Bool × World :=
  match w.start host (c.command f t) with
  | (.ok outcome, w) => (outcome.exit.isSuccess, w)
  | (.error _, w) => (false, w)

/-- Compiles the tasks at the given places of the queue, in that order; the result says which places
failed. -/
def compileAt (host : Host) (c : Compiler) (f : FlagSet) (tasks : List CompileTask) :
    List Nat → World → List Nat × World
  | [], w => ([], w)
  | i :: rest, w =>
    match tasks[i]? with
    | none => compileAt host c f tasks rest w
    | some t =>
      let (success, w) := compileOne host c f t w
      let (failed, w) := compileAt host c f tasks rest w
      (if success then failed else i :: failed, w)

/-- The report on a queue of which some places failed. -/
def report (tasks : List CompileTask) (failed : List Nat) : CompileReport :=
  ⟨tasks.length, (tasks.zipIdx.filter fun (_, i) => failed.contains i).map (·.1.source)⟩

/-- Compiles a queue of files. -/
def compile (host : Host) (c : Compiler) (f : FlagSet) (tasks : List CompileTask) (w : World) :
    CompileReport × World :=
  let (failed, w) := compileAt host c f tasks (host.order c.limit tasks.length) w
  (report tasks failed, w)

end Compiler

end VariantBuild
