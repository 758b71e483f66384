import VariantBuild.Disk.Basic
/-!
# Commands and the world they run in

A build starts programs and changes files. Programs are not modelled: a `Host` says what each command
does to the disk, and statements about builds hold for every host. The `World` is the disk together
with a record of the commands that were started and of the notices that were given, in order.

Compiler processes run side by side. A host therefore also fixes in which order a batch of commands
takes effect; `Host.order` may be any order at all, and may depend on the job limit.
-/

namespace VariantBuild

/-- A program to start: its arguments, the directory it starts in, and the variables added to its
environment. -/
structure Command where
  program : String
  arguments : List String
  directory : Path
  environment : List (String × String)
deriving DecidableEq, Repr

/-- Every text that is handed over to start a command. -/
def Command.texts (c : Command) : List String :=
  c.program :: c.directory.text :: c.arguments ++ c.environment.flatMap fun (name, value) => [name, value]

/-- How a process ends. -/
inductive Exit where
  | code (n : Int)
  | signal (n : Nat)
deriving DecidableEq, Repr

namespace Exit

/-- Only exit code zero counts as success. -/
def isSuccess (e : Exit) : Bool :=
  e == code 0

/-- The exit code, or the given number for a process that was killed. -/
def codeOr (killed : Int) : Exit → Int
  | code n => n
  | signal _ => killed

end Exit

/-- What a finished process leaves besides its files. -/
structure Outcome where
  exit : Exit
  output : List UInt8
  errors : List UInt8

/-- What the surroundings of a build do. -/
structure Host where
  /-- Runs a command on a disk, or says why it cannot be started. -/
  run : Command → Disk → Except SystemError (Outcome × Disk)
  /-- The order in which `n` processes take effect under a job limit. -/
  order : Option Nat → Nat → List Nat
  /-- Every process takes effect once. -/
  order_perm : ∀ jobs n, (order jobs n).Perm (List.range n)

/-- How much a notice matters. -/
inductive Level where
  | debug
  | info
  | warn
deriving DecidableEq, Repr

/-- Something a user may want to know about a run. -/
inductive Notice where
  | skippedByBuildType (source : Path) (buildType : String)
  | skippedByFlags (source : Path) (group : String)
  | restarted (token : String) (source : Path)
  | rebuilding (source : Path) (reason : String)
  | scanning (manifest : String)
  | unexpectedFirst (source : Path) (first : String)
  | rescanned (count : Nat)
deriving DecidableEq, Repr

namespace Notice

/-- The weight of a notice. -/
def level : Notice → Level
  | skippedByBuildType _ _ | skippedByFlags _ _ | rebuilding _ _ | scanning _ => .debug
  | restarted _ _ | rescanned _ => .info
  | unexpectedFirst _ _ => .warn

/-- A notice in words. -/
def message : Notice → String
  | skippedByBuildType source buildType =>
    "Skipping file " ++ source.text ++ " because build type is \"" ++ buildType ++ "\""
  | skippedByFlags source group =>
    "Skipping file " ++ source.text ++ " because active flags do not match \"" ++ group ++ "\""
  | restarted token source =>
    "Recomputing files to compile to account for " ++ token ++ " (required by " ++ source.text ++ ")"
  | rebuilding source reason => "Rebuilding " ++ source.text ++ " because " ++ reason
  | scanning manifest => "Scanning dependencies of manifest '" ++ manifest ++ "'"
  | unexpectedFirst source first =>
    "Dependency scan of " ++ source.text ++ " listed " ++ first ++ " first"
  | rescanned count => "Recalculated dependencies for " ++ toString count ++ " file(s)"

end Notice

/-- The disk and what has happened so far, latest last. -/
structure World where
  disk : Disk
  started : List Command
  notices : List Notice

namespace World

/-- A world in which nothing has happened yet. -/
def ofDisk (d : Disk) : World :=
  ⟨d, [], []⟩

/-- The world after a notice. -/
def notify (w : World) (n : Notice) : World :=
  { w with notices := w.notices ++ [n] }

/-- Starts a command; one that cannot be started leaves no trace. A command with a NUL in it does not
reach the host. -/
def start (host : Host) (c : Command) (w : World) : Except SystemError Outcome × World :=
  if c.texts.any holdsNul then (.error .nulInCommand, w)
  else match host.run c w.disk with
    | .error e => (.error e, w)
    | .ok (outcome, disk) => (.ok outcome, { w with disk, started := w.started ++ [c] })

end World

/-- An activity in the world that may fail; what it did before it failed stays done. -/
abbrev Activity (ε α : Type) := EStateM ε World α

namespace Activity

/-- The result of an activity and the world after it. -/
def perform {ε α : Type} (x : Activity ε α) (w : World) : Except ε α × World :=
  match x.run w with
  | .ok a w => (.ok a, w)
  | .error e w => (.error e, w)

/-- Something that only reads the disk. -/
def ofDisk {ε α : Type} (f : Disk → Except ε α) : Activity ε α := fun w =>
  match f w.disk with
  | .ok a => .ok a w
  | .error e => .error e w

/-- A change of the disk; a failed one changes nothing. -/
def changeDisk {ε : Type} (f : Disk → Except ε Disk) : Activity ε Unit := fun w =>
  match f w.disk with
  | .ok d => .ok () { w with disk := d }
  | .error e => .error e w

/-- A change of the disk in several steps; what was done before one failed stays done. -/
def changeDiskStepwise {ε : Type} (f : Disk → Except ε Unit × Disk) : Activity ε Unit := fun w =>
  match f w.disk with
  | (.ok (), d) => .ok () { w with disk := d }
  | (.error e, d) => .error e { w with disk := d }

/-- Something that always succeeds. -/
def ofStep {ε α : Type} (f : World → α × World) : Activity ε α := fun w =>
  match f w with
  | (a, w) => .ok a w

/-- Gives a notice. -/
def notify {ε : Type} (n : Notice) : Activity ε Unit := fun w =>
  .ok () (w.notify n)

/-- Starts a command; `failed` words the error of one that cannot be started. -/
def start {ε : Type} (host : Host) (c : Command) (failed : SystemError → ε) :
    Activity ε Outcome := fun w =>
  match w.start host c with
  | (.ok outcome, w) => .ok outcome w
  | (.error e, w) => .error (failed e) w

end Activity

end VariantBuild
