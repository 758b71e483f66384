import VariantBuild.CommandLine.Program
/-!
# The program

The thin layer around `CommandLine.run`. It pictures the real disk as a `Disk`, runs the command line
on the picture, and carries the changes over to the real disk. Only settings and manifests are ever
looked into, so of all other files the times are enough.

No program is started from here: a request to start one gets the answer that a program gets which is
not installed. What needs no other program works in full, and a build tells what it could not start.
-/

namespace VariantBuild.CommandLine

/-- A host without programs. -/
def bareHost : Host where
  run := fun _ _ => .error .notFound
  order := fun _ n => List.range n
  order_perm := fun _ _ => .rfl

/-- The variables of this run. -/
def readEnvironment : IO Environment := do
  return {
    cc := ← IO.getEnv "OBJMILL_CC"
    fincc := ← IO.getEnv "OBJMILL_FINCC"
    jobs := ← IO.getEnv "OBJMILL_JOBS"
    buildDirectory := ← IO.getEnv "OBJMILL_BUILD_DIR"
    json := ← IO.getEnv "OBJMILL_JSON"
    home := (← IO.getEnv "HOME").map Path.mk }

/-! ## The picture of the disk -/

/-- Where an absolute path leads by its spelling alone. -/
def locationOf (p : Path) : Location :=
  p.pieces.foldl Disk.step []

/-- Whether the contents of a file with this name matter. -/
def isDocument (name : String) : Bool :=
  ["json", "toml"].any fun ext => Path.extension? ⟨name⟩ = some ext

/-- A point in time, in nanoseconds. -/
def timeOf (t : IO.FS.SystemTime) : Time :=
  t.sec * 1000000000 + t.nsec.toNat

/-- The real node at a location, if there is one that can be read. -/
def readNode (l : Location) : IO (Option Node) := do
  let place := (← IO.currentDir) / (Path.ofNames l).text
  try
    let info ← place.metadata
    let time := timeOf info.modified
    match info.type with
    | .dir => return some (.directory time)
    | .file =>
      if isDocument (l.getLast?.getD "") then
        return some (.file (← IO.FS.readBinFile place) time)
      else return some (.file .empty time)
    | _ => return none
  catch _ => return none

/-- The real nodes at and below a location, down to a depth. -/
def readTree : Nat → Location → IO (List (Location × Node))
  | 0, _ => return []
  | depth + 1, l => do
    match ← readNode l with
    | none => return []
    | some (.file contents time) => return [(l, .file contents time)]
    | some (.directory time) =>
      let entries ← try ((← IO.currentDir) / (Path.ofNames l).text).readDir catch _ => pure #[]
      let inner ← entries.toList.mapM fun entry => readTree depth (l ++ [entry.fileName])
      return (l, .directory time) :: inner.flatten

/-- How deep a project's directories may be nested. -/
def greatestDepth : Nat := 64

/-- The real nodes on the way down to a location, with the project files beside the way. -/
def readWay (l : Location) : IO (List (Location × Node)) := do
  let places := (List.range (l.length + 1)).map l.take
  let nodes ← (places ++ places.map (· ++ [projectFileName])).mapM fun m =>
    return (← readNode m).map (m, ·)
  return nodes.filterMap id

/-- The locations that lie in no other one of a list. -/
def outermost (ls : List Location) : List Location :=
  (ls.filter fun l => !ls.any fun m => m ≠ l && m.isPrefixOf l).eraseDups

/-- A disk of nodes; what is written on it is newer than all of them. -/
def diskOf (here : Location) (nodes : List (Location × Node)) : Disk :=
  ⟨nodes, here, nodes.foldl (fun t (_, n) => max t (n.modified + 1)) 0⟩

/-- The places that a configuration uses. -/
def placesOf (c : Config) : List Location :=
  outermost ([c.root, c.buildDirectory, c.cacheDirectory].map locationOf)

/-- The picture for a run: what leads to the configuration, and what the configuration leads to. -/
def readDisk (env : Environment) : IO Disk := do
  let here := locationOf ⟨(← IO.currentDir).toString⟩
  let user ← match env.userFile? with
    | some p => readWay (locationOf p)
    | none => pure []
  let surroundings := (← readWay here) ++ user
  match Config.loadFromDirectory (diskOf here surroundings) env env.userFile? (Path.ofNames here) with
  | .error _ => return diskOf here surroundings
  | .ok c =>
    let places := placesOf c
    let trees ← places.mapM (readTree greatestDepth)
    let ways ← places.mapM readWay
    let others := (surroundings ++ ways.flatten).filter fun (l, _) =>
      !places.any fun m => m.isPrefixOf l
    return diskOf here (trees.flatten ++ others)

/-- Carries what differs between two pictures over to the real disk. -/
def carryOver (before after : Disk) : IO Unit := do
  for (l, n) in after.nodes.reverse do
    if before.node? l ≠ some n then
      let place := (← IO.currentDir) / (Path.ofNames l).text
      match n with
      | .directory _ => IO.FS.createDirAll place
      | .file contents _ => IO.FS.writeBinFile place contents
  for (l, n) in before.nodes do
    if n.isFile ∧ (after.node? l).isNone then
      IO.FS.removeFile ((← IO.currentDir) / (Path.ofNames l).text)

end VariantBuild.CommandLine

open VariantBuild VariantBuild.CommandLine in
/-- Runs the command line in the working directory. -/
def main (arguments : List String) : IO UInt32 := do
  let env ← readEnvironment
  let before ← readDisk env
  let (ending, world) := run bareHost env arguments (.ofDisk before)
  carryOver before world.disk
  (← IO.getStdout).putStr ending.output
  unless ending.failure.isEmpty do
    (← IO.getStderr).putStrLn (failureText ending.failure)
  return ending.exitCode.toUInt32
