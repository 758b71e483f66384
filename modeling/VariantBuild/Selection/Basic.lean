import VariantBuild.Compile
import VariantBuild.Manifest.Basic
import VariantBuild.ObjectCache
/-!
# Selection

Selection decides which files take part in the link and which of them must be compiled. One attempt
walks all entries in declared order under a fixed flag set. An entry's directives are evaluated from
left to right: they admit the entry, skip it, or require a flag that is missing. A missing flag ends
the attempt; the flag is added and everything starts over, so that in the end every file has been
judged under one and the same flag set.

Each restart adds a flag that some `@use` directive names, so without conflicts there are at most as
many restarts as there are such flags. More of them can only come from requirements that push each
other out of the exclusive architecture width, and then resolution gives up.
-/

namespace VariantBuild

/-- Why an entry does not take part. -/
inductive Skip where
  | buildType
  | flags (group : Group)
deriving DecidableEq, Repr

/-- What the directives of an entry decide. -/
inductive Verdict where
  | admitted (extraArguments : List String)
  | skipped (cause : Skip)
  | required (token : String)
deriving DecidableEq, Repr

namespace Verdict

/-- Puts one more argument in front of those of an admitted entry. -/
def withArgument (argument : String) : Verdict → Verdict
  | admitted rest => admitted (argument :: rest)
  | v => v

end Verdict

/-- Evaluates directives from left to right. -/
def judge (f : FlagSet) : List Directive → Verdict
  | [] => .admitted []
  | .flags group :: rest =>
    if group.admitsBuildType f.buildType then judge f rest else .skipped .buildType
  | .options group :: rest =>
    if group.admitsFlags f then judge f rest else .skipped (.flags group)
  | .use token :: rest => if f.has token then judge f rest else .required token
  | .raw argument :: rest => (judge f rest).withArgument argument

/-- The files of one stable attempt. -/
structure Selection where
  /-- All files that are linked, in declared order. -/
  included : List Path
  /-- Those whose objects are stale. -/
  toCompile : List CompileTask
deriving DecidableEq, Repr, Inhabited

/-- How an attempt ends. -/
inductive Attempt where
  | stable (selection : Selection)
  /-- A required flag was missing; here it is added. -/
  | restart (flags : FlagSet)
deriving DecidableEq, Repr

/-- A stable selection, the flags it was made under, and how often it was started over. -/
structure Resolution where
  flags : FlagSet
  selection : Selection
  restarts : Nat
deriving DecidableEq, Repr

/-- Where manifest paths start and where objects are kept. -/
structure Selector where
  root : Path
  cache : ObjectCache

namespace Selector

/-- Whether the object of an admitted entry is stale under a flag set. -/
def staleness (s : Selector) (d : Disk) (f : FlagSet) (entry : SourceEntry) :
    Except BuildError (Option StaleReason) :=
  Staleness.check d (s.root.join entry.1) (s.cache.objectPath entry.1 f)
    (entry.2.dependencies.map s.root.join)

/-- The task that makes the object of an entry. -/
def task (s : Selector) (f : FlagSet) (entry : SourceEntry) (extraArguments : List String)
    (reason : StaleReason) : CompileTask :=
  ⟨entry.1, extraArguments, entry.2.includePaths, s.cache.objectPath entry.1 f, entry.2.tasks,
    reason⟩

/-- A selection with one more entry in front, which is compiled if there is a reason. -/
def prepend (s : Selector) (f : FlagSet) (entry : SourceEntry) (extraArguments : List String)
    (reason : Option StaleReason) (rest : Selection) : Selection :=
  ⟨entry.1 :: rest.included,
    (reason.map (s.task f entry extraArguments)).toList ++ rest.toCompile⟩

/-- One pass over all entries under a fixed flag set. Files are queried entry by entry, so a file that
cannot be queried ends the attempt before a later directive can. -/
def attempt (s : Selector) (d : Disk) (f : FlagSet) : List SourceEntry → Except BuildError Attempt
  | [] => .ok (.stable ⟨[], []⟩)
  | entry :: rest =>
    match judge f entry.2.flags with
    | .skipped _ => s.attempt d f rest
    | .required token => .ok (.restart (f.add token))
    | .admitted extraArguments =>
      match s.staleness d f entry with
      | .error e => .error e
      | .ok reason =>
        match s.attempt d f rest with
        | .error e => .error e
        | .ok (.restart g) => .ok (.restart g)
        | .ok (.stable rest) => .ok (.stable (s.prepend f entry extraArguments reason rest))

/-- Attempts until one is stable. `allowed` is how many restarts may still happen and `restarts` how
many have happened; the width is pruned before every attempt. -/
def settle (s : Selector) (d : Disk) (entries : List SourceEntry) (allowed restarts : Nat)
    (f : FlagSet) : Except BuildError Resolution :=
  let f := f.pruneWidths
  match s.attempt d f entries with
  | .error e => .error e
  | .ok (.stable selection) => .ok ⟨f.pruneWidths, selection, restarts⟩
  | .ok (.restart g) =>
    match allowed with
    | 0 => .error (.diverged (restarts + 1))
    | allowed + 1 => s.settle d entries allowed (restarts + 1) g

/-- Settles the flags of a build: at most one restart for every flag that some entry requires. -/
def resolve (s : Selector) (d : Disk) (sets : List ManifestSet) (f : FlagSet) :
    Except BuildError Resolution :=
  s.settle d (ManifestSet.allEntries sets) (ManifestSet.useTokens sets).length 0 f

/-- The objects of the included files, in link order. -/
def objectPaths (s : Selector) (selection : Selection) (f : FlagSet) : List Path :=
  selection.included.map (s.cache.objectPath · f)

end Selector

end VariantBuild
