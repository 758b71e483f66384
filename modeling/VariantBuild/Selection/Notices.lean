import VariantBuild.Selection.Basic
/-!
# What selection tells

The notices of a resolution, in the order of its steps: why an entry is skipped, which requirement
starts everything over, and why an object is made again. They follow `Selector.attempt` and
`Selector.settle` step by step and decide nothing.
-/

namespace VariantBuild

namespace Selector

/-- The notices of one attempt, up to its end or the first error. -/
def attemptNotices (s : Selector) (d : Disk) (f : FlagSet) : List SourceEntry → List Notice
  | [] => []
  | entry :: rest =>
    match judge f entry.2.flags with
    | .skipped .buildType =>
      .skippedByBuildType entry.1 f.buildType :: s.attemptNotices d f rest
    | .skipped (.flags group) =>
      .skippedByFlags entry.1 group.text :: s.attemptNotices d f rest
    | .required token => [.restarted token entry.1]
    | .admitted _ =>
      match s.staleness d f entry with
      | .error _ => []
      | .ok none => s.attemptNotices d f rest
      | .ok (some reason) => .rebuilding entry.1 reason.message :: s.attemptNotices d f rest

/-- The notices of all attempts. -/
def settleNotices (s : Selector) (d : Disk) (entries : List SourceEntry) (allowed : Nat)
    (f : FlagSet) : List Notice :=
  let f := f.pruneWidths
  s.attemptNotices d f entries ++
    match s.attempt d f entries, allowed with
    | .ok (.restart g), allowed + 1 => s.settleNotices d entries allowed g
    | _, _ => []

/-- The notices of a resolution. -/
def resolveNotices (s : Selector) (d : Disk) (sets : List ManifestSet) (f : FlagSet) :
    List Notice :=
  s.settleNotices d (ManifestSet.allEntries sets) (ManifestSet.useTokens sets).length f

end Selector

end VariantBuild
