import VariantBuild.Error
/-!
# Staleness

An object is stale when it does not exist or is older than its source or one of its dependencies. The
check looks at the object, then the source, then the dependencies in order, and stops at the first
that is not in order: that one gives the reason, or the error if it cannot be queried at all. Equal
times count as up to date.
-/

namespace VariantBuild

/-- Why an object must be made again. -/
inductive StaleReason where
  | missingObject
  | sourceNewer
  | dependencyNewer (dependency : Path)
  | missingDependency (dependency : Path)
deriving DecidableEq, Repr

/-- The reason in words. -/
def StaleReason.message : StaleReason → String
  | missingObject => "object file does not exist"
  | sourceNewer => "object file is older than the source"
  | dependencyNewer p => "dependency " ++ p.text ++ " changed"
  | missingDependency p => "dependency " ++ p.text ++ " is missing"

namespace Staleness

/-- The first dependency that is not in order, seen from an object of a given time. -/
def checkDependencies (d : Disk) (objectTime : Time) :
    List Path → Except BuildError (Option StaleReason)
  | [] => .ok none
  | p :: ps =>
    match d.modified p with
    | .ok t => if objectTime < t then .ok (some (.dependencyNewer p))
      else checkDependencies d objectTime ps
    | .error .notFound => .ok (some (.missingDependency p))
    | .error e => .error (.io p e)

/-- Whether an object must be made again, and why. -/
def check (d : Disk) (source object : Path) (dependencies : List Path) :
    Except BuildError (Option StaleReason) :=
  match d.modified object with
  | .error .notFound => .ok (some .missingObject)
  | .error e => .error (.io object e)
  | .ok objectTime =>
    match d.modified source with
    | .error e => .error (.io source e)
    | .ok sourceTime =>
      if objectTime < sourceTime then .ok (some .sourceNewer)
      else checkDependencies d objectTime dependencies

end Staleness

end VariantBuild
