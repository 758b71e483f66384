import VariantBuild.Config.Project
import VariantBuild.Error
import VariantBuild.Variant.Basic
/-!
# Variants and their settings

A configured variant starts from the one that it inherits, or from the built-in one of its name, or
from a plain one; its settings then replace what they name, except that flags are appended. A variant
that inherits takes its own name as build type unless it sets another. The chain of inheritance may
not come back to a name on it, which bounds it by the number of configured variants.
-/

namespace VariantBuild

namespace Variant

/-- The variant with settings applied: flag lists are appended, all else is replaced. -/
def merge (v : Variant) (s : VariantSettings) : Variant :=
  { name := v.name
    buildType := s.buildType.getD v.buildType
    compiler := s.compiler.getD v.compiler
    finalTool := s.finalTool.getD v.finalTool
    flags := v.flags ++ s.flags.getD []
    endFlags := v.endFlags ++ s.endFlags.getD []
    packages := s.packages.getD v.packages
    excludedManifests := s.excludedManifests.getD v.excludedManifests
    output := s.output.or v.output }

/-- The variant under another name, which also becomes its build type. -/
def rename (v : Variant) (name : String) : Variant :=
  { v with name, buildType := name }

/-- How many configured names are not on the chain yet. -/
def unseen (t : VariantTable) (seen : List String) : Nat :=
  (t.names.filter fun n => !seen.contains n).length

/-- A configured name that joins the chain leaves fewer names that are not on it. -/
theorem unseen_cons_lt {t : VariantTable} {seen : List String} {name : String}
    (h : name ∈ t.names) (hs : name ∉ seen) : unseen t (name :: seen) < unseen t seen := by
  have step : t.names.filter (fun n => !(name :: seen).contains n) =
      (t.names.filter fun n => !seen.contains n).filter (· ≠ name) := by
    simp [List.filter_filter]
  rw [unseen, step]
  exact List.length_filter_lt_length_iff_exists.2 ⟨name, by simp [h, hs], by simp⟩

/-- Follows the chain of inheritance from a name; `seen` holds the names on it so far, latest
first. -/
def resolveFrom (t : VariantTable) (seen : List String) (name : String) :
    Except BuildError Variant :=
  if _ : name ∈ seen then .error (.variantCycle (seen.getLast?.getD "") name)
  else
    match _ : t.get? name with
    | none =>
      match builtin? name with
      | some v => .ok v
      | none => .error (.unknownVariant name)
    | some s =>
      match s.inherits with
      | some parent =>
        match resolveFrom t (name :: seen) parent with
        | .error e => .error e
        | .ok base => .ok ((base.rename name).merge s)
      | none => .ok (((builtin? name).getD (plain name)).merge s)
termination_by unseen t seen
decreasing_by exact unseen_cons_lt (VariantTable.mem_names_of_get? ‹_›) ‹_›

/-- The variant with a name. -/
def resolve (t : VariantTable) (name : String) : Except BuildError Variant :=
  resolveFrom t [] name

/-- Drops repetitions from a sorted list. -/
def dropRepeated : List String → List String
  | [] => []
  | [x] => [x]
  | x :: y :: rest => if x = y then dropRepeated (y :: rest) else x :: dropRepeated (y :: rest)

/-- The names of all variants, in order and once each. -/
def allNames (t : VariantTable) : List String :=
  dropRepeated ((builtinNames ++ t.names).mergeSort fun a b => a ≤ b)

/-- Every built-in and configured variant, by name. -/
def all (t : VariantTable) : Except BuildError (List Variant) :=
  (allNames t).mapM (resolve t)

end Variant

end VariantBuild
