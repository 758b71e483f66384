import VariantBuild.Directive
import VariantBuild.Json.Basic
import VariantBuild.Path
/-!
# Manifests

A manifest set lists source files with what is needed to select and compile them, in declared order.
Its `description` and `archive` keys are markers, kept as they are and never read as files.
-/

namespace VariantBuild

/-- What a manifest says about one source file. -/
structure FileEntry where
  /-- Files whose change makes the object stale. -/
  dependencies : List Path
  /-- Directives and raw arguments, evaluated from left to right. -/
  flags : List Directive
  includePaths : List Path
  /-- Shell commands to run before the file is compiled. -/
  tasks : List String
deriving DecidableEq, Repr, Inhabited

/-- The flags that an entry may require. -/
def FileEntry.useTokens (e : FileEntry) : List String :=
  e.flags.filterMap Directive.requires?

/-- Whether two lists of paths name the same places. -/
def samePlaces : List Path → List Path → Bool
  | [], [] => true
  | p :: ps, q :: qs => decide (p.SamePlace q) && samePlaces ps qs
  | _, _ => false

/-- Whether two entries say the same, whatever the spelling of their paths. -/
def FileEntry.agrees (a b : FileEntry) : Bool :=
  samePlaces a.dependencies b.dependencies && a.flags == b.flags &&
    samePlaces a.includePaths b.includePaths && a.tasks == b.tasks

/-- A source path and its entry. -/
abbrev SourceEntry := Path × FileEntry

/-- A named manifest. -/
structure ManifestSet where
  name : String
  description : Option Json
  archive : Option Json
  entries : List SourceEntry

namespace ManifestSet

/-- A set without markers and entries. -/
def new (name : String) : ManifestSet :=
  ⟨name, none, none, []⟩

/-- Whether two lists of entries say the same. -/
def entriesAgree : List SourceEntry → List SourceEntry → Bool
  | [], [] => true
  | a :: as, b :: bs => decide (a.1.SamePlace b.1) && a.2.agrees b.2 && entriesAgree as bs
  | _, _ => false

/-- Whether two sets say the same, whatever the spelling of their paths. -/
def agrees (a b : ManifestSet) : Bool :=
  a.name == b.name && a.description == b.description && a.archive == b.archive &&
    entriesAgree a.entries b.entries

/-- The file that holds a set, inside the manifest directory. -/
def fileName (name : String) : String :=
  name ++ "-files.json"

/-- The entries of several sets, in order. -/
def allEntries (sets : List ManifestSet) : List SourceEntry :=
  sets.flatMap (·.entries)

/-- The strings of a list, each once: an earlier one gives way to a later one. -/
def distinct : List String → List String
  | [] => []
  | x :: xs => if x ∈ xs then distinct xs else x :: distinct xs

@[simp] theorem mem_distinct {x : String} {xs : List String} : x ∈ distinct xs ↔ x ∈ xs := by
  induction xs with
  | nil => simp [distinct]
  | cons y ys ih =>
    by_cases h : y ∈ ys
    · simp only [distinct, h, if_true, ih, List.mem_cons]
      constructor
      · exact Or.inr
      · rintro (rfl | hx)
        · exact h
        · exact hx
    · simp [distinct, h, ih]

theorem nodup_distinct (xs : List String) : (distinct xs).Nodup := by
  induction xs with
  | nil => simp [distinct]
  | cons y ys ih => by_cases h : y ∈ ys <;> simp [distinct, h, ih]

/-- All flags that the entries of several sets may require, each once. -/
def useTokens (sets : List ManifestSet) : List String :=
  distinct ((allEntries sets).flatMap (·.2.useTokens))

end ManifestSet

end VariantBuild
