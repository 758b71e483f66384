import VariantBuild.Path
/-!
# Project settings

The settings of a project file, as they stand there: a setting that is left out is absent, and
defaults are a matter of whoever asks. Variant settings are listed by name.
-/

namespace VariantBuild

/-- The name of a project file. -/
def projectFileName : String := "objmill.toml"

/-- Compilers and helper programs. -/
structure ToolchainSettings where
  cc : Option String
  fincc : Option String
  /-- The compiler that scans dependencies. -/
  depCc : Option String
  /-- A final tool with this name makes an archive. -/
  archiver : Option String
deriving DecidableEq, Repr, Inhabited

/-- Where things are, and how to work. -/
structure BuildSettings where
  /-- The manifest directory. -/
  directory : Option Path
  cacheDirectory : Option Path
  /-- How many compilers may run at a time. -/
  jobs : Option Nat
  failOnTaskError : Option Bool
deriving DecidableEq, Repr, Inhabited

/-- Settings of the object cache. -/
structure CacheSettings where
  trackedFlags : List String
deriving DecidableEq, Repr, Inhabited

/-- The settings of one variant. -/
structure VariantSettings where
  /-- The variant to start from. -/
  inherits : Option String
  buildType : Option String
  compiler : Option String
  finalTool : Option String
  flags : Option (List String)
  endFlags : Option (List String)
  packages : Option (List String)
  /-- Places in the manifest index to leave out. -/
  excludedManifests : Option (List Nat)
  output : Option Path
deriving DecidableEq, Repr, Inhabited

/-- Variant settings by name. -/
abbrev VariantTable := List (String × VariantSettings)

/-- The settings of a project. -/
structure ProjectSettings where
  toolchain : Option ToolchainSettings
  build : Option BuildSettings
  cache : Option CacheSettings
  variants : VariantTable
deriving DecidableEq, Repr, Inhabited

/-- The settings of a user, for all projects. -/
structure UserSettings where
  toolchain : Option ToolchainSettings
deriving DecidableEq, Repr, Inhabited

namespace VariantTable

/-- The settings of a variant. -/
def get? (t : VariantTable) (name : String) : Option VariantSettings :=
  t.lookup name

/-- The names in the table. -/
def names (t : VariantTable) : List String :=
  t.map (·.1)

theorem mem_names_of_get? {t : VariantTable} {name : String} {s : VariantSettings}
    (h : t.get? name = some s) : name ∈ t.names := by
  induction t with
  | nil => simp [get?] at h
  | cons x t ih =>
    obtain ⟨n, v⟩ := x
    by_cases hn : name = n
    · simp [names, hn]
    · have hb : (name == n) = false := by simpa using hn
      have h' : get? t name = some s := by simpa [get?, List.lookup_cons, hb] using h
      exact List.mem_cons_of_mem _ (ih h')

/-- The table in the order of the names. -/
def sorted (t : VariantTable) : VariantTable :=
  t.mergeSort fun a b => a.1 ≤ b.1

end VariantTable

end VariantBuild
