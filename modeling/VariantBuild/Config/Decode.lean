import VariantBuild.Config.Project
import VariantBuild.Toml.Parser
/-!
# Settings from TOML

A group of settings is a table with known keys only, or an array with a value for each setting in
order. Every value has to have the right type. `none` stands for a document that does not describe
settings, whatever is wrong with it.
-/

namespace VariantBuild

namespace Config

/-! ## Values -/

/-- A string. -/
def readString : Toml → Option String
  | .string s => some s
  | _ => none

/-- A string that is a path. -/
def readPath (v : Toml) : Option Path :=
  (readString v).map Path.mk

/-- A natural number. -/
def readNat : Toml → Option Nat
  | .integer n => if 0 ≤ n then some n.toNat else none
  | _ => none

/-- A truth value. -/
def readBool : Toml → Option Bool
  | .boolean b => some b
  | _ => none

/-- An array with items of one kind; the tables of double-bracket headers are one, too. -/
def readList {α : Type} (item : Toml → Option α) : Toml → Option (List α)
  | .array items => items.mapM item
  | .tables items => items.mapM item
  | _ => none

/-- A setting that may be absent. -/
def optional {α : Type} (read : Toml → Option α) : Option Toml → Option (Option α)
  | none => some none
  | some v => (read v).map some

/-! ## Groups of settings -/

/-- Values of settings by name. -/
abbrev Fields := String → Option Toml

/-- The fields of a table that has no other keys than the given ones. -/
def fieldsOfEntries (names : List String) (entries : Toml.Entries) : Option Fields :=
  if entries.all fun (key, _) => names.contains key then some fun name => entries.lookup name
  else none

/-- The fields of a list of values, at least `least` of them; what comes after the last name does not
count. -/
def fieldsOfItems (names : List String) (least : Nat) (items : List Toml) : Option Fields :=
  if items.length < least then none else some fun name => (names.zip items).lookup name

/-- The fields of a group. -/
def fieldsOf (names : List String) (least : Nat) : Toml → Option Fields
  | .table _ entries => fieldsOfEntries names entries
  | .array items => fieldsOfItems names least items
  | .tables items => fieldsOfItems names least items
  | _ => none

/-- The keys of `[toolchain]`. -/
def toolchainKeys : List String := ["cc", "fincc", "dep_cc", "archiver"]

/-- Reads `[toolchain]`. -/
def readToolchain (v : Toml) : Option ToolchainSettings := do
  let field ← fieldsOf toolchainKeys 4 v
  return {
    cc := ← optional readString (field "cc")
    fincc := ← optional readString (field "fincc")
    depCc := ← optional readString (field "dep_cc")
    archiver := ← optional readString (field "archiver") }

/-- The keys of `[build]`. -/
def buildKeys : List String := ["dir", "cache_dir", "jobs", "fail_on_task_error"]

/-- Reads `[build]`. -/
def readBuild (v : Toml) : Option BuildSettings := do
  let field ← fieldsOf buildKeys 4 v
  return {
    directory := ← optional readPath (field "dir")
    cacheDirectory := ← optional readPath (field "cache_dir")
    jobs := ← optional readNat (field "jobs")
    failOnTaskError := ← optional readBool (field "fail_on_task_error") }

/-- Reads `[cache]`. -/
def readCache (v : Toml) : Option CacheSettings := do
  let field ← fieldsOf ["tracked_flags"] 0 v
  return { trackedFlags := (← optional (readList readString) (field "tracked_flags")).getD [] }

/-- The keys of a variant. -/
def variantKeys : List String :=
  ["inherits", "build_type", "compiler", "final_tool", "flags", "end_flags", "pkg_config",
   "exclude_manifests", "output"]

/-- Reads the settings of a variant. -/
def readVariant (v : Toml) : Option VariantSettings := do
  let field ← fieldsOf variantKeys 9 v
  return {
    inherits := ← optional readString (field "inherits")
    buildType := ← optional readString (field "build_type")
    compiler := ← optional readString (field "compiler")
    finalTool := ← optional readString (field "final_tool")
    flags := ← optional (readList readString) (field "flags")
    endFlags := ← optional (readList readString) (field "end_flags")
    packages := ← optional (readList readString) (field "pkg_config")
    excludedManifests := ← optional (readList readNat) (field "exclude_manifests")
    output := ← optional readPath (field "output") }

/-- Reads `[variants]`: a table with a variant under every key. -/
def readVariants : Toml → Option VariantTable
  | .table _ entries => do
    let table : VariantTable ← entries.mapM fun (name, v) => (readVariant v).map (name, ·)
    return table.sorted
  | _ => none

/-- Reads the settings of a project. -/
def readProject (entries : Toml.Entries) : Option ProjectSettings := do
  let field ← fieldsOfEntries ["toolchain", "build", "cache", "variants"] entries
  return {
    toolchain := ← optional readToolchain (field "toolchain")
    build := ← optional readBuild (field "build")
    cache := ← optional readCache (field "cache")
    variants := (← optional readVariants (field "variants")).getD [] }

/-- Reads the settings of a user. -/
def readUser (entries : Toml.Entries) : Option UserSettings := do
  let field ← fieldsOfEntries ["toolchain"] entries
  return { toolchain := ← optional readToolchain (field "toolchain") }

end Config

end VariantBuild
