import VariantBuild.Config.Decode
import VariantBuild.Config.Error
/-!
# Configuration files

A project file is read, decoded and validated; a user file is read and decoded. Each fault has its
own error, and there is no partial result.
-/

namespace VariantBuild

namespace VariantTable

/-- The first fault of a table, in the order of its names. -/
def validate : VariantTable → Except ConfigError Unit
  | [] => .ok ()
  | (name, s) :: rest =>
    if name.isEmpty then .error .emptyVariantName
    else if s.buildType = some "" then
      .error (.invalidValue ("variants." ++ name ++ ".build_type") "cannot be empty")
    else validate rest

end VariantTable

namespace ProjectSettings

/-- No settings. -/
def empty : ProjectSettings := ⟨none, none, none, []⟩

/-- Refuses a job limit of zero, variants without a name and empty build types. -/
def validate (s : ProjectSettings) : Except ConfigError Unit :=
  if (s.build.bind (·.jobs)) = some 0 then
    .error (.invalidValue "build.jobs" "must be at least 1")
  else s.variants.validate

/-- The settings that a text describes; `file` is named in errors. -/
def parse (file : Path) (text : String) : Except ConfigError ProjectSettings :=
  match (Toml.parse text).bind Config.readProject with
  | none => .error (.invalidToml file)
  | some s =>
    match s.validate with
    | .ok () => .ok s
    | .error e => .error e

/-- The settings in a file. -/
def load (d : Disk) (file : Path) : Except ConfigError ProjectSettings :=
  if d.contains file then
    match d.readText file with
    | .ok text => parse file text
    | .error cause => .error (.unreadable cause)
  else .error (.notFound file)

end ProjectSettings

namespace UserSettings

/-- No settings. -/
def empty : UserSettings := ⟨none⟩

/-- The settings that a text describes. -/
def parse (file : Path) (text : String) : Except ConfigError UserSettings :=
  match (Toml.parse text).bind Config.readUser with
  | some s => .ok s
  | none => .error (.invalidToml file)

/-- The settings in a file. -/
def load (d : Disk) (file : Path) : Except ConfigError UserSettings :=
  match d.readText file with
  | .ok text => parse file text
  | .error (.system .notFound) => .error (.notFound file)
  | .error cause => .error (.unreadable cause)

end UserSettings

end VariantBuild
