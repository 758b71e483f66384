import VariantBuild.Disk.Basic
/-!
# Configuration errors

Why settings cannot be used, by cause.
-/

namespace VariantBuild

/-- Why settings cannot be used. -/
inductive ConfigError where
  | notFound (file : Path)
  | unreadable (cause : ReadError)
  | invalidToml (file : Path)
  | emptyVariantName
  | invalidValue (field reason : String)
deriving DecidableEq, Repr

namespace ConfigError

/-- The error in words. -/
def message : ConfigError → String
  | notFound file => "Configuration file not found: " ++ file.text
  | unreadable cause => "Failed to read configuration file: " ++ cause.message
  | invalidToml file => "Invalid TOML syntax in " ++ file.text
  | emptyVariantName => "Invalid configuration: variant name cannot be empty"
  | invalidValue field reason => "Invalid value for '" ++ field ++ "': " ++ reason

/-- The error in words, followed by what caused it. -/
def chain (e : ConfigError) : List String :=
  e.message ::
    match e with
    | unreadable cause => [cause.message]
    | _ => []

end ConfigError

end VariantBuild
