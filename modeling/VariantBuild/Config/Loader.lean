import VariantBuild.Config.Files
import VariantBuild.Numeral
/-!
# Layers of configuration

A configuration is put together from the user's file, the project's file, and the environment; a later
layer wins over an earlier one. The project's file is searched upwards from a directory, and the
directory where it is found is the root of the project. A user file that cannot be used counts as
empty.
-/

namespace VariantBuild

/-- The variables that a run looks at. -/
structure Environment where
  cc : Option String
  fincc : Option String
  jobs : Option String
  buildDirectory : Option String
  /-- Stands for a switch of the command line. -/
  json : Option String
  /-- The user's own directory. -/
  home : Option Path
deriving Inhabited

/-- Tools by role. -/
structure Toolchain where
  cc : Option String
  fincc : Option String
  depCc : Option String
  archiver : Option String
deriving DecidableEq, Repr, Inhabited

/-- All layers together. -/
structure Config where
  /-- The project's settings, with those of the environment. -/
  project : ProjectSettings
  user : UserSettings
  /-- The root of the project, if it is known. -/
  projectRoot : Option Path
deriving Inhabited

namespace Config

/-- The directory that relative settings start from. -/
def root (c : Config) : Path :=
  c.projectRoot.getD ⟨"."⟩

/-- The manifest directory. -/
def buildDirectory (c : Config) : Path :=
  c.root.join ((c.project.build.bind (·.directory)).getD ⟨"build"⟩)

/-- The cache directory. -/
def cacheDirectory (c : Config) : Path :=
  match c.project.build.bind (·.cacheDirectory) with
  | some p => c.root.join p
  | none => c.buildDirectory.joinText "objs"

/-- The job limit. -/
def jobs (c : Config) : Option Nat :=
  c.project.build.bind (·.jobs)

/-- Whether a failing pre-build task stops a build. -/
def failOnTaskError (c : Config) : Bool :=
  (c.project.build.bind (·.failOnTaskError)).getD false

/-- More flags that tell objects apart. -/
def trackedFlags (c : Config) : List String :=
  (c.project.cache.map (·.trackedFlags)).getD []

/-- The project's tools, and the user's where the project names none. -/
def toolchain (c : Config) : Toolchain :=
  let project := c.project.toolchain.getD default
  let user := c.user.toolchain.getD default
  ⟨project.cc.or user.cc, project.fincc.or user.fincc, project.depCc.or user.depCc,
    project.archiver.or user.archiver⟩

end Config

namespace Environment

/-- The job limit that the environment sets: a positive number of 64 bits. -/
def parseJobs (text : String) : Except ConfigError Nat :=
  match Numeral.unsigned? UInt64.size text with
  | none =>
    .error (.invalidValue "OBJMILL_JOBS" ("expected a positive integer, got '" ++ text ++ "'"))
  | some 0 => .error (.invalidValue "OBJMILL_JOBS" "must be at least 1")
  | some n => .ok n

/-- Toolchain settings with those of the environment; a section is made only when it is needed. -/
def applyToolchain (e : Environment) (s : Option ToolchainSettings) : Option ToolchainSettings :=
  if e.cc.isNone ∧ e.fincc.isNone then s
  else
    let s := s.getD default
    some { s with cc := e.cc.or s.cc, fincc := e.fincc.or s.fincc }

/-- Build settings with those of the environment; a section is made only when it is needed. -/
def applyBuild (e : Environment) (s : Option BuildSettings) :
    Except ConfigError (Option BuildSettings) := do
  let jobs ← match e.jobs with
    | none => pure none
    | some text => some <$> parseJobs text
  if jobs.isNone ∧ e.buildDirectory.isNone then return s
  else
    let s := s.getD default
    return some { s with jobs := jobs.or s.jobs, directory := (e.buildDirectory.map Path.mk).or s.directory }

/-- Project settings with those of the environment. -/
def apply (e : Environment) (s : ProjectSettings) : Except ConfigError ProjectSettings := do
  return { s with toolchain := e.applyToolchain s.toolchain, build := ← e.applyBuild s.build }

/-- The user's file. -/
def userFile? (e : Environment) : Option Path :=
  e.home.map fun home => (home.joinText ".objmill").joinText "config.toml"

end Environment

namespace Config

/-- The first directory, upwards from one, that has a project file. -/
def findRoot? (d : Disk) (start : Path) : Option Path :=
  start.ancestors.find? fun p => d.contains (p.joinText projectFileName)

/-- The user's settings; a file that is missing or cannot be used gives none. -/
def userSettings (d : Disk) (file : Option Path) : UserSettings :=
  match file with
  | none => .empty
  | some file => (UserSettings.load d file).toOption.getD .empty

/-- The configuration for a start directory. Without a project file the start directory is the
root. -/
def loadFromDirectory (d : Disk) (e : Environment) (userFile : Option Path) (start : Path) :
    Except ConfigError Config := do
  let found := findRoot? d start
  let project ← match found with
    | some root => ProjectSettings.load d (root.joinText projectFileName)
    | none => pure .empty
  return ⟨← e.apply project, userSettings d userFile, some (found.getD start)⟩

/-- The configuration for a project file; its directory is the root. -/
def loadFromFile (d : Disk) (e : Environment) (userFile : Option Path) (file : Path) :
    Except ConfigError Config := do
  let project ← ProjectSettings.load d file
  return ⟨← e.apply project, userSettings d userFile, file.parent?⟩

end Config

end VariantBuild
