import VariantBuild.Proofs.Config.Faults
/-!
# Which faults are reported

Nothing of a faulty layer is meant to be used: the first fault is to be reported, with the file or the field that
it is about (`Config.Start.Reports`). Faults of the project's layer and of the environment all are
(`Config.Start.load_eq_error_iff`). But a faulty user's file counts as an empty one, and the error about a project
file that cannot be read names no file. These are the only ways in which a fault is not reported as it should be
(`Config.Start.reports_iff`).
-/

namespace VariantBuild

namespace Config

/-- Where a configuration is loaded from: a directory, from which a project file is looked for upwards, or a
project file. -/
inductive Start where
  | upFrom (directory : Path)
  | given (file : Path)
deriving DecidableEq, Repr

namespace Start

/-- The project file that is used, if there is one. -/
def projectFile? (d : Disk) : Start → Option Path
  | upFrom directory => (findRoot? d directory).map (·.joinText projectFileName)
  | given file => some file

/-- The root of the project. -/
def root? (d : Disk) : Start → Option Path
  | upFrom directory => some ((findRoot? d directory).getD directory)
  | given file => file.parent?

/-- The configuration for a start. -/
def load (d : Disk) (e : Environment) (userFile : Option Path) : Start → Except ConfigError Config
  | upFrom directory => loadFromDirectory d e userFile directory
  | given file => loadFromFile d e userFile file

/-- The settings of the project's layer; without a project file there are none. -/
inductive Settings (d : Disk) (start : Start) : ProjectSettings → Prop
  | absent : start.projectFile? d = none → Settings d start .empty
  | file {file : Path} {s : ProjectSettings} : start.projectFile? d = some file →
      ProjectSettings.InFile d file s → Settings d start s

/-- What is wrong with the project's layer. -/
inductive ProjectFault (d : Disk) (start : Start) (err : ConfigError) : Prop
  | intro {file : Path} : start.projectFile? d = some file → ProjectSettings.FileFault d file err →
      ProjectFault d start err

/-- The first fault, in the order in which layers are used: the project's, the user's, the environment. -/
inductive FirstFault (d : Disk) (e : Environment) (userFile : Option Path) (start : Start) : ConfigError → Prop
  | project {err : ConfigError} : start.ProjectFault d err → FirstFault d e userFile start err
  | user {err : ConfigError} : (¬ ∃ err, start.ProjectFault d err) → UserFault d userFile err →
      FirstFault d e userFile start err
  | environment {err : ConfigError} : (¬ ∃ err, start.ProjectFault d err) → (¬ ∃ err, UserFault d userFile err) →
      e.Fault err → FirstFault d e userFile start err

/-- No fault is passed over: there is an error exactly if a layer is at fault, it is that of the first such
layer, and it says which file or field it is about. A configuration is made of layers without fault, and of what
is in them. -/
structure Reports (d : Disk) (e : Environment) (userFile : Option Path) (start : Start)
    (result : Except ConfigError Config) : Prop where
  error_iff : ∀ err, result = .error err ↔ start.FirstFault d e userFile err
  named : ∀ err, result = .error err → ∃ place, err.Names place ∧ place.toList <:+: err.message.toList
  project : ∀ c, result = .ok c → ∃ s, start.Settings d s ∧ e.apply s = .ok c.project
  user : ∀ c, result = .ok c → ∀ file, userFile = some file → d.contains file = true →
    UserSettings.InFile d file c.user
  environment : ∀ c, result = .ok c → ∃ limit, e.JobLimit limit

variable {d : Disk} {e : Environment} {userFile : Option Path} {start : Start} {s : ProjectSettings}
  {c : Config} {err : ConfigError}

/-- Reading the settings of the project's layer. -/
def settings (d : Disk) (start : Start) : Except ConfigError ProjectSettings :=
  match start.projectFile? d with
  | some file => ProjectSettings.load d file
  | none => .ok .empty

theorem settings_eq_ok_iff : start.settings d = .ok s ↔ start.Settings d s := by
  rw [settings]
  constructor
  · intro h
    split at h
    next file hfile => exact .file hfile (ProjectSettings.load_eq_ok_iff_inFile.1 h)
    next hnone =>
      cases h
      exact .absent hnone
  · rintro (hnone | ⟨hfile, hin⟩)
    · rw [hnone]
    · rw [hfile]
      exact ProjectSettings.load_eq_ok_iff_inFile.2 hin

theorem settings_eq_error_iff : start.settings d = .error err ↔ start.ProjectFault d err := by
  rw [settings]
  constructor
  · intro h
    split at h
    next file hfile => exact .intro hfile (ProjectSettings.load_eq_error_iff.1 h)
    next => cases h
  · rintro ⟨hfile, hfault⟩
    rw [hfile]
    exact ProjectSettings.load_eq_error_iff.2 hfault

/-- Both ways of loading go on alike from the settings of the project. -/
theorem load_eq (d : Disk) (e : Environment) (userFile : Option Path) (start : Start) :
    start.load d e userFile = (do
      let s ← start.settings d
      return ⟨← e.apply s, userSettings d userFile, start.root? d⟩) := by
  cases start with
  | upFrom directory =>
    simp only [load, loadFromDirectory, settings, projectFile?, root?]
    cases findRoot? d directory <;> rfl
  | given file => rfl

theorem settings_or_fault (d : Disk) (start : Start) :
    (∃ s, start.Settings d s) ∨ ∃ err, start.ProjectFault d err := by
  cases h : start.settings d with
  | ok s => exact .inl ⟨s, settings_eq_ok_iff.1 h⟩
  | error err => exact .inr ⟨err, settings_eq_error_iff.1 h⟩

theorem Settings.not_fault (h : start.Settings d s) : ¬ ∃ err, start.ProjectFault d err := by
  rintro ⟨err, hfault⟩
  rw [← settings_eq_error_iff, settings_eq_ok_iff.2 h] at hfault
  cases hfault

/-- What is reported: the faults of the project's layer, and then those of the environment. -/
theorem load_eq_error_iff : start.load d e userFile = .error err ↔
    start.ProjectFault d err ∨ ((¬ ∃ err, start.ProjectFault d err) ∧ e.Fault err) := by
  have hrest : ∀ s, (do return (⟨← e.apply s, userSettings d userFile, start.root? d⟩ : Config)) =
      (.error err : Except ConfigError Config) ↔ e.Fault err := by
    intro s
    rw [except_bind_eq_error_iff, Environment.apply_eq_error_iff]
    exact or_iff_left nofun
  rw [load_eq, except_bind_eq_error_iff, settings_eq_error_iff]
  simp only [hrest, settings_eq_ok_iff, exists_and_right]
  refine or_congr_right (and_congr_left fun _ => ⟨?_, ?_⟩)
  · rintro ⟨s, hs⟩
    exact hs.not_fault
  · exact (settings_or_fault d start).resolve_right

/-- What is loaded: the project's layer under the environment, and what can be read of the user's. -/
theorem load_eq_ok_iff : start.load d e userFile = .ok c ↔ ∃ s project, start.Settings d s ∧
    e.apply s = .ok project ∧ c = ⟨project, userSettings d userFile, start.root? d⟩ := by
  rw [load_eq, except_bind_eq_ok_iff]
  refine exists_congr fun s => ?_
  rw [settings_eq_ok_iff, except_bind_eq_ok_iff, ← exists_and_left]
  refine exists_congr fun project => and_congr_right fun _ => and_congr_right fun _ => ?_
  exact ⟨fun h => (Except.ok.inj h).symm, fun h => congrArg Except.ok h.symm⟩

/-! ## What is passed over -/

/-- A fault of the project's layer names its place unless it is that the file cannot be read. -/
theorem ProjectFault.exists_names (h : start.ProjectFault d err) (hread : ∀ cause, err ≠ .unreadable cause) :
    ∃ place, err.Names place := by
  obtain ⟨-, hfault⟩ := h
  cases hfault with
  | missing => exact ⟨_, .notFound _⟩
  | file _ hfile =>
    cases hfile with
    | unreadable => exact absurd rfl (hread _)
    | invalid => exact ⟨_, .invalidToml _⟩
  | settings _ _ _ hsettings =>
    cases hsettings with
    | jobs => exact ⟨_, .invalidValue _ _⟩
    | variant _ _ _ hvariant =>
      cases hvariant with
      | unnamed => exact ⟨_, .emptyVariantName⟩
      | untyped => exact ⟨_, .invalidValue _ _⟩

/-- An error of loading says what it is about, unless it is that the project file cannot be read. -/
theorem exists_names_of_load (h : start.load d e userFile = .error err)
    (hread : ∀ cause, err ≠ .unreadable cause) :
    ∃ place, err.Names place ∧ place.toList <:+: err.message.toList := by
  have hnames : ∃ place, err.Names place := by
    rcases load_eq_error_iff.1 h with hproject | ⟨-, henvironment⟩
    · exact hproject.exists_names hread
    · exact henvironment.exists_names
  obtain ⟨place, hplace⟩ := hnames
  exact ⟨place, hplace, hplace.infix_message⟩

/-- The error about a user's file is none of the environment. -/
theorem not_fault_of_userFault (h : UserFault d userFile err) : ¬ e.Fault err := by
  obtain ⟨-, -, hfile⟩ := h
  cases hfile with
  | unreadable => nofun
  | invalid => nofun

/-- A fault of the user's file is never the first if the project's layer is then at fault, too. -/
theorem firstFault_iff (h : (∃ err, UserFault d userFile err) → ∃ err, start.ProjectFault d err) :
    start.FirstFault d e userFile err ↔
      start.ProjectFault d err ∨ ((¬ ∃ err, start.ProjectFault d err) ∧ e.Fault err) := by
  constructor
  · rintro (hproject | ⟨hno, huser⟩ | ⟨hno, -, henvironment⟩)
    · exact .inl hproject
    · exact absurd (h ⟨err, huser⟩) hno
    · exact .inr ⟨hno, henvironment⟩
  · rintro (hproject | ⟨hno, henvironment⟩)
    · exact .project hproject
    · exact .environment hno (fun huser => hno (h huser)) henvironment

/-- Faults are reported as they should be, unless the user's file is at fault and the project's layer is not, or
the project file cannot be read. -/
theorem reports_iff : start.Reports d e userFile (start.load d e userFile) ↔
    ((∃ err, UserFault d userFile err) → ∃ err, start.ProjectFault d err) ∧
      ∀ cause, ¬ start.ProjectFault d (.unreadable cause) := by
  constructor
  · intro hreports
    constructor
    · rintro ⟨err, huser⟩
      by_contra hproject
      have herr := (hreports.error_iff err).2 (.user hproject huser)
      rcases load_eq_error_iff.1 herr with hfault | ⟨-, henvironment⟩
      · exact hproject ⟨err, hfault⟩
      · exact not_fault_of_userFault huser henvironment
    · intro cause hfault
      obtain ⟨place, hplace, -⟩ := hreports.named _ (load_eq_error_iff.2 (.inl hfault))
      cases hplace
  · rintro ⟨huser, hreadable⟩
    refine ⟨fun err => ?_, fun err herr => ?_, fun c hc => ?_, fun c hc => ?_, fun c hc => ?_⟩
    · rw [load_eq_error_iff, firstFault_iff huser]
    · refine exists_names_of_load herr ?_
      rintro cause rfl
      -- only the project's layer cannot be read
      rcases load_eq_error_iff.1 herr with hproject | ⟨-, henvironment⟩
      · exact hreadable cause hproject
      · cases henvironment
    · obtain ⟨s, project, hs, hproject, rfl⟩ := load_eq_ok_iff.1 hc
      exact ⟨s, hs, hproject⟩
    · obtain ⟨s, project, hs, -, rfl⟩ := load_eq_ok_iff.1 hc
      exact fun _ => inFile_of_not_fault fun hfault => hs.not_fault (huser hfault)
    · obtain ⟨s, project, -, hproject, -⟩ := load_eq_ok_iff.1 hc
      exact Environment.exists_jobLimit_of_apply hproject

/-- The errors of loading are the faults of the project's layer, and those of the environment where the project's
layer has none. The user's settings are those in the user's file; if it is at fault they are empty, as if it were
missing. So faults are reported as they should be unless the user's file is at fault and the project's layer is
not, or the project file cannot be read. -/
theorem load_faults (d : Disk) (e : Environment) (userFile : Option Path) (start : Start) :
    (∀ err, start.load d e userFile = .error err ↔
      start.ProjectFault d err ∨ ((¬ ∃ err, start.ProjectFault d err) ∧ e.Fault err)) ∧
    (∀ c, start.load d e userFile = .ok c →
      (∃ s, start.Settings d s ∧ e.apply s = .ok c.project) ∧
      ((¬ ∃ err, UserFault d userFile err) → ∀ file, userFile = some file → d.contains file = true →
        UserSettings.InFile d file c.user) ∧
      ((∃ err, UserFault d userFile err) → c.user = .empty) ∧
      ((∀ file, userFile = some file → d.contains file = false) → c.user = .empty)) ∧
    (start.Reports d e userFile (start.load d e userFile) ↔
      ((∃ err, UserFault d userFile err) → ∃ err, start.ProjectFault d err) ∧
        ∀ cause, ¬ start.ProjectFault d (.unreadable cause)) := by
  refine ⟨fun err => load_eq_error_iff, fun c hc => ?_, reports_iff⟩
  obtain ⟨s, project, hs, hproject, rfl⟩ := load_eq_ok_iff.1 hc
  exact ⟨⟨s, hs, hproject⟩, fun hno _ => inFile_of_not_fault hno, userSettings_of_fault, userSettings_of_missing⟩

end Start

namespace Sample

/-- Settings of a user with a key that is unknown. -/
def misspelled : String :=
  "[toolchain]\ncc = \"clang\"\nlinker = \"ld\"\n"

/-- A project without a project file, and a user's file in it. -/
def misspelledDisk : Disk :=
  ⟨[([], .directory 0), (["p"], .directory 0), (["p", "g.toml"], .file misspelled.toUTF8 1)], ["p"], 9⟩

/-- Nothing is set. -/
def bare : Environment :=
  ⟨none, none, none, none, none, none⟩

end Sample

/-- The whole file is passed over, its compiler included, and nothing is said about it. -/
theorem misspelled_not_reported :
    Start.load Sample.misspelledDisk Sample.bare (some ⟨"g.toml"⟩) (.upFrom ⟨"."⟩) =
        .ok ⟨.empty, .empty, some ⟨"."⟩⟩ ∧
      UserFault Sample.misspelledDisk (some ⟨"g.toml"⟩) (.invalidToml ⟨"g.toml"⟩) ∧
      ¬ Start.Reports Sample.misspelledDisk Sample.bare (some ⟨"g.toml"⟩) (.upFrom ⟨"."⟩)
        (.ok ⟨.empty, .empty, some ⟨"."⟩⟩) := by
  have hload : Start.load Sample.misspelledDisk Sample.bare (some ⟨"g.toml"⟩) (.upFrom ⟨"."⟩) =
      .ok ⟨.empty, .empty, some ⟨"."⟩⟩ := by decide +kernel
  have hfault : UserFault Sample.misspelledDisk (some ⟨"g.toml"⟩) (.invalidToml ⟨"g.toml"⟩) := by
    have htext : Sample.misspelledDisk.readText ⟨"g.toml"⟩ = .ok Sample.misspelled := by decide +kernel
    have hunfit : (Toml.parse Sample.misspelled).bind readUser = none := by decide +kernel
    exact .intro rfl (by decide +kernel)
      (.invalid htext ((parse_bind_eq_none_iff fun _ => isSome_readUser_iff).1 hunfit))
  have hproject : Start.settings Sample.misspelledDisk (.upFrom ⟨"."⟩) = .ok .empty := by decide +kernel
  refine ⟨hload, hfault, fun hreports => ?_⟩
  -- the project's layer has no fault, so that of the user's file is the first
  have hfirst := (hreports.error_iff _).2 (.user (Start.settings_eq_ok_iff.1 hproject).not_fault hfault)
  cases hfirst

end Config

end VariantBuild
