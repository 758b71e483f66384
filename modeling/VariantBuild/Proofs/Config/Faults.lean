import VariantBuild.Proofs.Config.Layers
import VariantBuild.Proofs.Config.Shapes
import VariantBuild.Proofs.Disk.Directories
/-!
# Faults of configuration layers

A configuration is put together from a project file, a user's file and the environment, and each of them may be
at fault. A file cannot be read, or it does not fit its schema (`Config.FileFault`); the settings of a project
have rules of their own (`ProjectSettings.Fault`); and the environment may ask for a job limit that is none
(`Environment.Fault`).

Each layer answers with its first fault, and with none only if it is sound
(`ProjectSettings.load_eq_error_iff`, `UserSettings.load_eq_ok_iff`, `Environment.apply_eq_error_iff`). A user's
file with a fault is not told apart from one that is missing (`Config.userSettings_of_fault`,
`Config.userSettings_of_missing`).
-/

namespace VariantBuild

/-! ## What errors name -/

/-- The file or the field that an error names. -/
inductive ConfigError.Names : ConfigError → String → Prop
  | notFound (file : Path) : Names (.notFound file) file.text
  | invalidToml (file : Path) : Names (.invalidToml file) file.text
  | emptyVariantName : Names .emptyVariantName "variant name"
  | invalidValue (field reason : String) : Names (.invalidValue field reason) field

theorem prefix_toList_append (a b : String) : a.toList <+: (a ++ b).toList := by
  rw [String.toList_append]
  exact List.prefix_append _ _

theorem suffix_toList_append (a b : String) : b.toList <:+ (a ++ b).toList := by
  rw [String.toList_append]
  exact List.suffix_append _ _

/-- What an error names is in its message. -/
theorem ConfigError.Names.infix_message {err : ConfigError} {place : String} (h : err.Names place) :
    place.toList <:+: err.message.toList := by
  cases h with
  | notFound file => exact (suffix_toList_append "Configuration file not found: " file.text).isInfix
  | invalidToml file => exact (suffix_toList_append "Invalid TOML syntax in " file.text).isInfix
  | emptyVariantName =>
    exact ⟨"Invalid configuration: ".toList, " cannot be empty".toList, by decide +kernel⟩
  | invalidValue _ reason =>
    have hfield := suffix_toList_append "Invalid value for '" place
    have hquote := prefix_toList_append ("Invalid value for '" ++ place) "': "
    have hreason := prefix_toList_append ("Invalid value for '" ++ place ++ "': ") reason
    exact hfield.isInfix.trans (hquote.trans hreason).isInfix

/-! ## Files -/

namespace Config

/-- The entries of a file that can be read, is well-formed, and fits a schema. -/
inductive Holds (schema : Schema) (d : Disk) (file : Path) (entries : Toml.Entries) : Prop
  | intro {text : String} : d.readText file = .ok text → Toml.parse text = some entries →
      Fits schema entries → Holds schema d file entries

/-- What is wrong with a file. -/
inductive FileFault (schema : Schema) (d : Disk) (file : Path) : ConfigError → Prop
  | unreadable {cause : ReadError} : d.readText file = .error cause →
      FileFault schema d file (.unreadable cause)
  /-- The text is malformed, or has unknown keys or values of other shapes. -/
  | invalid {text : String} : d.readText file = .ok text →
      (∀ entries, Toml.parse text = some entries → ¬ Fits schema entries) →
      FileFault schema d file (.invalidToml file)

variable {schema : Schema} {d : Disk} {file : Path} {text : String} {entries : Toml.Entries}
  {err : ConfigError} {α : Type} {read : Toml.Entries → Option α} {a : α}

/-- Nothing is read exactly from texts that are malformed or do not fit. -/
theorem parse_bind_eq_none_iff (hread : ∀ entries, (read entries).isSome ↔ Fits schema entries) :
    (Toml.parse text).bind read = none ↔ ∀ entries, Toml.parse text = some entries → ¬ Fits schema entries := by
  rw [Option.bind_eq_none_iff]
  refine forall₂_congr fun entries _ => ?_
  rw [← hread, Option.not_isSome_iff_eq_none]

/-- What is read from a text that fits. -/
theorem parse_bind_eq_some_iff (hread : ∀ entries, (read entries).isSome ↔ Fits schema entries) :
    (Toml.parse text).bind read = some a ↔
      ∃ entries, Toml.parse text = some entries ∧ Fits schema entries ∧ read entries = some a := by
  rw [Option.bind_eq_some_iff]
  refine exists_congr fun entries => and_congr_right fun _ => ?_
  constructor
  · intro ha
    exact ⟨(hread entries).1 (Option.isSome_of_eq_some ha), ha⟩
  · rintro ⟨-, ha⟩
    exact ha

theorem holds_or_fault (schema : Schema) (d : Disk) (file : Path) :
    (∃ entries, Holds schema d file entries) ∨ ∃ err, FileFault schema d file err := by
  cases htext : d.readText file with
  | error cause => exact .inr ⟨_, .unreadable htext⟩
  | ok text =>
    by_cases hfits : ∃ entries, Toml.parse text = some entries ∧ Fits schema entries
    · obtain ⟨entries, hparse, hfits⟩ := hfits
      exact .inl ⟨entries, .intro htext hparse hfits⟩
    · exact .inr ⟨_, .invalid htext fun entries hparse h => hfits ⟨entries, hparse, h⟩⟩

theorem Holds.fits (h : Holds schema d file entries) : Fits schema entries := by
  obtain ⟨-, -, hfits⟩ := h
  exact hfits

theorem Holds.contains (h : Holds schema d file entries) : d.contains file = true := by
  obtain ⟨htext, -, -⟩ := h
  obtain ⟨contents, t, hstat, -⟩ := Disk.readText_eq_ok_iff.1 htext
  rw [Disk.contains, hstat]
  rfl

theorem Holds.not_fault (h : Holds schema d file entries) : ¬ FileFault schema d file err := by
  obtain ⟨htext, hparse, hfits⟩ := h
  rintro (hcause | ⟨htext', hunfit⟩)
  · rw [htext] at hcause
    cases hcause
  · obtain rfl := Except.ok.inj (htext.symm.trans htext')
    exact hunfit _ hparse hfits

end Config

/-! ## The project's layer -/

/-- What is wrong with the settings of a variant. -/
inductive VariantSettings.Fault : String → VariantSettings → ConfigError → Prop
  | unnamed {s : VariantSettings} : Fault "" s .emptyVariantName
  | untyped {name : String} {s : VariantSettings} : name ≠ "" → s.buildType = some "" →
      Fault name s (.invalidValue ("variants." ++ name ++ ".build_type") "cannot be empty")

/-- A variant has a name, and its build type is not empty. -/
def VariantSettings.Sound (name : String) (s : VariantSettings) : Prop :=
  name ≠ "" ∧ s.buildType ≠ some ""

theorem VariantSettings.fault_iff {name : String} {s : VariantSettings} {err : ConfigError} :
    Fault name s err ↔ (name = "" ∧ err = .emptyVariantName) ∨ (name ≠ "" ∧ s.buildType = some "" ∧
      err = .invalidValue ("variants." ++ name ++ ".build_type") "cannot be empty") := by
  constructor
  · rintro (- | ⟨hname, htype⟩)
    · exact .inl ⟨rfl, rfl⟩
    · exact .inr ⟨hname, htype, rfl⟩
  · rintro (⟨rfl, rfl⟩ | ⟨hname, htype, rfl⟩)
    · exact .unnamed
    · exact .untyped hname htype

/-- The first fault of settings: that of the job limit, or else that of a variant, in the order of their
names. -/
inductive ProjectSettings.Fault (s : ProjectSettings) : ConfigError → Prop
  | jobs : s.build.bind (·.jobs) = some 0 → Fault s (.invalidValue "build.jobs" "must be at least 1")
  | variant {before after : VariantTable} {name : String} {v : VariantSettings} {err : ConfigError} :
      s.build.bind (·.jobs) ≠ some 0 → s.variants = before ++ (name, v) :: after →
      (∀ entry ∈ before, VariantSettings.Sound entry.1 entry.2) → VariantSettings.Fault name v err → Fault s err

/-- The job limit is positive, and all variants are sound. -/
structure ProjectSettings.Sound (s : ProjectSettings) : Prop where
  jobs : s.build.bind (·.jobs) ≠ some 0
  variants : ∀ entry ∈ s.variants, VariantSettings.Sound entry.1 entry.2

namespace VariantTable

variable {t : VariantTable} {err : ConfigError}

/-- Validation looks at the first variant, and goes on if it is sound. -/
theorem validate_cons_eq_error_iff {name : String} {v : VariantSettings} :
    validate ((name, v) :: t) = .error err ↔
      VariantSettings.Fault name v err ∨ (VariantSettings.Sound name v ∧ t.validate = .error err) := by
  rw [validate, VariantSettings.fault_iff, VariantSettings.Sound]
  by_cases hname : name = ""
  · simp [hname, @eq_comm _ err]
  · by_cases htype : v.buildType = some ""
    · simp [hname, htype, @eq_comm _ err]
    · simp [hname, htype]

/-- Validation ends with the first fault. -/
theorem validate_eq_error_iff : t.validate = .error err ↔ ∃ before name v after,
    t = before ++ (name, v) :: after ∧ (∀ entry ∈ before, VariantSettings.Sound entry.1 entry.2) ∧
      VariantSettings.Fault name v err := by
  induction t with
  | nil =>
    constructor
    · intro h
      cases h
    · rintro ⟨before, name, v, after, h, -⟩
      exact absurd h (by simp)
  | cons entry t ih =>
    obtain ⟨name, v⟩ := entry
    rw [validate_cons_eq_error_iff, ih]
    constructor
    · rintro (hfault | ⟨hsound, before, name', v', after, rfl, hbefore, hfault⟩)
      · exact ⟨[], name, v, t, rfl, List.forall_mem_nil _, hfault⟩
      · exact ⟨(name, v) :: before, name', v', after, rfl, List.forall_mem_cons.2 ⟨hsound, hbefore⟩, hfault⟩
    · rintro ⟨_ | ⟨first, before⟩, name', v', after, heq, hbefore, hfault⟩
      · obtain ⟨hentry, -⟩ := List.cons.inj heq
        cases hentry
        exact .inl hfault
      · obtain ⟨rfl, rfl⟩ := List.cons.inj heq
        obtain ⟨hsound, hbefore⟩ := List.forall_mem_cons.1 hbefore
        exact .inr ⟨hsound, before, name', v', after, rfl, hbefore, hfault⟩

theorem validate_eq_ok_iff :
    t.validate = .ok () ↔ ∀ entry ∈ t, VariantSettings.Sound entry.1 entry.2 := by
  induction t with
  | nil => simp [validate]
  | cons entry t ih =>
    rw [List.forall_mem_cons, ← ih, validate, VariantSettings.Sound]
    by_cases hname : entry.1 = ""
    · simp [hname]
    · by_cases htype : entry.2.buildType = some ""
      · simp [hname, htype]
      · simp [hname, htype]

end VariantTable

namespace ProjectSettings

variable {d : Disk} {file : Path} {s : ProjectSettings} {err : ConfigError}

theorem validate_eq_error_iff : s.validate = .error err ↔ s.Fault err := by
  rw [validate]
  split
  next hzero =>
    rw [Except.error.injEq]
    constructor
    · rintro rfl
      exact .jobs hzero
    · rintro (- | ⟨hpos, -⟩)
      · rfl
      · exact absurd hzero hpos
  next hpos =>
    rw [VariantTable.validate_eq_error_iff]
    constructor
    · rintro ⟨before, name, v, after, ht, hbefore, hfault⟩
      exact .variant hpos ht hbefore hfault
    · rintro (hzero | ⟨-, ht, hbefore, hfault⟩)
      · exact absurd hzero hpos
      · exact ⟨_, _, _, _, ht, hbefore, hfault⟩

theorem validate_eq_ok_iff : s.validate = .ok () ↔ s.Sound := by
  rw [validate]
  split
  next hzero =>
    constructor
    · intro h
      cases h
    · exact fun h => absurd hzero h.jobs
  next hpos => exact VariantTable.validate_eq_ok_iff.trans ⟨fun h => ⟨hpos, h⟩, Sound.variants⟩

/-- The settings in a project file without fault. -/
inductive InFile (d : Disk) (file : Path) (s : ProjectSettings) : Prop
  | intro {entries : Toml.Entries} : d.contains file = true → Config.Holds Config.projectSchema d file entries →
      Config.readProject entries = some s → s.Sound → InFile d file s

/-- What is wrong with a project file. -/
inductive FileFault (d : Disk) (file : Path) : ConfigError → Prop
  | missing : d.contains file = false → FileFault d file (.notFound file)
  | file {err : ConfigError} : d.contains file = true → Config.FileFault Config.projectSchema d file err →
      FileFault d file err
  | settings {entries : Toml.Entries} {s : ProjectSettings} {err : ConfigError} : d.contains file = true →
      Config.Holds Config.projectSchema d file entries → Config.readProject entries = some s → s.Fault err →
      FileFault d file err

theorem load_eq_ok_iff_inFile : load d file = .ok s ↔ InFile d file s := by
  rw [load_eq_ok_iff, validate_eq_ok_iff]
  simp only [Config.parse_bind_eq_some_iff fun _ => Config.isSome_readProject_iff]
  constructor
  · rintro ⟨hfile, text, htext, ⟨entries, hparse, hfits, hread⟩, hsound⟩
    exact .intro hfile (.intro htext hparse hfits) hread hsound
  · rintro ⟨hfile, ⟨htext, hparse, hfits⟩, hread, hsound⟩
    exact ⟨hfile, _, htext, ⟨_, hparse, hfits, hread⟩, hsound⟩

/-- A text is at fault if it does not fit, or if the settings that it describes are. -/
theorem parse_eq_error_iff {text : String} : parse file text = .error err ↔
    ((∀ entries, Toml.parse text = some entries → ¬ Config.Fits Config.projectSchema entries) ∧
      .invalidToml file = err) ∨
    ∃ entries s, Toml.parse text = some entries ∧ Config.Fits Config.projectSchema entries ∧
      Config.readProject entries = some s ∧ s.Fault err := by
  have hread : ∀ entries, (Config.readProject entries).isSome ↔ Config.Fits Config.projectSchema entries :=
    fun _ => Config.isSome_readProject_iff
  rw [parse, ← Config.parse_bind_eq_none_iff hread]
  constructor
  · intro h
    split at h
    next hnone => exact .inl ⟨hnone, Except.error.inj h⟩
    next s hsome =>
      obtain ⟨entries, hparse, hfits, hs⟩ := (Config.parse_bind_eq_some_iff hread).1 hsome
      split at h
      next => cases h
      next hfault =>
        cases h
        exact .inr ⟨entries, s, hparse, hfits, hs, validate_eq_error_iff.1 hfault⟩
  · rintro (⟨hnone, rfl⟩ | ⟨entries, s, hparse, hfits, hs, hfault⟩)
    · rw [hnone]
    · have hsome := (Config.parse_bind_eq_some_iff hread).2 ⟨entries, hparse, hfits, hs⟩
      simp only [hsome, validate_eq_error_iff.2 hfault]

theorem load_eq_error_iff : load d file = .error err ↔ FileFault d file err := by
  rw [load]
  constructor
  · intro h
    split at h
    next hfile =>
      cases htext : d.readText file with
      | error cause =>
        rw [htext] at h
        cases h
        exact .file hfile (.unreadable htext)
      | ok text =>
        rw [htext] at h
        rcases parse_eq_error_iff.1 h with ⟨hunfit, rfl⟩ | ⟨entries, s, hparse, hfits, hs, hfault⟩
        · exact .file hfile (.invalid htext hunfit)
        · exact .settings hfile (.intro htext hparse hfits) hs hfault
    next hmissing =>
      cases h
      exact .missing (by simpa using hmissing)
  · rintro (hmissing | ⟨hfile, hcause | ⟨htext, hunfit⟩⟩ | ⟨hfile, ⟨htext, hparse, hfits⟩, hs, hfault⟩)
    · rw [hmissing]
      rfl
    · rw [if_pos hfile, hcause]
    · rw [if_pos hfile, htext]
      exact parse_eq_error_iff.2 (.inl ⟨hunfit, rfl⟩)
    · rw [if_pos hfile, htext]
      exact parse_eq_error_iff.2 (.inr ⟨_, _, hparse, hfits, hs, hfault⟩)

end ProjectSettings

/-! ## The user's layer -/

/-- The settings in a user's file without fault. -/
inductive UserSettings.InFile (d : Disk) (file : Path) (s : UserSettings) : Prop
  | intro {entries : Toml.Entries} : Config.Holds Config.userSchema d file entries →
      Config.readUser entries = some s → InFile d file s

theorem UserSettings.load_eq_ok_iff {d : Disk} {file : Path} {s : UserSettings} :
    load d file = .ok s ↔ InFile d file s := by
  have hread : ∀ entries, (Config.readUser entries).isSome ↔ Config.Fits Config.userSchema entries :=
    fun _ => Config.isSome_readUser_iff
  rw [load]
  constructor
  · intro h
    split at h
    next text htext =>
      rw [parse] at h
      split at h
      next hsome =>
        cases h
        obtain ⟨entries, hparse, hfits, hs⟩ := (Config.parse_bind_eq_some_iff hread).1 hsome
        exact .intro (.intro htext hparse hfits) hs
      next => cases h
    next => cases h
    next => cases h
  · rintro ⟨⟨htext, hparse, hfits⟩, hs⟩
    rw [htext]
    simp only [parse, (Config.parse_bind_eq_some_iff hread).2 ⟨_, hparse, hfits, hs⟩]

namespace Config

variable {d : Disk} {userFile : Option Path}

/-- What is wrong with a user's file that is there. -/
inductive UserFault (d : Disk) (userFile : Option Path) (err : ConfigError) : Prop
  | intro {file : Path} : userFile = some file → d.contains file = true → FileFault userSchema d file err →
      UserFault d userFile err

/-- A user's file without fault counts for what is in it. -/
theorem userSettings_of_inFile {file : Path} {s : UserSettings} (hfile : userFile = some file)
    (h : UserSettings.InFile d file s) : userSettings d userFile = s := by
  subst hfile
  rw [userSettings, UserSettings.load_eq_ok_iff.2 h]
  rfl

/-- A user's file that is there and has no fault is the one that counts. -/
theorem inFile_of_not_fault (h : ¬ ∃ err, UserFault d userFile err) {file : Path}
    (hfile : userFile = some file) (hthere : d.contains file = true) :
    UserSettings.InFile d file (userSettings d userFile) := by
  have hholds : ∃ entries, Holds userSchema d file entries :=
    (holds_or_fault userSchema d file).resolve_right fun ⟨err, herr⟩ => h ⟨err, .intro hfile hthere herr⟩
  obtain ⟨entries, hentries⟩ := hholds
  obtain ⟨s, hs⟩ := Option.isSome_iff_exists.1 (isSome_readUser_iff.2 hentries.fits)
  have hin : UserSettings.InFile d file s := .intro hentries hs
  rwa [userSettings_of_inFile hfile hin]

theorem userSettings_of_not_inFile (h : ∀ file s, userFile = some file → ¬ UserSettings.InFile d file s) :
    userSettings d userFile = .empty := by
  cases userFile with
  | none => rfl
  | some file =>
    rw [userSettings]
    cases hload : UserSettings.load d file with
    | error err => rfl
    | ok s => exact absurd (UserSettings.load_eq_ok_iff.1 hload) (h file s rfl)

/-- A user's file with a fault counts for nothing. -/
theorem userSettings_of_fault (h : ∃ err, UserFault d userFile err) : userSettings d userFile = .empty := by
  obtain ⟨err, hfile, -, hfault⟩ := h
  refine userSettings_of_not_inFile fun file s hfile' hin => ?_
  obtain rfl := Option.some.inj (hfile.symm.trans hfile')
  obtain ⟨hholds, -⟩ := hin
  exact hholds.not_fault hfault

/-- So does one that is missing. -/
theorem userSettings_of_missing (h : ∀ file, userFile = some file → d.contains file = false) :
    userSettings d userFile = .empty := by
  refine userSettings_of_not_inFile fun file s hfile hin => ?_
  obtain ⟨hholds, -⟩ := hin
  have hthere := hholds.contains
  rw [h file hfile] at hthere
  cases hthere

end Config

/-! ## The environment -/

/-- What is wrong with the environment. -/
inductive Environment.Fault (e : Environment) : ConfigError → Prop
  | malformed {text : String} : e.jobs = some text → Numeral.unsigned? UInt64.size text = none →
      Fault e (.invalidValue "OBJMILL_JOBS" ("expected a positive integer, got '" ++ text ++ "'"))
  | zero {text : String} : e.jobs = some text → Numeral.unsigned? UInt64.size text = some 0 →
      Fault e (.invalidValue "OBJMILL_JOBS" "must be at least 1")

namespace Environment

variable {e : Environment} {s s' : ProjectSettings} {err : ConfigError}

theorem parseJobs_eq_error_iff {text : String} : parseJobs text = .error err ↔
    (Numeral.unsigned? UInt64.size text = none ∧
      .invalidValue "OBJMILL_JOBS" ("expected a positive integer, got '" ++ text ++ "'") = err) ∨
    (Numeral.unsigned? UInt64.size text = some 0 ∧ .invalidValue "OBJMILL_JOBS" "must be at least 1" = err) := by
  rw [parseJobs]
  split
  next hnone => simp [hnone]
  next hzero => simp [hzero]
  next n hpos hn => simpa [hn] using fun hzero => absurd hzero hpos

theorem applyBuild_eq_error_iff {b : Option BuildSettings} : e.applyBuild b = .error err ↔ e.Fault err := by
  -- once there is a job limit nothing is at fault
  have hdone : ∀ limit : Option Nat, (if limit.isNone ∧ e.buildDirectory.isNone then pure b
      else pure (some (e.overBuild limit (b.getD default)))) ≠ (.error err : Except ConfigError _) := by
    intro limit h
    rw [← apply_ite pure] at h
    cases h
  rw [applyBuild]
  cases hjobs : e.jobs with
  | none =>
    refine ⟨fun h => absurd h (hdone none), fun h => ?_⟩
    cases h with
    | malformed hset => simp [hjobs] at hset
    | zero hset => simp [hjobs] at hset
  | some text =>
    have hnumber : (some <$> parseJobs text : Except ConfigError (Option Nat)) = .error err ↔
        parseJobs text = .error err := by
      cases parseJobs text <;> simp
    rw [except_bind_eq_error_iff, hnumber, parseJobs_eq_error_iff]
    constructor
    · rintro ((⟨hnone, rfl⟩ | ⟨hzero, rfl⟩) | ⟨limit, -, h⟩)
      · exact .malformed hjobs hnone
      · exact .zero hjobs hzero
      · exact absurd h (hdone limit)
    · rintro (⟨hset, hnone⟩ | ⟨hset, hzero⟩)
      · obtain rfl := Option.some.inj (hjobs.symm.trans hset)
        exact .inl (.inl ⟨hnone, rfl⟩)
      · obtain rfl := Option.some.inj (hjobs.symm.trans hset)
        exact .inl (.inr ⟨hzero, rfl⟩)

/-- Whatever the settings of a project are, the faults of the environment are the same. -/
theorem apply_eq_error_iff : e.apply s = .error err ↔ e.Fault err := by
  rw [apply, except_bind_eq_error_iff, applyBuild_eq_error_iff]
  refine or_iff_left ?_
  rintro ⟨build, -, h⟩
  cases h

theorem Fault.exists_names (h : e.Fault err) : ∃ place, err.Names place := by
  cases h with
  | malformed => exact ⟨_, .invalidValue _ _⟩
  | zero => exact ⟨_, .invalidValue _ _⟩

theorem exists_jobLimit_of_apply (h : e.apply s = .ok s') : ∃ limit, e.JobLimit limit := by
  obtain ⟨limit, hlimit, -⟩ := (over_of_apply h).jobs
  exact ⟨limit, hlimit⟩

end Environment

end VariantBuild
