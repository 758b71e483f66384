import VariantBuild.Config.Loader
import VariantBuild.Proofs.Except
import VariantBuild.Proofs.Path.Components
/-!
# Where settings come from

The project file is looked for in a directory and then in its parents, one after the other. Each parent has one
component fewer (`Path.length_components_of_nthParent?`), so there are no more of them than components, and the
list that is searched has them all (`Path.getElem?_ancestors`).

The environment can set four of a project's settings, and what it does not set stays as it is in the file
(`Environment.over_of_apply`). All settings are read off their sections, and a missing section is one without
settings: so a section that is made for one of them hides none of the others. The user's file comes last and
names tools only (`Config.Layered`).
-/

namespace VariantBuild

/-! ## Parents -/

namespace Path

/-- The parent of a path after a number of steps, if it has so many. -/
def nthParent? (p : Path) : Nat → Option Path
  | 0 => some p
  | n + 1 => p.parent?.bind (nthParent? · n)

variable {p q : Path} {n : Nat}

/-- A step upwards takes the last component away. -/
theorem exists_components_of_parent? (h : p.parent? = some q) : ∃ c, p.components = q.components ++ [c] := by
  rcases p.parent?_cases with ⟨hnone, -⟩ | ⟨q', c, hq', hcomponents⟩
  · rw [hnone] at h
    cases h
  · rw [hq', Option.some.injEq] at h
    exact ⟨c, h ▸ hcomponents⟩

/-- Each step upwards takes one component away. -/
theorem length_components_of_nthParent? (h : p.nthParent? n = some q) :
    p.components.length = q.components.length + n := by
  induction n generalizing p with
  | zero =>
    obtain rfl : p = q := Option.some.inj h
    rfl
  | succ n ih =>
    obtain ⟨parent, hparent, hrest⟩ := Option.bind_eq_some_iff.1 h
    obtain ⟨c, hc⟩ := exists_components_of_parent? hparent
    rw [hc, List.length_append, ih hrest]
    rfl

/-- Nothing is left when every component is gone. -/
theorem nthParent?_eq_none (h : p.components.length < n) : p.nthParent? n = none := by
  rw [Option.eq_none_iff_forall_ne_some]
  intro q hq
  have hlength := length_components_of_nthParent? hq
  omega

theorem getElem?_climb (fuel : Nat) (p : Path) (n : Nat) :
    (climb fuel p)[n]? = if n < fuel then p.nthParent? n else none := by
  induction fuel generalizing p n with
  | zero => simp [climb]
  | succ fuel ih =>
    cases n with
    | zero => simp [climb, nthParent?]
    | succ n =>
      rw [climb, List.getElem?_cons_succ, nthParent?]
      cases p.parent? with
      | none => simp
      | some parent => simp [ih]

/-- The list of a path and its parents leaves none out. -/
theorem getElem?_ancestors (p : Path) (n : Nat) : p.ancestors[n]? = p.nthParent? n := by
  rw [ancestors, getElem?_climb]
  -- where the list ends there are no components left
  split
  next => rfl
  next h => rw [nthParent?_eq_none (by omega)]

end Path

/-! ## The project file -/

namespace ProjectSettings

variable {d : Disk} {file : Path} {text : String} {s : ProjectSettings}

theorem parse_eq_ok_iff : parse file text = .ok s ↔
    (Toml.parse text).bind Config.readProject = some s ∧ s.validate = .ok () := by
  rw [parse]
  split
  next hnone => simp [hnone]
  next s' hsome =>
    rw [hsome, Option.some.injEq]
    split
    next hvalid =>
      rw [Except.ok.injEq]
      exact ⟨fun h => ⟨h, h ▸ hvalid⟩, And.left⟩
    next e hfault =>
      constructor
      · intro h
        cases h
      · rintro ⟨rfl, hvalid⟩
        rw [hfault] at hvalid
        cases hvalid

theorem load_eq_ok_iff : load d file = .ok s ↔ d.contains file ∧ ∃ text, d.readText file = .ok text ∧
    (Toml.parse text).bind Config.readProject = some s ∧ s.validate = .ok () := by
  rw [load]
  split
  next hcontains =>
    cases htext : d.readText file with
    | ok text => simp [hcontains, parse_eq_ok_iff]
    | error cause => simp
  next hmissing => simp [hmissing]

/-- A file with a job limit of zero is refused. -/
theorem jobs_ne_zero_of_validate (h : s.validate = .ok ()) : s.build.bind (·.jobs) ≠ some 0 := by
  intro hzero
  rw [validate, if_pos hzero] at h
  cases h

end ProjectSettings

namespace Config

/-- Whether there is a project file in a directory. -/
def HasProjectFile (d : Disk) (p : Path) : Prop :=
  d.contains (p.joinText projectFileName) = true

/-- The root of a project and the settings in its file, upwards from a start. -/
inductive Discovered (d : Disk) (start : Path) : Path → ProjectSettings → Prop
  /-- The first directory that has a project file. -/
  | found {n : Nat} {root : Path} {text : String} {s : ProjectSettings} :
      start.nthParent? n = some root → HasProjectFile d root →
      (∀ m < n, ∀ p, start.nthParent? m = some p → ¬ HasProjectFile d p) →
      d.readText (root.joinText projectFileName) = .ok text →
      (Toml.parse text).bind readProject = some s → Discovered d start root s
  /-- No directory has one. -/
  | absent : (∀ n p, start.nthParent? n = some p → ¬ HasProjectFile d p) →
      Discovered d start start .empty

variable {d : Disk} {e : Environment} {userFile : Option Path} {start root p : Path}

theorem findRoot?_eq_some (h : findRoot? d start = some root) :
    ∃ n, start.nthParent? n = some root ∧ HasProjectFile d root ∧
      ∀ m < n, ∀ p, start.nthParent? m = some p → ¬ HasProjectFile d p := by
  obtain ⟨hroot, n, hn, hget, hbefore⟩ := List.find?_eq_some_iff_getElem.1 h
  refine ⟨n, ?_, hroot, ?_⟩
  · rw [← Path.getElem?_ancestors, List.getElem?_eq_getElem hn, hget]
  · intro m hm p hp
    rw [← Path.getElem?_ancestors, List.getElem?_eq_getElem (hm.trans hn), Option.some.injEq] at hp
    simpa [HasProjectFile, hp] using hbefore m hm

theorem findRoot?_eq_none (h : findRoot? d start = none) :
    ∀ n p, start.nthParent? n = some p → ¬ HasProjectFile d p := by
  intro n p hp
  rw [← Path.getElem?_ancestors] at hp
  exact List.find?_eq_none.1 h p (List.mem_of_getElem? hp)

end Config

/-! ## The environment -/

/-- A setting that is absent by default is the same in a section that is left out. -/
theorem getD_default_eq_bind {σ α : Type} [Inhabited σ] (given : Option σ) (f : σ → Option α)
    (hf : f default = none) : f (given.getD default) = given.bind f := by
  cases given with
  | none => exact hf
  | some s => rfl

namespace Environment

/-- The job limit that the environment sets, if any. -/
inductive JobLimit (e : Environment) : Option Nat → Prop
  | unset : e.jobs = none → JobLimit e none
  | set {text : String} {n : Nat} : e.jobs = some text → Numeral.unsigned? UInt64.size text = some n →
      1 ≤ n → JobLimit e (some n)

/-- Tools with those of the environment. -/
def overToolchain (e : Environment) (t : ToolchainSettings) : ToolchainSettings :=
  { t with cc := e.cc.or t.cc, fincc := e.fincc.or t.fincc }

/-- Build settings with a job limit and the directory of the environment. -/
def overBuild (e : Environment) (limit : Option Nat) (b : BuildSettings) : BuildSettings :=
  { b with jobs := limit.or b.jobs, directory := (e.buildDirectory.map Path.mk).or b.directory }

variable {α : Type} {e : Environment} {limit : Option Nat} {b b' : Option BuildSettings}
  {t : Option ToolchainSettings} {s s' : ProjectSettings}

/-- No tool shows whether there was a section before. -/
theorem bind_applyToolchain (f : ToolchainSettings → Option α) (hf : f default = none) :
    (e.applyToolchain t).bind f = f (e.overToolchain (t.getD default)) := by
  rw [applyToolchain]
  split
  next hunset =>
    rw [Option.isNone_iff_eq_none, Option.isNone_iff_eq_none] at hunset
    rw [overToolchain, hunset.1, hunset.2, Option.none_or, Option.none_or, getD_default_eq_bind t f hf]
  next => rfl

theorem parseJobs_eq_ok {text : String} {n : Nat} (h : parseJobs text = .ok n) :
    Numeral.unsigned? UInt64.size text = some n ∧ 1 ≤ n := by
  rw [parseJobs] at h
  split at h
  next => cases h
  next => cases h
  next m hpos hm =>
    obtain rfl : m = n := Except.ok.inj h
    exact ⟨hm, Nat.one_le_iff_ne_zero.2 hpos⟩

theorem applyBuild_eq_ok (h : e.applyBuild b = .ok b') : ∃ limit, e.JobLimit limit ∧
    b' = if limit.isNone ∧ e.buildDirectory.isNone then b else some (e.overBuild limit (b.getD default)) := by
  -- both ways to a job limit go on alike
  have hsection {limit : Option Nat} : (if limit.isNone ∧ e.buildDirectory.isNone then pure b
        else pure (some (e.overBuild limit (b.getD default)))) = (.ok b' : Except ConfigError _) →
      b' = if limit.isNone ∧ e.buildDirectory.isNone then b
        else some (e.overBuild limit (b.getD default)) := by
    rw [← apply_ite pure]
    intro hok
    exact (Except.ok.inj hok).symm
  rw [applyBuild] at h
  split at h
  next hunset => exact ⟨none, .unset hunset, hsection h⟩
  next text hset =>
    obtain ⟨limit, hlimit, hok⟩ := except_bind_eq_ok_iff.1 h
    obtain ⟨n, hn, rfl⟩ := except_map_eq_ok_iff.1 hlimit
    obtain ⟨hnumeral, hpos⟩ := parseJobs_eq_ok hn
    exact ⟨some n, .set hset hnumeral hpos, hsection hok⟩

/-- Nor does any build setting. -/
theorem bind_applyBuild (h : e.applyBuild b = .ok b') : ∃ limit, e.JobLimit limit ∧
    ∀ {α : Type} (f : BuildSettings → Option α), f default = none →
      b'.bind f = f (e.overBuild limit (b.getD default)) := by
  obtain ⟨limit, hlimit, rfl⟩ := applyBuild_eq_ok h
  refine ⟨limit, hlimit, fun f hf => ?_⟩
  split
  next hunset =>
    rw [Option.isNone_iff_eq_none, Option.isNone_iff_eq_none] at hunset
    rw [overBuild, hunset.1, hunset.2, Option.map_none, Option.none_or, Option.none_or,
      getD_default_eq_bind b f hf]
  next => rfl

/-- Project settings under those of the environment, one by one: four of them may change. -/
structure Over (e : Environment) (s s' : ProjectSettings) : Prop where
  cc : s'.toolchain.bind (·.cc) = e.cc.or (s.toolchain.bind (·.cc))
  fincc : s'.toolchain.bind (·.fincc) = e.fincc.or (s.toolchain.bind (·.fincc))
  jobs : ∃ limit, e.JobLimit limit ∧ s'.build.bind (·.jobs) = limit.or (s.build.bind (·.jobs))
  directory : s'.build.bind (·.directory) = (e.buildDirectory.map Path.mk).or (s.build.bind (·.directory))
  depCc : s'.toolchain.bind (·.depCc) = s.toolchain.bind (·.depCc)
  archiver : s'.toolchain.bind (·.archiver) = s.toolchain.bind (·.archiver)
  cacheDirectory : s'.build.bind (·.cacheDirectory) = s.build.bind (·.cacheDirectory)
  failOnTaskError : s'.build.bind (·.failOnTaskError) = s.build.bind (·.failOnTaskError)
  cache : s'.cache = s.cache
  variants : s'.variants = s.variants

theorem over_of_apply (h : e.apply s = .ok s') : e.Over s s' := by
  obtain ⟨build, hbuild, hs'⟩ := except_bind_eq_ok_iff.1 h
  obtain ⟨limit, hlimit, hbind⟩ := bind_applyBuild hbuild
  cases hs'
  have htool (f : ToolchainSettings → Option String) := getD_default_eq_bind s.toolchain f
  exact {
    cc := (bind_applyToolchain _ rfl).trans (congrArg e.cc.or (htool (·.cc) rfl))
    fincc := (bind_applyToolchain _ rfl).trans (congrArg e.fincc.or (htool (·.fincc) rfl))
    jobs := ⟨limit, hlimit, (hbind _ rfl).trans (congrArg limit.or (getD_default_eq_bind s.build (·.jobs) rfl))⟩
    directory := (hbind _ rfl).trans (congrArg (Option.or _) (getD_default_eq_bind s.build (·.directory) rfl))
    depCc := (bind_applyToolchain _ rfl).trans (htool (·.depCc) rfl)
    archiver := (bind_applyToolchain _ rfl).trans (htool (·.archiver) rfl)
    cacheDirectory := (hbind _ rfl).trans (getD_default_eq_bind s.build (·.cacheDirectory) rfl)
    failOnTaskError := (hbind _ rfl).trans (getD_default_eq_bind s.build (·.failOnTaskError) rfl)
    cache := rfl
    variants := rfl }

end Environment

/-! ## All layers -/

namespace Config

/-- A configuration as layers of settings: those of the environment, then those of the project, then those of
the user. -/
structure Layered (e : Environment) (user : UserSettings) (root : Path) (s : ProjectSettings) (c : Config) :
    Prop where
  root_eq : c.root = root
  cc : c.toolchain.cc = (e.cc.or (s.toolchain.bind (·.cc))).or (user.toolchain.bind (·.cc))
  fincc : c.toolchain.fincc = (e.fincc.or (s.toolchain.bind (·.fincc))).or (user.toolchain.bind (·.fincc))
  depCc : c.toolchain.depCc = (s.toolchain.bind (·.depCc)).or (user.toolchain.bind (·.depCc))
  archiver : c.toolchain.archiver = (s.toolchain.bind (·.archiver)).or (user.toolchain.bind (·.archiver))
  jobs : ∃ limit, e.JobLimit limit ∧ c.jobs = limit.or (s.build.bind (·.jobs))
  jobs_pos : ∀ n, c.jobs = some n → 1 ≤ n
  buildDirectory : c.buildDirectory =
    root.join (((e.buildDirectory.map Path.mk).or (s.build.bind (·.directory))).getD ⟨"build"⟩)
  cacheDirectory_of_some : ∀ p, s.build.bind (·.cacheDirectory) = some p → c.cacheDirectory = root.join p
  cacheDirectory_of_none : s.build.bind (·.cacheDirectory) = none →
    c.cacheDirectory = c.buildDirectory.joinText "objs"
  /-- All that is not set by the environment is as in the file. -/
  settings : e.Over s c.project

variable {d : Disk} {e : Environment} {userFile : Option Path} {start root : Path} {s s' : ProjectSettings}
  {user : UserSettings} {c : Config}

theorem toolchain_eq (c : Config) : c.toolchain =
    ⟨(c.project.toolchain.bind (·.cc)).or (c.user.toolchain.bind (·.cc)),
      (c.project.toolchain.bind (·.fincc)).or (c.user.toolchain.bind (·.fincc)),
      (c.project.toolchain.bind (·.depCc)).or (c.user.toolchain.bind (·.depCc)),
      (c.project.toolchain.bind (·.archiver)).or (c.user.toolchain.bind (·.archiver))⟩ := by
  simp only [toolchain, getD_default_eq_bind _ ToolchainSettings.cc rfl,
    getD_default_eq_bind _ ToolchainSettings.fincc rfl, getD_default_eq_bind _ ToolchainSettings.depCc rfl,
    getD_default_eq_bind _ ToolchainSettings.archiver rfl]

/-- A job limit is positive in every layer. -/
theorem jobs_pos_of_over (h : e.Over s s') (hvalid : s.validate = .ok ()) {n : Nat}
    (hn : s'.build.bind (·.jobs) = some n) : 1 ≤ n := by
  obtain ⟨limit, hlimit, hjobs⟩ := h.jobs
  rw [hn] at hjobs
  cases hlimit with
  | unset =>
    refine Nat.one_le_iff_ne_zero.2 ?_
    rintro rfl
    exact s.jobs_ne_zero_of_validate hvalid hjobs.symm
  | set _ _ hpos =>
    obtain rfl := Option.some.inj hjobs
    exact hpos

theorem layered_of_over (h : e.Over s s') (hvalid : s.validate = .ok ()) :
    Layered e user root s ⟨s', user, some root⟩ where
  root_eq := rfl
  cc := by rw [toolchain_eq, h.cc]
  fincc := by rw [toolchain_eq, h.fincc]
  depCc := by rw [toolchain_eq, h.depCc]
  archiver := by rw [toolchain_eq, h.archiver]
  jobs := h.jobs
  jobs_pos := fun _ hn => jobs_pos_of_over h hvalid hn
  buildDirectory := by
    rw [buildDirectory, h.directory]
    rfl
  cacheDirectory_of_some := fun p hp => by
    rw [cacheDirectory, h.cacheDirectory, hp]
    rfl
  cacheDirectory_of_none := fun hnone => by rw [cacheDirectory, h.cacheDirectory, hnone]
  settings := h

theorem loadFromDirectory_eq_ok (h : loadFromDirectory d e userFile start = .ok c) :
    ∃ root s project, Discovered d start root s ∧ s.validate = .ok () ∧ e.apply s = .ok project ∧
      c = ⟨project, userSettings d userFile, some root⟩ := by
  rw [loadFromDirectory] at h
  cases hfound : findRoot? d start with
  | none =>
    rw [hfound] at h
    obtain ⟨_, hempty, hrest⟩ := except_bind_eq_ok_iff.1 h
    cases hempty
    obtain ⟨project, hproject, hc⟩ := except_bind_eq_ok_iff.1 hrest
    cases hc
    exact ⟨start, .empty, project, .absent (findRoot?_eq_none hfound), rfl, hproject, rfl⟩
  | some root =>
    rw [hfound] at h
    obtain ⟨s, hs, hrest⟩ := except_bind_eq_ok_iff.1 h
    obtain ⟨project, hproject, hc⟩ := except_bind_eq_ok_iff.1 hrest
    cases hc
    obtain ⟨n, hn, hroot, hbefore⟩ := findRoot?_eq_some hfound
    obtain ⟨-, text, htext, hread, hvalid⟩ := ProjectSettings.load_eq_ok_iff.1 hs
    exact ⟨root, s, project, .found hn hroot hbefore htext hread, hvalid, hproject, rfl⟩

/-- Upwards from a start there are only as many directories as it has components. The root of a configuration
that was loaded is the start or the first of them that has a project file, or the start if none has. Compilers,
job limit and manifest directory are those of the environment, if it sets them, and all other settings are those
of the file; the user's file fills in for tools. -/
theorem loadFromDirectory_layered (h : loadFromDirectory d e userFile start = .ok c) :
    start.nthParent? (start.components.length + 1) = none ∧
      ∃ root s, Discovered d start root s ∧ Layered e (userSettings d userFile) root s c := by
  obtain ⟨root, s, project, hdiscovered, hvalid, hproject, rfl⟩ := loadFromDirectory_eq_ok h
  exact ⟨Path.nthParent?_eq_none (Nat.lt_succ_self _), root, s, hdiscovered,
    layered_of_over (Environment.over_of_apply hproject) hvalid⟩

deriving instance DecidableEq for Config

namespace Sample

/-- A project file two directories above the start, and a user's file. -/
def disk : Disk :=
  ⟨[([], .directory 0), (["p"], .directory 0),
    (["p", "objmill.toml"], .file ("[toolchain]\ncc = \"gcc\"\ndep_cc = \"cpp\"\n[build]\njobs = 4\n" ++
      "cache_dir = \"cache\"\nfail_on_task_error = true\n[cache]\ntracked_flags = [\"-DFAST\"]\n" ++
      "[variants.fast]\ninherits = \"native\"\nflags = [\"-DFAST\", \"-O2\"]\n").toUTF8 1),
    (["u"], .directory 0),
    (["u", "config.toml"], .file "[toolchain]\nfincc = \"ld\"\ndep_cc = \"gcc\"\n".toUTF8 1)], ["p"], 9⟩

/-- Another compiler, another job limit and another manifest directory. -/
def environment : Environment :=
  ⟨some "clang", none, some "+2", some "out", none, none⟩

/-- Of the file, the compiler and the job limit are gone, and all other settings are left. -/
def config : Config where
  project := ⟨some ⟨some "clang", none, some "cpp", none⟩,
    some ⟨some ⟨"out"⟩, some ⟨"cache"⟩, some 2, some true⟩, some ⟨["-DFAST"]⟩,
    [("fast", ⟨some "native", none, none, none, some ["-DFAST", "-O2"], none, none, none, none⟩)]⟩
  user := ⟨some ⟨none, some "ld", some "gcc", none⟩⟩
  projectRoot := some ⟨""⟩

end Sample

/-- The root of a relative start may be the empty path, above which there is nothing. -/
theorem sample_layered :
    loadFromDirectory Sample.disk Sample.environment (some ⟨"/u/config.toml"⟩) ⟨"sub/deep"⟩ =
        .ok Sample.config ∧
      Path.nthParent? ⟨"sub/deep"⟩ 3 = none ∧
      ∃ root s, Discovered Sample.disk ⟨"sub/deep"⟩ root s ∧
        Layered Sample.environment (userSettings Sample.disk (some ⟨"/u/config.toml"⟩)) root s
          Sample.config := by
  have h : loadFromDirectory Sample.disk Sample.environment (some ⟨"/u/config.toml"⟩) ⟨"sub/deep"⟩ =
      .ok Sample.config := by decide +kernel
  exact ⟨h, loadFromDirectory_layered h⟩

end Config

end VariantBuild
