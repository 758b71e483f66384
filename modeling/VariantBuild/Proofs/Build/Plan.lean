import VariantBuild.Proofs.Build.Calls
import VariantBuild.Proofs.Except
import VariantBuild.Proofs.Selection.Restarts
/-!
# The plan of a build

A build first settles what it will do and only then does it. `Builder.prepare` is the first part: it reads
the manifests, asks for package flags and settles files and flags, and its outcome is a `Plan`. What
follows depends on the plan alone: `Builder.makeObjects` runs the pre-build commands and the compilers, and
`Builder.finish` starts the final tool (`Builder.run_eq`).

Which phase a build was in when it stopped can be told from the error (`BuildError.IsEarly`).
-/

namespace VariantBuild

/-- What a build has settled before it changes anything. -/
structure Plan where
  /-- The manifest sets that take part. -/
  sets : List ManifestSet
  packages : PackageFlags
  selector : Selector
  resolution : Resolution

namespace Plan

/-- The settled flags. -/
def flags (p : Plan) : FlagSet :=
  p.resolution.flags

/-- The files that are linked, in order. -/
def included (p : Plan) : List Path :=
  p.resolution.selection.included

/-- The files that are compiled, in order. -/
def toCompile (p : Plan) : List CompileTask :=
  p.resolution.selection.toCompile

/-- The objects that are linked, in order. -/
def objects (p : Plan) : List Path :=
  p.selector.objectPaths p.resolution.selection p.flags

end Plan

namespace Builder

/-- Settles what a build will do. -/
def prepare (host : Host) (b : Builder) : Activity BuildError Plan := do
  let store ← .ofDisk fun d => ManifestStore.load d b.project.manifestDirectory
  let pkg ← PackageFlags.query host b.variant.packages
  let (s, resolution) ← .ofDisk (b.resolve (store.active b.variant.excludedManifests) pkg)
  return ⟨store.active b.variant.excludedManifests, pkg, s, resolution⟩

/-- Runs the pre-build commands of a plan and makes its objects. -/
def makeObjects (host : Host) (b : Builder) (p : Plan) :
    Activity BuildError (TaskReport × CompileReport) := do
  let tasks ← (b.taskRunner p.flags).runAll host p.toCompile
  let report ← b.compile host p.selector.cache p.flags p.toCompile
  return (tasks, report)

/-- The final command of a plan. -/
def linkCommand (b : Builder) (p : Plan) : Command :=
  b.linker.command p.flags (b.variant.finalFlags b.options p.packages) p.objects
    (b.variant.outputPath b.options)

/-- Makes the output from the objects of a plan. -/
def finish (host : Host) (b : Builder) (p : Plan) (reports : TaskReport × CompileReport) :
    Activity BuildError BuildResult := do
  b.linker.run host p.flags (b.variant.finalFlags b.options p.packages) p.objects
    (b.variant.outputPath b.options)
  return {
    variant := b.variant.name
    output := b.variant.outputPath b.options
    flags := p.flags
    selection := p.resolution.selection
    stats := ⟨p.included.length, reports.2.completed, p.resolution.restarts, reports.1.executed⟩ }

/-- A build settles its plan, makes the objects and finishes. -/
theorem run_eq (host : Host) (b : Builder) :
    b.run host = (do
      let p ← b.prepare host
      let reports ← b.makeObjects host p
      b.finish host p reports) := by
  simp only [run, prepare, makeObjects, finish, bind_assoc, pure_bind]
  rfl

end Builder

/-! ## Errors and phases -/

namespace BuildError

/-- Errors of the phases that change nothing. -/
inductive IsEarly : BuildError → Prop
  | manifestRead (path : Path) (cause : ReadError) : IsEarly (.manifestRead path cause)
  | manifest (name : String) (fault : ManifestFault) : IsEarly (.manifest name fault)
  | packages (names : List String) (errors : String) : IsEarly (.packages names errors)
  | tooManyTracked (count limit : Nat) : IsEarly (.tooManyTracked count limit)
  | diverged (restarts : Nat) : IsEarly (.diverged restarts)

end BuildError

namespace ManifestStore

variable {d : Disk} {directory : Path} {e : BuildError}

theorem isEarly_of_readFile {p : Path} (h : readFile d p = .error e) : e.IsEarly := by
  rw [readFile] at h
  split at h
  · cases h
  · cases h
    exact .manifestRead _ _

theorem isEarly_of_parseIndex {text : String} (h : parseIndex text = .error e) : e.IsEarly := by
  rw [parseIndex] at h
  split at h
  · obtain ⟨item, -, hitem⟩ := exists_eq_error_of_mapM h
    split at hitem
    · cases hitem
    · cases hitem
      exact .manifest _ _
  · cases h
    exact .manifest _ _

theorem isEarly_of_parse {name text : String} (h : ManifestSet.parse name text = .error e) :
    e.IsEarly := by
  rw [ManifestSet.parse] at h
  split at h
  · split at h
    · cases h
    · cases h
      exact .manifest _ _
  · cases h
    exact .manifest _ _

theorem isEarly_of_loadSet {name : String} (h : loadSet d directory name = .error e) : e.IsEarly := by
  rcases except_bind_eq_error_iff.1 h with hfile | ⟨text, -, hset⟩
  · exact isEarly_of_readFile hfile
  · exact isEarly_of_parse hset

/-- Manifests that cannot be loaded are unreadable or malformed. -/
theorem isEarly_of_load (h : load d directory = .error e) : e.IsEarly := by
  rcases except_bind_eq_error_iff.1 h with hfile | ⟨text, -, h⟩
  · exact isEarly_of_readFile hfile
  rcases except_bind_eq_error_iff.1 h with hindex | ⟨names, -, h⟩
  · exact isEarly_of_parseIndex hindex
  rcases except_bind_eq_error_iff.1 h with hsets | ⟨sets, -, h⟩
  · obtain ⟨name, -, hname⟩ := exists_eq_error_of_mapM hsets
    exact isEarly_of_loadSet hname
  · cases h

end ManifestStore

namespace Builder

variable {host : Host} {b : Builder} {w w' : World} {e : BuildError}

theorem isEarly_of_selector (h : b.selector = .error e) : e.IsEarly := by
  rcases except_bind_eq_error_iff.1 h with hcache | ⟨cache, -, hlast⟩
  · rcases except_bind_eq_error_iff.1 hcache with htable | ⟨deriver, -, hlast⟩
    · rw [KeyDeriver.withTracked] at htable
      split at htable
      · cases htable
        exact .tooManyTracked _ _
      · cases htable
    · cases hlast
  · cases hlast

/-- Settling flags and files fails for too many tracked flags, for a conflict, or at a file. -/
theorem isEarly_or_io_of_resolve {sets : List ManifestSet} {pkg : PackageFlags} {d : Disk}
    (h : b.resolve sets pkg d = .error e) : e.IsEarly ∨ ∃ p cause, e = .io p cause := by
  rcases except_bind_eq_error_iff.1 h with hselector | ⟨s, -, hrest⟩
  · exact .inl (isEarly_of_selector hselector)
  rcases except_bind_eq_error_iff.1 hrest with hresolve | ⟨r, -, hlast⟩
  · rw [Selector.resolve] at hresolve
    rcases s.settle_cases d (ManifestSet.allEntries sets) (ManifestSet.useTokens sets).length 0
      (b.variant.initialFlags b.options pkg) with ⟨_, _, -, -, heq⟩ | ⟨_, _, -, -, heq⟩ |
        ⟨_, _, e', -, -, hattempt, heq⟩
    · rw [heq] at hresolve
      cases hresolve
    · rw [heq] at hresolve
      cases hresolve
      exact .inl (.diverged _)
    · rw [heq] at hresolve
      cases hresolve
      exact .inr (Selector.exists_io_of_attempt_eq_error hattempt)
  · cases hlast

theorem selector_eq_ok {s : Selector} (h : b.selector = .ok s) :
    s.root = b.project.root ∧ b.project.cache = .ok s.cache ∧
      s.cache.directory = b.project.cacheDirectory := by
  obtain ⟨cache, hcache, hlast⟩ := except_bind_eq_ok_iff.1 h
  cases hlast
  obtain ⟨deriver, -, hlast'⟩ := except_bind_eq_ok_iff.1 hcache
  cases hlast'
  exact ⟨rfl, hcache, rfl⟩

theorem resolve_eq_ok_iff {sets : List ManifestSet} {pkg : PackageFlags} {d : Disk} {s : Selector}
    {r : Resolution} :
    b.resolve sets pkg d = .ok (s, r) ↔
      b.selector = .ok s ∧ s.resolve d sets (b.variant.initialFlags b.options pkg) = .ok r := by
  constructor
  · intro h
    obtain ⟨s', hselector, hrest⟩ := except_bind_eq_ok_iff.1 h
    obtain ⟨r', hresolve, hlast⟩ := except_bind_eq_ok_iff.1 hrest
    cases hlast
    exact ⟨hselector, hresolve⟩
  · rintro ⟨hselector, hresolve⟩
    exact except_bind_eq_ok_iff.2 ⟨s, hselector, except_bind_eq_ok_iff.2 ⟨r, hresolve, rfl⟩⟩

/-- A build is prepared when its manifests are loaded, its packages known and its flags settled. -/
theorem run_prepare_eq_ok_iff {p : Plan} :
    (b.prepare host).run w = .ok p w' ↔
      ∃ store, ManifestStore.load w.disk b.project.manifestDirectory = .ok store ∧
        p.sets = store.active b.variant.excludedManifests ∧
        (PackageFlags.query host b.variant.packages).run w = .ok p.packages w' ∧
        b.resolve p.sets p.packages w'.disk = .ok (p.selector, p.resolution) := by
  constructor
  · intro h
    obtain ⟨store, v, hload, hrest⟩ := Activity.run_bind_eq_ok_iff.1 h
    obtain ⟨hload, rfl⟩ := Activity.run_ofDisk_eq_ok_iff.1 hload
    obtain ⟨pkg, v', hquery, hrest'⟩ := Activity.run_bind_eq_ok_iff.1 hrest
    obtain ⟨⟨s, r⟩, v'', hresolve, hlast⟩ := Activity.run_bind_eq_ok_iff.1 hrest'
    obtain ⟨hresolve, rfl⟩ := Activity.run_ofDisk_eq_ok_iff.1 hresolve
    cases hlast
    exact ⟨store, hload, rfl, hquery, hresolve⟩
  · rintro ⟨store, hload, hsets, hquery, hresolve⟩
    obtain ⟨sets, pkg, s, r⟩ := p
    obtain rfl : sets = _ := hsets
    refine Activity.run_bind_eq_ok_iff.2
      ⟨store, w, Activity.run_ofDisk_eq_ok_iff.2 ⟨hload, rfl⟩, ?_⟩
    refine Activity.run_bind_eq_ok_iff.2 ⟨pkg, w', hquery, ?_⟩
    exact Activity.run_bind_eq_ok_iff.2
      ⟨(s, r), w', Activity.run_ofDisk_eq_ok_iff.2 ⟨hresolve, rfl⟩, rfl⟩

/-- Without packages nothing is asked. -/
theorem eq_of_prepare {p : Plan} (hnone : b.variant.packages = []) (h : (b.prepare host).run w = .ok p w') :
    p.packages = .none ∧ w' = w := by
  obtain ⟨-, -, -, hquery, -⟩ := run_prepare_eq_ok_iff.1 h
  rw [hnone] at hquery
  obtain ⟨hpackages, hworld⟩ : PackageFlags.none = p.packages ∧ w = w' := EStateM.Result.ok.inj hquery
  exact ⟨hpackages.symm, hworld.symm⟩

/-- A build that is not prepared stops at its manifests, its packages, or at settling its flags. -/
theorem run_prepare_error_cases (h : (b.prepare host).run w = .error e w') :
    (ManifestStore.load w.disk b.project.manifestDirectory = .error e ∧ w' = w) ∨
    ∃ store, ManifestStore.load w.disk b.project.manifestDirectory = .ok store ∧
      ((PackageFlags.query host b.variant.packages).run w = .error e w' ∨
        ∃ pkg, (PackageFlags.query host b.variant.packages).run w = .ok pkg w' ∧
          b.resolve (store.active b.variant.excludedManifests) pkg w'.disk = .error e) := by
  rcases Activity.run_bind_eq_error_iff.1 h with hload | ⟨store, v, hload, hrest⟩
  · exact .inl (Activity.run_ofDisk_eq_error_iff.1 hload)
  obtain ⟨hload, rfl⟩ := Activity.run_ofDisk_eq_ok_iff.1 hload
  refine .inr ⟨store, hload, ?_⟩
  rcases Activity.run_bind_eq_error_iff.1 hrest with hquery | ⟨pkg, v', hquery, hrest'⟩
  · exact .inl hquery
  rcases Activity.run_bind_eq_error_iff.1 hrest' with hresolve | ⟨⟨s, r⟩, v'', -, hlast⟩
  · obtain ⟨hresolve, rfl⟩ := Activity.run_ofDisk_eq_error_iff.1 hresolve
    exact .inr ⟨pkg, hquery, hresolve⟩
  · cases hlast

/-- What stops a build before anything is changed: an early error, a query that cannot be started, or
a file that cannot be queried. -/
theorem error_cases_of_run_prepare (h : (b.prepare host).run w = .error e w') :
    e.IsEarly ∨ (∃ program cause, e = .spawn program cause) ∨ ∃ p cause, e = .io p cause := by
  rcases run_prepare_error_cases h with ⟨hload, -⟩ | ⟨store, -, hquery | ⟨pkg, -, hresolve⟩⟩
  · exact .inl (ManifestStore.isEarly_of_load hload)
  · rcases (PackageFlags.calls_of_query_eq_error hquery).2 with ⟨cause, rfl⟩ | ⟨text, rfl⟩
    · exact .inr (.inl ⟨_, cause, rfl⟩)
    · exact .inl (.packages _ _)
  · rcases isEarly_or_io_of_resolve hresolve with hearly | hio
    · exact .inl hearly
    · exact .inr (.inr hio)

/-- The plan's objects are kept where the project keeps objects. -/
theorem cache_of_prepare {p : Plan} (h : (b.prepare host).run w = .ok p w') :
    b.project.cache = .ok p.selector.cache ∧
      p.selector.cache.directory = b.project.cacheDirectory := by
  obtain ⟨store, -, -, -, hresolve⟩ := run_prepare_eq_ok_iff.1 h
  exact (selector_eq_ok (resolve_eq_ok_iff.1 hresolve).1).2

/-! ## How a build ends -/

/-- Each part of a build runs only if the one before it has succeeded, in the world that it left. -/
theorem run_cases (host : Host) (b : Builder) (w : World) :
    (∃ e v, (b.prepare host).run w = .error e v ∧ (b.run host).run w = .error e v) ∨
    ∃ p v, (b.prepare host).run w = .ok p v ∧
      ((∃ e v', (b.makeObjects host p).run v = .error e v' ∧ (b.run host).run w = .error e v') ∨
      ∃ reports v', (b.makeObjects host p).run v = .ok reports v' ∧
        (b.run host).run w = (b.finish host p reports).run v') := by
  rw [run_eq]
  cases hprepare : (b.prepare host).run w with
  | error e v => exact .inl ⟨e, v, rfl, Activity.run_bind_of_error hprepare⟩
  | ok p v =>
    refine .inr ⟨p, v, rfl, ?_⟩
    rw [Activity.run_bind_of_ok hprepare]
    cases hmade : (b.makeObjects host p).run v with
    | error e v' => exact .inl ⟨e, v', rfl, Activity.run_bind_of_error hmade⟩
    | ok reports v' => exact .inr ⟨reports, v', rfl, Activity.run_bind_of_ok hmade⟩

end Builder

end VariantBuild
