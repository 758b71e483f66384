import VariantBuild.Proofs.Build.History
import VariantBuild.Proofs.ObjectKey.Size
import VariantBuild.Proofs.Selection.Directed
import VariantBuild.Proofs.Selection.Replay
/-!
# Switching back and forth

A variant that was built once is built again, whatever was built in between. All its objects are still there
and up to date, so nothing is compiled, and the final tool is started with the command that it was started with
before (`Repeats`).

Resolution looks at more objects than those: in a pass that is given up, an entry may be admitted that is
left out in the end. Before the cache directory was made such an object was simply missing. Afterwards its
name is looked up for the first time, and a name that is too long for the system stops the build (`Stops`),
although nothing of that pass was to last. That is the only obstacle (`Obstacle`), and a real one
(`run_eq_error_of_tooLong`).
-/

namespace VariantBuild.Builder

/-- Building a plan again comes to the same files and flags with nothing to make, and after the queries tries
to start the final command `c` and nothing else. -/
structure Repeats (host : Host) (b : Builder) (p p' : Plan) (c : Command) (w v : World) : Prop where
  prepared : (b.prepare host).run w = .ok p' v
  toCompile : p'.toCompile = []
  included : p'.included = p.included
  flags : p'.flags = p.flags
  started : ∃ result, Calls host v [⟨c, result⟩] ((b.run host).perform w).2
  run_eq : (b.run host).run w = (b.finish host p' (⟨0, 0⟩, ⟨0, []⟩)).run v

/-- An object that a pass looks at on the way to a plan, and that cannot be queried. -/
structure Obstacle (b : Builder) (p : Plan) (d : Disk) (f : FlagSet) (entry : SourceEntry)
    (cause : SystemError) : Prop where
  /-- The pass is one of those that the directives ask for before the flags of the plan, and is given up. -/
  givenUp : ∃ passes, Selector.directivePasses p.entries (ManifestSet.useTokens p.sets).length
    (b.variant.initialFlags b.options p.packages) = some (passes, p.flags) ∧ f ∈ passes
  looked : entry ∈ Selector.looksAt f p.entries
  refused : d.modified (p.selector.cache.objectPath entry.1 f) = .error cause
  cause_ne : cause ≠ .notFound

/-- Building a plan again stops at an object of a pass that is given up. -/
structure Stops (host : Host) (b : Builder) (p : Plan) (first : Disk) (w v : World) (f : FlagSet)
    (entry : SourceEntry) (cause : SystemError) : Prop extends Obstacle b p v.disk f entry cause where
  /-- The object was missing when the plan was made. -/
  missing : first.modified (p.selector.cache.objectPath entry.1 f) = .error .notFound
  /-- With any file to link, the cache directory is there, and only the name can be at fault. -/
  tooLong : p.included ≠ [] → cause = .nameTooLong ∧
    Disk.greatestNameSize < (p.selector.cache.deriver.derive entry.1 f).fileName.utf8ByteSize
  /-- Nothing but queries was started. -/
  run_eq : (b.run host).run w = .error (.io (p.selector.cache.objectPath entry.1 f) cause) v

/-- What building a plan again comes to, whose final command was `c` and which was made on the disk `first`. -/
structure Returns (host : Host) (b : Builder) (p : Plan) (c : Command) (first : Disk) (w v : World) :
    Prop where
  /-- The package queries come first. -/
  queried : ∃ queries, Calls host w queries v ∧
    queries.map (·.command) = PackageFlags.commands b.variant.packages
  /-- The build repeats exactly if no pass that is given up looks at an object that cannot be queried. -/
  repeats_iff : (∃ p', Repeats host b p p' c w v) ↔
    ¬ ∃ f entry cause, Obstacle b p v.disk f entry cause
  /-- Otherwise it stops at one of these objects. -/
  stops : (∃ f entry cause, Obstacle b p v.disk f entry cause) →
    ∃ f entry cause, Stops host b p first w v f entry cause

variable {host host' : Host} {b : Builder} {store : ManifestStore} {w w' w₁ v v' : World} {p : Plan}
  {r : BuildResult}

/-! ## The first build -/

theorem allEntries_active_subset (store : ManifestStore) (excluded : List Nat) :
    ManifestSet.allEntries (store.active excluded) ⊆ ManifestSet.allEntries store.sets := by
  intro entry he
  obtain ⟨set, hset, hentry⟩ := List.mem_flatMap.1 he
  obtain ⟨⟨set', i⟩, hpair, rfl⟩ := List.mem_map.1 hset
  exact List.mem_flatMap.2 ⟨set', (List.mem_zipIdx (List.mem_of_mem_filter hpair)).2.2 ▸
    List.getElem_mem _, hentry⟩

theorem sets_of_prepare (hsound : Sound b.project store w.disk)
    (hprepare : (b.prepare host).run w = .ok p v) : p.sets = store.active b.variant.excludedManifests := by
  obtain ⟨store', hload, hsets, -⟩ := run_prepare_eq_ok_iff.1 hprepare
  rw [hsound.manifests] at hload
  cases hload
  exact hsets

theorem entryInputs_subset (hsound : Sound b.project store w.disk)
    (hprepare : (b.prepare host).run w = .ok p v) {entry : SourceEntry} (he : entry ∈ p.entries) :
    entryInputs p.selector.root entry ⊆ store.inputs b.project.root := by
  rw [Plan.entries, sets_of_prepare hsound hprepare] at he
  rw [root_of_prepare hprepare]
  exact fun q hq => List.mem_flatMap.2 ⟨entry, allEntries_active_subset _ _ he, hq⟩

/-- In a project that is in order the inputs of a plan are there. -/
theorem exists_modified_of_sound (hsound : Sound b.project store w.disk)
    (hprepare : (b.prepare host).run w = .ok p v) {d : Disk} (hd : Sound b.project store d)
    {entry : SourceEntry} (he : entry ∈ p.entries) :
    ∀ q ∈ entryInputs p.selector.root entry, ∃ t, d.modified q = .ok t := by
  intro q hq
  obtain ⟨t, ht, -⟩ := hd.inputs q (entryInputs_subset hsound hprepare he hq)
  exact ⟨t, ht⟩

/-- Compilers that all succeed carry, and leave every object of the plan up to date that was so before or
that was to be made. -/
theorem upToDate_of_compiled {v₁ v₂ : World} {compiles : List Call} {outcome : Nat → Call}
    (hcareful : Careful host b b.project store)
    (habsolute : b.project.cacheDirectory.isAbsolute = true) (hsound : Sound b.project store w.disk)
    (hprepare : (b.prepare host).run w = .ok p v)
    (hcompiled : Compiled host b p v₁ compiles outcome v₂) (hsucceeded : failures p outcome = [])
    (hv₁ : Sound b.project store v₁.disk) :
    Carries b.project store v₁.disk v₂.disk ∧ ∀ o ∈ p.objects, ∀ few ⊆ p.inputs,
      (v₁.disk.UpToDate few o ∨ ∃ t ∈ p.toCompile, t.object = o) → v₂.disk.UpToDate few o := by
  have hmkdir := Carries.makeDirectories habsolute hv₁
  obtain ⟨u, hu, hcalls⟩ := hcompiled.calls
  have hready : Carries b.project store v₁.disk u.disk := by
    rcases hu with rfl | ⟨-, rfl⟩
    · exact .refl hv₁
    · exact hmkdir
  have hcarries := hready.trans <|
    carries_of_compilers hcareful hsound hprepare hcalls hcompiled.commands_perm.subset hready.sound
  obtain ⟨-, -, -, -, hfresh⟩ := hcompiled.upToDate (I := Sound b.project store) hsucceeded hprepare
    habsolute (by simpa using ⟨hv₁, hmkdir.sound⟩) <| by
      intro t ht d o d' hd hstart hsuccess
      have hleaves := hcareful.compilers w p v hsound hprepare t ht d o d' hd hstart
      rw [if_pos hsuccess, join_object_of_mem_toCompile hprepare habsolute ht] at hleaves
      refine ⟨(hleaves.carries hd).sound, hleaves.remakes hd ?_ fun o ho =>
        exists_name_of_mem_objects hprepare ho⟩
      intro q hq
      obtain ⟨entry, he, hqe⟩ := List.mem_flatMap.1 hq
      exact entryInputs_subset hsound hprepare he hqe
  exact ⟨hcarries, hfresh⟩

/-- A build that succeeds leaves all its objects up to date, and carries on from where it was settled. -/
theorem upToDate_of_run (hcareful : Careful host b b.project store)
    (habsolute : b.project.cacheDirectory.isAbsolute = true) (hsound : Sound b.project store w.disk)
    (hprepare : (b.prepare host).run w = .ok p v) (hrun : (b.run host).run w = .ok r w₁) :
    Sound b.project store v.disk ∧ Carries b.project store v.disk w₁.disk ∧
      ∀ entry ∈ p.admitted, w₁.disk.UpToDate (entryInputs p.selector.root entry)
        (p.selector.cache.objectPath entry.1 p.flags) := by
  obtain ⟨queries, hprepared⟩ := exists_prepared hprepare
  have hqueried := carries_of_queries hcareful hprepared.calls
    (hprepared.commands ▸ List.prefix_refl _) hsound
  rcases makeObjects_cases hprepared with ⟨e, x, t, hmade, -⟩ |
    ⟨reports, tasks, v₁, compiles, outcome, v₂, hmade, hran, hcompiled, hsucceeded⟩
  · rw [run_eq, Activity.run_bind_of_ok hprepare, Activity.run_bind_of_error hmade] at hrun
    cases hrun
  rw [run_eq, Activity.run_bind_of_ok hprepare, Activity.run_bind_of_ok hmade] at hrun
  obtain ⟨⟨⟩, x, hlink, hlast⟩ := Activity.run_bind_eq_ok_iff.1 hrun
  cases hlast
  obtain ⟨final, hstart⟩ := Linker.call_of_run_eq_ok hlink
  -- phase by phase, from the end of the queries to the end of the build
  have htasks := carries_of_others hcareful hsound hprepare hran.calls
    (List.subset_append_of_subset_left _ (hran.commands ▸ List.Subset.refl _)) hqueried.sound
  obtain ⟨hcompiles, hfresh⟩ :=
    upToDate_of_compiled hcareful habsolute hsound hprepare hcompiled hsucceeded htasks.sound
  have hlinked := carries_of_others hcareful hsound hprepare (Calls.singleton hstart)
    (List.subset_append_of_subset_right _ (List.Subset.refl _)) hcompiles.sound
  refine ⟨hqueried.sound, htasks.trans (hcompiles.trans hlinked), fun entry he => ?_⟩
  have hentry := (Plan.mem_admitted_iff.1 he).1
  have hinputs := entryInputs_subset hsound hprepare hentry
  obtain ⟨name, hname, hobject⟩ := exists_name_of_mem_objects hprepare (object_mem_objects hprepare he)
  have hmade : v₂.disk.UpToDate (entryInputs p.selector.root entry)
      (p.selector.cache.objectPath entry.1 p.flags) := by
    refine hfresh _ (object_mem_objects hprepare he) _ (Plan.inputs_subset hentry) ?_
    rcases upToDate_or_toCompile hprepare he with hup | htask
    · rw [hobject] at hup ⊢
      exact .inl (htasks.upToDate name hname _ hinputs hup)
    · exact .inr htask
  rw [hobject] at hmade ⊢
  exact hlinked.upToDate name hname _ hinputs hmade

/-! ## The same build again -/

theorem isAbsolute_of_mem_objects (habsolute : b.project.cacheDirectory.isAbsolute = true)
    (hprepare : (b.prepare host).run w = .ok p v) {o : Path} (ho : o ∈ p.objects) :
    o.isAbsolute = true := by
  obtain ⟨name, hname, rfl⟩ := exists_name_of_mem_objects hprepare ho
  exact Path.isAbsolute_joinText habsolute hname

theorem selector_of_prepare (hprepare : (b.prepare host).run w = .ok p v) :
    b.selector = .ok p.selector ∧ p.selector.resolve v.disk p.sets
      (b.variant.initialFlags b.options p.packages) = .ok p.resolution := by
  obtain ⟨store', -, -, -, hresolve⟩ := run_prepare_eq_ok_iff.1 hprepare
  exact resolve_eq_ok_iff.1 hresolve

/-- With nothing to make, only the final tool is started. -/
theorem run_eq_finish (hprepare : (b.prepare host).run w = .ok p v) (hnone : p.toCompile = []) :
    (b.run host).run w = (b.finish host p (⟨0, 0⟩, ⟨0, []⟩)).run v := by
  have hmade : (b.makeObjects host p).run v = .ok (⟨0, 0⟩, ⟨0, []⟩) v := by
    rw [makeObjects, hnone]
    rfl
  rw [run_eq, Activity.run_bind_of_ok hprepare, Activity.run_bind_of_ok hmade]

/-- What stops the final tool is no file that cannot be queried. -/
theorem Repeats.run_ne_io {p' : Plan} {c : Command} (h : Repeats host b p p' c w v) (o : Path)
    (cause : SystemError) :
    (b.run host).run w ≠ .error (.io o cause) v' := by
  intro hfailed
  rw [h.run_eq] at hfailed
  rcases Activity.run_bind_eq_error_iff.1 hfailed with hlink | ⟨-, v'', -, hlast⟩
  · obtain ⟨result, -, ⟨_, -, he⟩ | ⟨_, -, he⟩⟩ := Linker.call_of_run_eq_error hlink
    · cases he
    · cases he
  · cases hlast

/-- Where the flags of a plan cannot be settled again, the build stops after its queries. -/
theorem run_eq_error_of_resolve {e : BuildError} (hprepare : (b.prepare host).run w = .ok p v)
    (hload : ManifestStore.load w'.disk b.project.manifestDirectory = .ok store)
    (hsets : p.sets = store.active b.variant.excludedManifests)
    (hquery : (PackageFlags.query host' b.variant.packages).run w' = .ok p.packages v')
    (hresolve : p.selector.resolve v'.disk p.sets (b.variant.initialFlags b.options p.packages) = .error e) :
    (b.run host').run w' = .error e v' := by
  have hresolved : b.resolve (store.active b.variant.excludedManifests) p.packages v'.disk = .error e := by
    rw [← hsets]
    exact except_bind_eq_error_iff.2 (.inr ⟨p.selector, (selector_of_prepare hprepare).1,
      except_bind_eq_error_iff.2 (.inl hresolve)⟩)
  have hprepare' : (b.prepare host').run w' = .error e v' := by
    rw [prepare, Activity.run_bind_of_ok (Activity.run_ofDisk_eq_ok_iff.2 ⟨hload, rfl⟩),
      Activity.run_bind_of_ok hquery]
    exact Activity.run_bind_of_error (Activity.run_ofDisk_eq_error_iff.2 ⟨hresolved, rfl⟩)
  rw [run_eq, Activity.run_bind_of_error hprepare']

/-- An object that is linked shows that the cache directory is there. -/
theorem isDirectory_of_included (habsolute : b.project.cacheDirectory.isAbsolute = true)
    (hprepare : (b.prepare host).run w = .ok p v) (hincluded : p.included ≠ [])
    (hfresh : ∀ entry ∈ p.admitted, v'.disk.UpToDate (entryInputs p.selector.root entry)
      (p.selector.cache.objectPath entry.1 p.flags)) :
    v'.disk.isDirectory b.project.cacheDirectory = true := by
  rw [Plan.included, (isSettled_of_prepare hprepare).included] at hincluded
  obtain ⟨linked, hlinked⟩ : ∃ linked, linked ∈ p.admitted :=
    List.exists_mem_of_ne_nil _ fun hnil => hincluded (List.map_eq_nil_iff.2 hnil)
  obtain ⟨t, ht, -⟩ := hfresh linked hlinked
  obtain ⟨name, hname, hobject⟩ :=
    exists_name_of_mem_objects hprepare (object_mem_objects hprepare hlinked)
  exact Disk.isDirectory_of_modified_joinText habsolute hname (hobject ▸ ht)

theorem objectPath_of_prepare (hprepare : (b.prepare host).run w = .ok p v) (source : Path) (f : FlagSet) :
    p.selector.cache.objectPath source f = b.project.cacheDirectory.joinText
      (p.selector.cache.deriver.derive source f).fileName := by
  rw [ObjectCache.objectPath, (cache_of_prepare hprepare).2]

/-- An entry that could be checked when a plan was made, and cannot be checked later, has an object that was
missing, and that is too long for the system if there is an object to link. -/
theorem refused_of_staleness_eq_error (habsolute : b.project.cacheDirectory.isAbsolute = true)
    (hsound : Sound b.project store w.disk) (hprepare : (b.prepare host).run w = .ok p v)
    (hcarries : Carries b.project store v.disk v'.disk)
    (hfresh : ∀ entry ∈ p.admitted, v'.disk.UpToDate (entryInputs p.selector.root entry)
      (p.selector.cache.objectPath entry.1 p.flags)) {f : FlagSet} {entry : SourceEntry}
    {reason : Option StaleReason} {e : BuildError} (hentry : entry ∈ p.entries)
    (hreason : p.selector.staleness v.disk f entry = .ok reason)
    (herror : p.selector.staleness v'.disk f entry = .error e) :
    ∃ cause, v.disk.modified (p.selector.cache.objectPath entry.1 f) = .error .notFound ∧
      v'.disk.modified (p.selector.cache.objectPath entry.1 f) = .error cause ∧ cause ≠ .notFound ∧
      (p.included ≠ [] → cause = .nameTooLong ∧
        Disk.greatestNameSize < (p.selector.cache.deriver.derive entry.1 f).fileName.utf8ByteSize) ∧
      e = .io (p.selector.cache.objectPath entry.1 f) cause := by
  have hobject := objectPath_of_prepare hprepare entry.1 f
  have hname := p.selector.cache.deriver.isFileName_fileName entry.1 f
  have hinputs := exists_modified_of_sound hsound hprepare hcarries.sound hentry
  obtain ⟨cause, hne, hcause, rfl⟩ := Staleness.eq_io_of_check hinputs herror
  -- an object that was there is still there
  have hmissing : v.disk.modified (p.selector.cache.objectPath entry.1 f) = .error .notFound := by
    rcases Staleness.modified_of_check hreason with ⟨t, ht⟩ | hmissing
    · have hup := hcarries.upToDate _ hname [] (List.nil_subset _) (hobject ▸ ⟨t, ht, by simp⟩)
      obtain ⟨t', ht', -⟩ := hup
      rw [← hobject, hcause] at ht'
      cases ht'
    · exact hmissing
  refine ⟨cause, hmissing, hcause, hne, fun hincluded => ?_, rfl⟩
  -- the path may be followed, as it was before, and its directory is there: only the name is left
  have hdirectory := isDirectory_of_included habsolute hprepare hincluded hfresh
  rw [hobject] at hmissing hcause
  have hrefusal := Disk.refusal?_eq_none_of_modified (Path.isAbsolute_joinText habsolute hname) hmissing
  rcases Disk.modified_joinText_cases habsolute hname hrefusal hdirectory with
    ⟨t, ht⟩ | hfound | ⟨hlong, hsize⟩
  · rw [hcause] at ht
    cases ht
  · rw [hcause] at hfound
    exact absurd (Except.error.inj hfound) hne
  · rw [hcause] at hlong
    exact ⟨Except.error.inj hlong, hsize⟩

/-- After any history of the project, and the queries of the next build, all objects of a build that
succeeded are still up to date. -/
theorem upToDate_of_history (habsolute : b.project.cacheDirectory.isAbsolute = true)
    (hcareful : Careful host b b.project store) (hcareful' : Careful host' b b.project store)
    (hsound : Sound b.project store w.disk) (hprepare : (b.prepare host).run w = .ok p v)
    (hrun : (b.run host).run w = .ok r w₁) (hhistory : History b.project store w₁.disk w'.disk)
    (hquery : (PackageFlags.query host' b.variant.packages).run w' = .ok p.packages v') :
    Sound b.project store w'.disk ∧ Carries b.project store v.disk v'.disk ∧
      ∀ entry ∈ p.admitted, v'.disk.UpToDate (entryInputs p.selector.root entry)
        (p.selector.cache.objectPath entry.1 p.flags) := by
  obtain ⟨-, hcarries, hfresh⟩ := upToDate_of_run hcareful habsolute hsound hprepare hrun
  have hreturned := hhistory.carries habsolute hcarries.sound
  have hqueried : Carries b.project store w'.disk v'.disk := by
    obtain ⟨queries, hcalls, hcommands⟩ := PackageFlags.calls_of_query_eq_ok hquery
    exact carries_of_queries hcareful' hcalls (hcommands ▸ List.prefix_refl _) hreturned.sound
  refine ⟨hreturned.sound, hcarries.trans (hreturned.trans hqueried), fun entry he => ?_⟩
  obtain ⟨name, hname, hobject⟩ := exists_name_of_mem_objects hprepare (object_mem_objects hprepare he)
  rw [hobject]
  refine (hreturned.trans hqueried).upToDate name hname _
    (entryInputs_subset hsound hprepare (Plan.mem_admitted_iff.1 he).1) ?_
  rw [← hobject]
  exact hfresh entry he

/-- The passes on the way to a plan met no fault when it was made. -/
theorem exists_passes_of_prepare (hprepare : (b.prepare host).run w = .ok p v) :
    ∃ passes, Selector.directivePasses p.entries (ManifestSet.useTokens p.sets).length
        (b.variant.initialFlags b.options p.packages) = some (passes, p.flags) ∧
      ∀ f ∈ passes ++ [p.flags], p.selector.passFault? v.disk p.entries f = none := by
  have hresolve := (selector_of_prepare hprepare).2
  obtain ⟨passes, hpasses⟩ := Selector.exists_directivePasses_of_settle hresolve
  refine ⟨passes, hpasses, List.findSome?_eq_none_iff.1 ?_⟩
  rw [Selector.resolve_eq_of_directivePasses hpasses] at hresolve
  change p.selector.firstFault? v.disk p.entries (passes ++ [p.flags]) = none
  split at hresolve
  · cases hresolve
  · next hnone => exact hnone

/-- An object that is in the way is a fault of its pass. -/
theorem Obstacle.passFault?_ne_none {d : Disk} {f : FlagSet} {entry : SourceEntry} {cause : SystemError}
    (h : Obstacle b p d f entry cause) : p.selector.passFault? d p.entries f ≠ none := by
  intro hnone
  obtain ⟨reason, hreason⟩ := Selector.passFault?_eq_none_iff.1 hnone entry h.looked
  rcases Staleness.modified_of_check hreason with ⟨t, ht⟩ | hmissing
  · cases ht.symm.trans h.refused
  · exact h.cause_ne (Except.error.inj (h.refused.symm.trans hmissing))

/-- Where all objects of a plan are fresh and no pass comes upon a fault, the plan is made again with nothing
left to compile. -/
theorem repeats_of_passes {passes : List FlagSet} (hmanifests : Sound b.project store w'.disk)
    (hsound : Sound b.project store w.disk) (hprepare : (b.prepare host).run w = .ok p v)
    (hquery : (PackageFlags.query host' b.variant.packages).run w' = .ok p.packages v')
    (hpasses : Selector.directivePasses p.entries (ManifestSet.useTokens p.sets).length
      (b.variant.initialFlags b.options p.packages) = some (passes, p.flags))
    (hnone : p.selector.firstFault? v'.disk p.entries (passes ++ [p.flags]) = none)
    (hfresh : ∀ entry ∈ p.entries, entry.2.admitted p.flags = true →
      p.selector.staleness v'.disk p.flags entry = .ok none) :
    ∃ p', Repeats host' b p p' (b.linkCommand p) w' v' := by
  have hresolve := Selector.resolve_eq_of_directivePasses (s := p.selector) (d := v'.disk) hpasses
  rw [Plan.entries] at hnone hfresh
  rw [hnone] at hresolve
  dsimp only at hresolve
  have hincluded : p.included = p.admitted.map (·.1) := (isSettled_of_prepare hprepare).included
  rw [Plan.admitted, Plan.entries] at hincluded
  rw [Selector.selectionUnder_eq_of_fresh hfresh, ← hincluded] at hresolve
  have hsets := sets_of_prepare hsound hprepare
  let p' : Plan := ⟨p.sets, p.packages, p.selector, ⟨p.flags, ⟨p.included, []⟩, passes.length⟩⟩
  have hprepare' : (b.prepare host').run w' = .ok p' v' :=
    run_prepare_eq_ok_iff.2 ⟨store, hmanifests.manifests, hsets, hquery,
      resolve_eq_ok_iff.2 ⟨(selector_of_prepare hprepare).1, hresolve⟩⟩
  have hrun := run_eq_finish hprepare' rfl
  refine ⟨p', hprepare', rfl, rfl, rfl, ?_, hrun⟩
  rw [Activity.perform, hrun]
  exact calls_of_finish host' b p' _ v'

/-- Where one of the passes comes upon a fault, the build stops at an object of a pass that is given up, for all
objects of the plan are fresh. -/
theorem stops_of_passes {passes : List FlagSet} {e : BuildError}
    (habsolute : b.project.cacheDirectory.isAbsolute = true) (hmanifests : Sound b.project store w'.disk)
    (hsound : Sound b.project store w.disk) (hprepare : (b.prepare host).run w = .ok p v)
    (hquery : (PackageFlags.query host' b.variant.packages).run w' = .ok p.packages v')
    (hcarries : Carries b.project store v.disk v'.disk)
    (hupToDate : ∀ entry ∈ p.admitted, v'.disk.UpToDate (entryInputs p.selector.root entry)
      (p.selector.cache.objectPath entry.1 p.flags))
    (hpasses : Selector.directivePasses p.entries (ManifestSet.useTokens p.sets).length
      (b.variant.initialFlags b.options p.packages) = some (passes, p.flags))
    (hfirst : ∀ f ∈ passes ++ [p.flags], p.selector.passFault? v.disk p.entries f = none)
    (hfault : p.selector.firstFault? v'.disk p.entries (passes ++ [p.flags]) = some e)
    (hfresh : ∀ entry ∈ p.entries, entry.2.admitted p.flags = true →
      p.selector.staleness v'.disk p.flags entry = .ok none) :
    ∃ f entry cause, Stops host' b p v.disk w' v' f entry cause := by
  obtain ⟨f, hf, hpass⟩ := List.exists_of_findSome?_eq_some hfault
  obtain ⟨entry, hlooked, herror⟩ := Selector.exists_looksAt_of_passFault? hpass
  obtain ⟨he, hadmitted⟩ := Selector.mem_of_mem_looksAt hlooked
  have hgivenUp : f ∈ passes := by
    rcases List.mem_append.1 hf with hf | hf
    · exact hf
    · rw [List.mem_singleton.1 hf] at hadmitted herror
      cases herror.symm.trans (hfresh entry he hadmitted)
  obtain ⟨reason, hreason⟩ := Selector.passFault?_eq_none_iff.1 (hfirst f hf) entry hlooked
  obtain ⟨cause, hmissing, hrefused, hne, hlong, rfl⟩ :=
    refused_of_staleness_eq_error habsolute hsound hprepare hcarries hupToDate he hreason herror
  refine ⟨f, entry, cause, ⟨⟨passes, hpasses, hgivenUp⟩, hlooked, hrefused, hne⟩, hmissing, hlong, ?_⟩
  refine run_eq_error_of_resolve hprepare hmanifests.manifests (sets_of_prepare hsound hprepare) hquery ?_
  rw [Plan.entries] at hfault
  rw [Selector.resolve_eq_of_directivePasses hpasses, hfault]

/-- Switching back recompiles nothing: once a build has succeeded, then after any history of the project
the same build comes to the same again and starts the final command only, unless an object of a pass that is
given up is in the way, whose name could not be looked up before. -/
theorem run_again (habsolute : b.project.cacheDirectory.isAbsolute = true)
    (hcareful : Careful host b b.project store) (hcareful' : Careful host' b b.project store)
    (hsound : Sound b.project store w.disk) (hprepare : (b.prepare host).run w = .ok p v)
    (hrun : (b.run host).run w = .ok r w₁) (hhistory : History b.project store w₁.disk w'.disk)
    (hquery : (PackageFlags.query host' b.variant.packages).run w' = .ok p.packages v') :
    ∃ earlier c, w₁.started = w.started ++ earlier ++ [c] ∧ c.program = b.linker.tool ∧
      Returns host' b p c v.disk w' v' := by
  obtain ⟨hreturned, hlater, hupToDate⟩ :=
    upToDate_of_history habsolute hcareful hcareful' hsound hprepare hrun hhistory hquery
  have hfresh : ∀ entry ∈ p.entries, entry.2.admitted p.flags = true →
      p.selector.staleness v'.disk p.flags entry = .ok none := by
    intro entry he hadmitted
    obtain ⟨hsource, hdependencies⟩ :=
      List.forall_mem_cons.1 (exists_modified_of_sound hsound hprepare hlater.sound he)
    exact Staleness.check_eq_none_of_upToDate (hupToDate entry (Plan.mem_admitted_iff.2 ⟨he, hadmitted⟩))
      hsource hdependencies
  obtain ⟨earlier, hstarted⟩ := exists_started_of_run hprepare hrun
  obtain ⟨passes, hpasses, hfirst⟩ := exists_passes_of_prepare hprepare
  have hqueried := PackageFlags.calls_of_query_eq_ok hquery
  refine ⟨earlier, b.linkCommand p, hstarted, rfl, ?_⟩
  -- the passes are the same as before; what matters is whether one of them comes upon a fault now
  cases hfault : p.selector.firstFault? v'.disk p.entries (passes ++ [p.flags]) with
  | none =>
    have hrepeats := repeats_of_passes hreturned hsound hprepare hquery hpasses hfault hfresh
    have hclear : ¬ ∃ f entry cause, Obstacle b p v'.disk f entry cause := by
      rintro ⟨f, entry, cause, hobstacle⟩
      obtain ⟨passes', hpasses', hf⟩ := hobstacle.givenUp
      cases hpasses.symm.trans hpasses'
      exact hobstacle.passFault?_ne_none
        (List.findSome?_eq_none_iff.1 hfault f (List.mem_append_left _ hf))
    exact ⟨hqueried, iff_of_true hrepeats hclear, fun h => absurd h hclear⟩
  | some e =>
    obtain ⟨f, entry, cause, hstops⟩ := stops_of_passes habsolute hreturned hsound hprepare hquery hlater
      hupToDate hpasses hfirst hfault hfresh
    refine ⟨hqueried, iff_of_false ?_ ?_, fun _ => ⟨f, entry, cause, hstops⟩⟩
    · rintro ⟨p', hrepeats⟩
      exact hrepeats.run_ne_io _ _ hstops.run_eq
    · exact not_not_intro ⟨f, entry, cause, hstops.toObstacle⟩

/-- The obstacle is real. If the flags that a build starts from admit the first file, and the object's name
is too long, then a build that succeeds and links anything never succeeds again. -/
theorem run_eq_error_of_tooLong (habsolute : b.project.cacheDirectory.isAbsolute = true)
    (hcareful : Careful host b b.project store) (hcareful' : Careful host' b b.project store)
    (hsound : Sound b.project store w.disk) (hprepare : (b.prepare host).run w = .ok p v)
    (hrun : (b.run host).run w = .ok r w₁) (hhistory : History b.project store w₁.disk w'.disk)
    (hquery : (PackageFlags.query host' b.variant.packages).run w' = .ok p.packages v')
    (hincluded : p.included ≠ []) {entry : SourceEntry} {rest : List SourceEntry} {f : FlagSet}
    (hentries : p.entries = entry :: rest)
    (hf : (b.variant.initialFlags b.options p.packages).pruneWidths = f)
    (hadmitted : entry.2.admitted f = true)
    (hrefusal : Disk.refusal? (p.selector.cache.objectPath entry.1 f) = none)
    (hlong : Disk.greatestNameSize < (p.selector.cache.deriver.derive entry.1 f).fileName.utf8ByteSize) :
    (b.run host').run w' = .error (.io (p.selector.cache.objectPath entry.1 f) .nameTooLong) v' := by
  obtain ⟨hreturned, -, hupToDate⟩ :=
    upToDate_of_history habsolute hcareful hcareful' hsound hprepare hrun hhistory hquery
  have hobject := objectPath_of_prepare hprepare entry.1 f
  have htooLong : v'.disk.modified (p.selector.cache.objectPath entry.1 f) = .error .nameTooLong := by
    rw [hobject] at hrefusal ⊢
    exact Disk.modified_joinText_of_tooLong habsolute (p.selector.cache.deriver.isFileName_fileName _ _)
      hrefusal (isDirectory_of_included habsolute hprepare hincluded hupToDate) hlong
  have hattempt : p.selector.attempt v'.disk f p.entries =
      .error (.io (p.selector.cache.objectPath entry.1 f) .nameTooLong) := by
    have hstale : p.selector.staleness v'.disk f entry =
        .error (.io (p.selector.cache.objectPath entry.1 f) .nameTooLong) := by
      rw [Selector.staleness, Staleness.check, htooLong]
    rw [hentries, Selector.attempt, judge_eq_admitted_iff.2 ⟨hadmitted, rfl⟩, hstale]
  exact run_eq_error_of_resolve hprepare hreturned.manifests (sets_of_prepare hsound hprepare) hquery
    ((Selector.Restarts.refl _).settle_eq_error (Nat.zero_le _) (hf ▸ hattempt))

end VariantBuild.Builder

/-! ## A small project -/

namespace VariantBuild.Builder.Switched

/-- A project without configuration. -/
def project : Project :=
  .new ⟨"/p"⟩

/-- A native build, optimized or not. -/
def builder (level : Nat) : Builder :=
  ⟨project, .plain "native", { BuildOptions.default with optimization := .level level }⟩

/-- It requires position independent code. -/
def other : SourceEntry :=
  (⟨"b.c"⟩, ⟨[], [.use "-fPIC"], [], []⟩)

/-- The first file is left out once the other has what it requires. -/
def entries (stem : String) : List SourceEntry :=
  [(⟨stem ++ ".c"⟩, ⟨[], [.options (.parse "!-fPIC")], [], []⟩), other]

/-- The only manifest. -/
def manifest (stem : String) : ManifestSet :=
  ⟨"core", none, none, entries stem⟩

/-- All manifests. -/
def store (stem : String) : ManifestStore :=
  ⟨project.manifestDirectory, [manifest stem]⟩

/-- Nothing has been built. -/
def fresh (stem : String) : Disk :=
  ⟨[([], .directory 0), (["p"], .directory 0), (["p", "build"], .directory 0),
    (["p", "build", "files.json"], .file "[\"core\"]".toUTF8 1),
    (["p", "build", "core-files.json"], .file (manifest stem).text.toUTF8 1),
    (["p", "b.c"], .file .empty 5), (["p", stem ++ ".c"], .file .empty 5)], [], 9⟩

/-- The word after the last `-o`. -/
def outputOf : List String → Option String
  | [] => none
  | a :: rest => (outputOf rest).or (if a = "-o" then rest.head? else none)

/-- A compiler and a linker that write their output and nothing else, and fail when they have to optimize
fully. -/
def tools : Host where
  run c d :=
    if "-O3" ∈ c.arguments then .ok (⟨.code 1, [], []⟩, d)
    else match outputOf c.arguments with
      | none => .ok (⟨.code 1, [], []⟩, d)
      | some o =>
        match d.writeStamped (c.directory.join ⟨o⟩) .empty d.clock with
        | .ok d' => .ok (⟨.code 0, [], []⟩, d')
        | .error _ => .ok (⟨.code 1, [], []⟩, d)
  order _ n := List.range n
  order_perm := Host.perm_queue

/-- A file whose name the disk takes, beside the other. -/
structure Fits (stem : String) : Prop where
  isFileName : Path.IsFileName (stem ++ ".c")
  noNul : holdsNul (stem ++ ".c") = false
  size : (stem ++ ".c").utf8ByteSize ≤ Disk.greatestNameSize
  ne_empty : stem ≠ ""
  ne_other : stem ++ ".c" ≠ "b.c"

variable {host : Host} {stem name : String} {d d' : Disk} {l : Location} {level : Nat} {w v : World}
  {p : Plan} {r : BuildResult}

theorem isAbsolute_cacheDirectory : project.cacheDirectory.isAbsolute = true := rfl

/-- No file with another extension is taken for the first one. -/
theorem append_c_ne {text : String} (h : text.toList.getLast? ≠ some 'c') : stem ++ ".c" ≠ text := by
  rintro rfl
  simp at h

/-! ### The project is in order -/

theorem parse_text_manifest (hfits : Fits stem) :
    ManifestSet.parse "core" (manifest stem).text = .ok (manifest stem) := by
  refine @ManifestSet.parse_text_of_representable (manifest stem)
    ⟨?_, by simp [manifest, ManifestSet.markerValues]⟩
    (by simp [ManifestSet.MarkersReadBack, manifest, ManifestSet.markerValues]) ⟨?_, ?_, ?_⟩
  · simp [manifest, entries, other, Directive.GroupRead]
  · simpa [manifest, entries, other] using hfits.ne_other
  · have hdescription : stem ++ ".c" ≠ ManifestSet.descriptionKey := append_c_ne (by decide)
    have harchive : stem ++ ".c" ≠ ManifestSet.archiveKey := append_c_ne (by decide)
    simp only [manifest, entries, List.forall_mem_cons]
    exact ⟨⟨hdescription, harchive⟩, by decide⟩
  · simp [manifest, entries, other, Directive.Representable]

theorem load_fresh (hfits : Fits stem) :
    ManifestStore.load (fresh stem) project.manifestDirectory = .ok (store stem) := by
  have hindex : (fresh stem).readText (project.manifestDirectory.joinText ManifestStore.indexName) =
      .ok "[\"core\"]" := Disk.readText_of_stat rfl
  have htext : (fresh stem).readText (project.manifestDirectory.joinText (ManifestSet.fileName "core")) =
      .ok (manifest stem).text := Disk.readText_of_stat rfl
  have hnames : ManifestStore.parseIndex "[\"core\"]" = .ok ["core"] := by decide +kernel
  refine except_bind_eq_ok_iff.2 ⟨_, ?_, except_bind_eq_ok_iff.2 ⟨_, hnames,
    except_bind_eq_ok_iff.2 ⟨[manifest stem], mapM_eq_ok_iff.2 (.cons ?_ .nil), rfl⟩⟩⟩
  · rw [ManifestStore.readFile, hindex]
  · refine except_bind_eq_ok_iff.2 ⟨(manifest stem).text, ?_, parse_text_manifest hfits⟩
    rw [ManifestStore.readFile, htext]

theorem modified_source (hfits : Fits stem) :
    (fresh stem).modified (project.root.joinText (stem ++ ".c")) = .ok 5 := by
  have hsize := hfits.size
  have hroot : project.root.text.utf8ByteSize = 2 := by decide
  have hrefusal : Disk.refusal? (project.root.joinText (stem ++ ".c")) = none := by
    refine Disk.refusal?_joinText_eq_none rfl hfits.isFileName (by decide) hfits.noNul ?_
    rw [Disk.greatestNameSize] at hsize
    rw [Disk.greatestPathSize]
    omega
  have hlocate := Disk.locate_joinText_of_directory (d := fresh stem) (l := ["p"])
    (Path.text_ne_empty rfl) hfits.isFileName hrefusal rfl rfl
  rw [if_neg (Nat.not_lt.2 hsize)] at hlocate
  have hdirectory : stem ++ ".c" ≠ "build" := append_c_ne (by decide)
  have hnode : (fresh stem).node? ["p", stem ++ ".c"] = some (.file .empty 5) := by
    simp [fresh, Disk.node?, hfits.ne_other.symm, hdirectory.symm]
  exact except_map_eq_ok_iff.2 ⟨_, Disk.stat_eq_ok_iff.2 ⟨_, hlocate, hnode⟩, rfl⟩

theorem mem_inputs_iff {q : Path} : q ∈ (store stem).inputs project.root ↔
    q = project.root.joinText (stem ++ ".c") ∨ q = project.root.joinText "b.c" := by
  simp [ManifestStore.inputs, ManifestSet.allEntries, store, manifest, entries, other, entryInputs,
    Path.joinText]

theorem sound_fresh (hfits : Fits stem) : Sound project (store stem) (fresh stem) where
  manifests := load_fresh hfits
  inputs := by
    have hother : (fresh stem).modified (project.root.joinText "b.c") = .ok 5 := rfl
    intro q hq
    refine ⟨5, ?_, show (5 : Int) ≤ 9 by decide⟩
    rcases mem_inputs_iff.1 hq with rfl | rfl
    · exact modified_source hfits
    · exact hother

/-! ### The tools keep to the contract -/

theorem outputOf_eq_none {words : List String} (h : "-o" ∉ words) : outputOf words = none := by
  induction words with
  | nil => rfl
  | cons a words ih =>
    obtain ⟨ha, hwords⟩ := not_or.1 (List.mem_cons.not.1 h)
    rw [outputOf, ih hwords, if_neg (Ne.symm ha)]
    rfl

theorem outputOf_append (before : List String) {o : String} {after : List String}
    (h : "-o" ∉ o :: after) : outputOf (before ++ "-o" :: o :: after) = some o := by
  induction before with
  | nil =>
    rw [List.nil_append, outputOf, outputOf_eq_none h]
    rfl
  | cons a before ih =>
    rw [List.cons_append, outputOf, ih]
    rfl

theorem ne_output_of_isAbsolute {q : Path} (h : q.isAbsolute = true) : q.text ≠ "-o" := by
  intro heq
  rw [Path.isAbsolute, heq] at h
  exact absurd h (by decide)

/-- What a process of the tools leaves. -/
theorem tools_cases {c : Command} {outcome : Outcome} {o : String} (ho : outputOf c.arguments = some o)
    (h : tools.run c d = .ok (outcome, d')) :
    (outcome.exit.isSuccess = false ∧ d' = d) ∨
      (outcome.exit.isSuccess = true ∧ ∃ l, d.locate (c.directory.join ⟨o⟩) = .ok l ∧
        Disk.Writes l d.clock d d') := by
  dsimp only [tools] at h
  split at h
  · cases h
    exact .inl ⟨rfl, rfl⟩
  · rw [ho] at h
    dsimp only at h
    split at h
    next hwrite =>
      cases h
      exact .inr ⟨rfl, Disk.writes_of_writeStamped hwrite⟩
    next =>
      cases h
      exact .inl ⟨rfl, rfl⟩

theorem finalFlags_builder (level : Nat) :
    (builder level).variant.finalFlags (builder level).options .none = Variant.baseEndFlags := by
  have hscript : Variant.hasExtension Variant.defaultOutput "js" = false := by decide
  have hmodule : Variant.hasExtension Variant.defaultOutput "wasm" = false := by decide
  have houtput : (builder level).variant.outputPath (builder level).options = Variant.defaultOutput := rfl
  rw [Variant.finalFlags, houtput, hscript, hmodule]
  rfl

/-- The final tool writes the output. -/
theorem outputOf_linkCommand (hprepare : ((builder level).prepare host).run w = .ok p v) :
    outputOf ((builder level).linkCommand p).arguments = some "halfix" := by
  obtain ⟨-, -, -, hquery, -⟩ := run_prepare_eq_ok_iff.1 hprepare
  have hpackages : p.packages = PackageFlags.none := (EStateM.Result.ok.inj hquery).1.symm
  have hmode : (builder level).linker.mode = .link := by
    change LinkMode.ofTool "gcc" "ar" = .link
    decide
  have harguments : ((builder level).linkCommand p).arguments = Text.wordsOfAll p.flags.tokens ++
      "-o" :: "halfix" :: (p.objects.map (·.text) ++ Text.wordsOfAll Variant.baseEndFlags) := by
    rw [linkCommand, hpackages, finalFlags_builder, Linker.command, Linker.arguments, hmode]
    simp only [List.append_assoc, List.cons_append, List.nil_append]
    rfl
  have hobjects : "-o" ∉ p.objects.map (·.text) := by
    intro hmem
    obtain ⟨o, ho, heq⟩ := List.mem_map.1 hmem
    have hobject := isAbsolute_of_mem_objects (b := builder level) isAbsolute_cacheDirectory hprepare ho
    exact ne_output_of_isAbsolute hobject heq
  have hend : "-o" ∉ Text.wordsOfAll Variant.baseEndFlags := by decide
  rw [harguments]
  exact outputOf_append _ (by simp [hobjects, hend])

theorem mem_entries (hsound : Sound project (store stem) w.disk)
    (hprepare : ((builder level).prepare host).run w = .ok p v) {entry : SourceEntry}
    (he : entry ∈ p.entries) : entry ∈ entries stem := by
  rw [Plan.entries, sets_of_prepare hsound hprepare] at he
  simpa [store, manifest, ManifestSet.allEntries] using allEntries_active_subset _ _ he

/-- Nothing is run before compiling, and a compiler writes the object of its task. -/
theorem outputOf_compileCommand (hsound : Sound project (store stem) w.disk)
    (hprepare : ((builder level).prepare host).run w = .ok p v) {t : CompileTask} (ht : t ∈ p.toCompile) :
    t.preBuild = [] ∧
      outputOf (((builder level).compiler p.flags).command p.flags t).arguments = some t.object.text := by
  obtain ⟨entry, he, reason, rfl⟩ := exists_eq_task_of_mem_toCompile hprepare ht
  obtain ⟨hpaths, htasks⟩ : entry.2.includePaths = [] ∧ entry.2.tasks = [] := by
    have hentry := mem_entries hsound hprepare (Plan.mem_admitted_iff.1 he).1
    simp only [entries, other, List.mem_cons, List.not_mem_nil, or_false] at hentry
    rcases hentry with rfl | rfl <;> exact ⟨rfl, rfl⟩
  refine ⟨htasks, ?_⟩
  have hobject := isAbsolute_of_mem_objects (b := builder level) isAbsolute_cacheDirectory hprepare
    (object_mem_objects hprepare he)
  have harguments : ∀ front : List String, ∀ o : String,
      front ++ ["-c", "-o", o] = (front ++ ["-c"]) ++ "-o" :: o :: [] := by simp
  rw [Compiler.command, CompileTask.arguments, Selector.task, hpaths, List.map_nil, List.append_nil,
    harguments]
  exact outputOf_append _ (by simpa using (ne_output_of_isAbsolute hobject).symm)

theorem eq_of_locate_root (hname : Path.IsFileName name)
    (h : d.locate (project.root.joinText name) = .ok l) : l = ["p", name] :=
  Disk.eq_append_of_locate_joinText rfl hname h

theorem eq_of_locate_manifestDirectory (hname : Path.IsFileName name)
    (h : d.locate (project.manifestDirectory.joinText name) = .ok l) : l = ["p", "build", name] :=
  Disk.eq_append_of_locate_joinText rfl hname h

theorem eq_of_locate_cacheDirectory (hname : Path.IsFileName name)
    (h : d.locate (project.cacheDirectory.joinText name) = .ok l) : l = ["p", "build", "objs", name] :=
  Disk.eq_append_of_locate_joinText rfl hname h

/-- Where manifests and sources are. -/
theorem mem_of_locate_kept (hfits : Fits stem) {q : Path}
    (hq : q ∈ (store stem).files ++ (store stem).inputs project.root) (h : d.locate q = .ok l) :
    l ∈ [["p", "build", "files.json"], ["p", "build", "core-files.json"], ["p", stem ++ ".c"],
      ["p", "b.c"]] := by
  have hfiles : (store stem).files = [project.manifestDirectory.joinText "files.json",
      project.manifestDirectory.joinText "core-files.json"] := rfl
  rw [List.mem_append, mem_inputs_iff, hfiles, List.mem_pair] at hq
  rcases hq with (rfl | rfl) | rfl | rfl
  · rw [eq_of_locate_manifestDirectory ⟨by decide, by decide, by decide⟩ h]
    simp
  · rw [eq_of_locate_manifestDirectory ⟨by decide, by decide, by decide⟩ h]
    simp
  · rw [eq_of_locate_root hfits.isFileName h]
    simp
  · rw [eq_of_locate_root ⟨by decide, by decide, by decide⟩ h]
    simp

theorem careful_tools (hfits : Fits stem) (level : Nat) :
    Careful tools (builder level) project (store stem) where
  queries := by
    intro c hc
    cases hc
  others := by
    intro w p v hsound hprepare c hc d outcome d' hd hrun
    have hnone : TaskRunner.commands p.toCompile = [] := by
      refine List.flatMap_eq_nil_iff.2 fun t ht => ?_
      rw [(outputOf_compileCommand hsound hprepare ht).1, List.map_nil]
    have hlink : c = (builder level).linkCommand p := by
      simpa [hnone, TaskRunner.shells] using hc
    rw [hlink] at hrun
    rcases tools_cases (outputOf_linkCommand hprepare) hrun with ⟨-, rfl⟩ | ⟨-, l, hl, hwrites⟩
    · exact .refl _ _ _
    · obtain rfl : l = ["p", "halfix"] := eq_of_locate_root ⟨by decide, by decide, by decide⟩ hl
      refine .of_writes hwrites hd (fun q hq m hm => ?_) (fun name hname _ m hm => ?_)
        (fun o ho => absurd ho (Option.some_ne_none o).symm)
      · have hmem := mem_of_locate_kept hfits hq hm
        have houtput : stem ++ ".c" ≠ "halfix" := append_c_ne (by decide)
        simp only [List.mem_cons, List.not_mem_nil, or_false] at hmem
        rcases hmem with rfl | rfl | rfl | rfl <;> simp [houtput]
      · rw [eq_of_locate_cacheDirectory hname hm]
        simp
  compilers := by
    intro w p v hsound hprepare t ht d outcome d' hd hrun
    have hjoin : project.root.join t.object = t.object :=
      join_object_of_mem_toCompile (b := builder level) hprepare isAbsolute_cacheDirectory ht
    obtain ⟨entry, he, reason, hentry⟩ := exists_eq_task_of_mem_toCompile hprepare ht
    obtain ⟨name, hname, hobject⟩ : ∃ name, Path.IsFileName name ∧
        t.object = project.cacheDirectory.joinText name :=
      exists_name_of_mem_objects hprepare (hentry ▸ object_mem_objects hprepare he)
    change Leaves project _ (if outcome.exit.isSuccess then some (project.root.join t.object) else none) d d'
    rcases tools_cases (outputOf_compileCommand hsound hprepare ht).2 hrun with
      ⟨hfailed, rfl⟩ | ⟨hsuccess, l, hl, hwrites⟩
    · rw [hfailed]
      exact .refl _ _ _
    · have hl : d.locate t.object = .ok l := hjoin ▸ hl
      obtain rfl : l = ["p", "build", "objs", name] := eq_of_locate_cacheDirectory hname (hobject ▸ hl)
      rw [if_pos hsuccess, hjoin]
      refine .of_writes hwrites hd (fun q hq m hm => ?_) (fun name' hname' hne m hm => ?_) fun o ho => ?_
      · have hmem := mem_of_locate_kept hfits hq hm
        simp only [List.mem_cons, List.not_mem_nil, or_false] at hmem
        rcases hmem with rfl | rfl | rfl | rfl <;> simp
      · have hdiffer : name' ≠ name := fun heq => hne (by rw [heq, hobject])
        rw [eq_of_locate_cacheDirectory hname' hm]
        simpa using hdiffer
      · rw [← Option.some.inj ho]
        exact hl

/-! ### The first build -/

/-- The selector of all builds of the project. -/
def selector : Selector :=
  ⟨project.root, ⟨project.cacheDirectory, .default⟩⟩

/-- The flags that the build starts from. -/
def start : FlagSet :=
  (builder 0).variant.initialFlags (builder 0).options .none

/-- The flags that it settles on. -/
def settled : FlagSet :=
  start.push "-fPIC"

/-- What is settled: only the other file is compiled and linked. -/
def plan (stem : String) : Plan :=
  ⟨[manifest stem], .none, selector,
    ⟨settled, ⟨[⟨"b.c"⟩], [selector.task settled other [] .missingObject]⟩, 1⟩⟩

theorem pruneWidths_start : start.pruneWidths = start := by decide +kernel

theorem stem_source (hfits : Fits stem) : KeyDeriver.stem ⟨stem ++ ".c"⟩ = stem :=
  KeyDeriver.stem_append_c hfits.isFileName hfits.ne_empty

/-- Objects of stems that are not too long for files can be looked up. -/
theorem refusal?_object {source : Path} (hnul : holdsNul (KeyDeriver.stem source) = false)
    (hsize : (KeyDeriver.stem source).utf8ByteSize ≤ Disk.greatestNameSize) (f : FlagSet) :
    Disk.refusal? (selector.cache.objectPath source f) = none := by
  have hdirectory : selector.cache.directory.text.utf8ByteSize = 13 := by decide
  refine ObjectCache.refusal?_objectPath_eq_none isAbsolute_cacheDirectory
    KeyDeriver.length_features_default (by decide) hnul ?_ f
  rw [hdirectory, Disk.greatestPathSize]
  rw [Disk.greatestNameSize] at hsize
  omega

theorem refusal?_source (hfits : Fits stem) (f : FlagSet) :
    Disk.refusal? (selector.cache.objectPath ⟨stem ++ ".c"⟩ f) = none := by
  have hnul := hfits.noNul
  have hsize := hfits.size
  rw [String.utf8ByteSize_append] at hsize
  refine refusal?_object ?_ (by rw [stem_source hfits]; omega) f
  simp only [stem_source hfits, holdsNul, String.toList_append, ← Bool.not_eq_true, List.contains_iff_mem,
    List.mem_append] at hnul ⊢
  exact fun h => hnul (.inl h)

theorem refusal?_other (f : FlagSet) : Disk.refusal? (selector.cache.objectPath ⟨"b.c"⟩ f) = none :=
  refusal?_object (by decide) (by decide) f

/-- While the cache directory is missing, so is every object that can be looked up. -/
theorem staleness_fresh (stem : String) {source : Path} {f : FlagSet} (e : FileEntry)
    (hrefusal : Disk.refusal? (selector.cache.objectPath source f) = none) :
    selector.staleness (fresh stem) f (source, e) = .ok (some .missingObject) := by
  have hmissing : (fresh stem).modified (selector.cache.objectPath source f) = .error .notFound := by
    have hlocate : (fresh stem).locate project.cacheDirectory = .ok ["p", "build", "objs"] := rfl
    rw [ObjectCache.objectPath] at hrefusal ⊢
    exact Disk.modified_joinText_of_node?_eq_none isAbsolute_cacheDirectory
      (KeyDeriver.isFileName_fileName _ _ _) hrefusal hlocate (by simp [fresh, Disk.node?])
  rw [Selector.staleness, Staleness.check, hmissing]

theorem resolve_fresh (hfits : Fits stem) :
    selector.resolve (fresh stem) [manifest stem] start = .ok (plan stem).resolution := by
  have hfirst : selector.attempt (fresh stem) start (entries stem) = .ok (.restart settled) := by
    have hsource : judge start [.options (.parse "!-fPIC")] = .admitted [] := by decide
    have hother : judge start [.use "-fPIC"] = .required "-fPIC" := by decide
    have hadd : start.add "-fPIC" = settled := by decide +kernel
    simp only [entries, other, Selector.attempt, hsource, staleness_fresh stem _ (refusal?_source hfits start),
      hother, hadd]
  have hsecond : selector.attempt (fresh stem) settled (entries stem) =
      .ok (.stable (plan stem).resolution.selection) := by
    have hsource : judge settled [.options (.parse "!-fPIC")] = .skipped (.flags (.parse "!-fPIC")) := by
      decide
    have hother : judge settled [.use "-fPIC"] = .admitted [] := by decide
    simp only [entries, other, Selector.attempt, hsource, hother,
      staleness_fresh stem _ (refusal?_other settled)]
    rfl
  have hentries : ManifestSet.allEntries [manifest stem] = entries stem := by
    simp [ManifestSet.allEntries, manifest]
  have htokens : ManifestSet.useTokens [manifest stem] = ["-fPIC"] := rfl
  have hsettled : settled.pruneWidths = settled := by decide +kernel
  simp only [Selector.resolve, hentries, htokens, List.length_singleton, Selector.settle, pruneWidths_start,
    hfirst, hsettled, hsecond]
  rfl

theorem prepare_fresh (hfits : Fits stem) :
    ((builder 0).prepare tools).run (.ofDisk (fresh stem)) = .ok (plan stem) (.ofDisk (fresh stem)) :=
  run_prepare_eq_ok_iff.2 ⟨store stem, load_fresh hfits, rfl, rfl,
    resolve_eq_ok_iff.2 ⟨rfl, resolve_fresh hfits⟩⟩

/-- Whether an activity has succeeded. -/
def isOk {α : Type} : EStateM.Result BuildError World α → Bool
  | .ok _ _ => true
  | .error _ _ => false

/-- What the first build does once it is settled. -/
def rest (stem : String) : EStateM.Result BuildError World BuildResult :=
  ((builder 0).makeObjects tools (plan stem) >>= (builder 0).finish tools (plan stem)).run
    (.ofDisk (fresh stem))

theorem exists_run_fresh (hfits : Fits stem) (h : isOk (rest stem) = true) :
    ∃ r w, ((builder 0).run tools).run (.ofDisk (fresh stem)) = .ok r w := by
  have hrun : ((builder 0).run tools).run (.ofDisk (fresh stem)) = rest stem := by
    rw [run_eq, Activity.run_bind_of_ok (prepare_fresh hfits)]
    rfl
  cases hrest : rest stem with
  | ok r w => exact ⟨r, w, hrun.trans hrest⟩
  | error e w =>
    rw [hrest] at h
    cases h

/-! ### Short names and long ones -/

/-- A name of a given size. -/
def named (n : Nat) : String :=
  String.ofList (List.replicate n 'a')

theorem size_named (n : Nat) : (named n).utf8ByteSize = n := by
  induction n with
  | zero => rfl
  | succ n ih =>
    have hcons : named (n + 1) = "a" ++ named n := by
      rw [← String.toList_inj]
      simp [named, List.replicate_succ]
    have ha : "a".utf8ByteSize = 1 := by decide
    rw [hcons, String.utf8ByteSize_append, ih, ha, Nat.add_comm]

theorem fits_named {n : Nat} (hpos : 0 < n) (hn : n + 2 ≤ Disk.greatestNameSize) : Fits (named n) := by
  have hchars : (named n ++ ".c").toList = List.replicate n 'a' ++ ['.', 'c'] := by simp [named]
  have hnot : ∀ c, c ≠ 'a' → c ≠ '.' → c ≠ 'c' → c ∉ (named n ++ ".c").toList := by
    intro c ha hpoint hc
    simp [hchars, ha, hpoint, hc]
  have hempty : named n ++ ".c" ≠ "" := append_c_ne (by decide)
  have hhere : named n ++ ".c" ≠ "." := append_c_ne (by decide)
  have hsize : ".c".utf8ByteSize = 2 := by decide
  refine ⟨⟨hnot '/' (by decide) (by decide) (by decide), ?_, append_c_ne (by decide)⟩, ?_, ?_, ?_, ?_⟩
  · simp [Path.isVoid, hempty, hhere]
  · rw [holdsNul, ← Bool.not_eq_true, List.contains_iff_mem]
    exact hnot _ (by decide) (by decide) (by decide)
  · rwa [String.utf8ByteSize_append, size_named, hsize]
  · intro hvoid
    have hzero := size_named n
    rw [hvoid] at hzero
    exact absurd hzero (Nat.ne_of_lt hpos)
  · intro heq
    have hb : 'b' ∈ (named n ++ ".c").toList := by
      rw [heq]
      decide
    exact hnot 'b' (by decide) (by decide) (by decide) hb

/-- With a long name the build fails when it is run again at once. -/
theorem run_eq_error_of_long (hfits : Fits stem) (hlong : 250 ≤ stem.utf8ByteSize)
    (hrun : ((builder 0).run tools).run (.ofDisk (fresh stem)) = .ok r w) :
    ((builder 0).run tools).run w =
      .error (.io (selector.cache.objectPath ⟨stem ++ ".c"⟩ start) .nameTooLong) w := by
  have hcareful := careful_tools hfits 0
  have htooLong : Disk.greatestNameSize <
      (KeyDeriver.default.derive ⟨stem ++ ".c"⟩ start).fileName.utf8ByteSize := by
    have hbound :=
      (KeyDeriver.size_fileName_bounds KeyDeriver.length_features_default ⟨stem ++ ".c"⟩ start).1
    rw [stem_source hfits] at hbound
    rw [Disk.greatestNameSize]
    omega
  have hentries : (plan stem).entries = entries stem := by
    simp [Plan.entries, ManifestSet.allEntries, plan, manifest]
  have hadmitted : FileEntry.admitted start ⟨[], [.options (.parse "!-fPIC")], [], []⟩ = true := by decide
  exact run_eq_error_of_tooLong (b := builder 0) (w := .ofDisk (fresh stem)) isAbsolute_cacheDirectory
    hcareful hcareful (sound_fresh hfits) (prepare_fresh hfits) hrun (.refl _) rfl (List.cons_ne_nil _ _)
    hentries pruneWidths_start hadmitted (refusal?_source hfits start) htooLong

/-- With a short name the build repeats after an optimized one. -/
theorem short_name_run_again : ∃ r w₁ earlier c,
    ((builder 0).run tools).run (.ofDisk (fresh (named 1))) = .ok r w₁ ∧
    w₁.started = earlier ++ [c] ∧
    ∃ p', Repeats tools (builder 0) (plan (named 1)) p' c (((builder 3).run tools).perform w₁).2
      (((builder 3).run tools).perform w₁).2 := by
  have hfits : Fits (named 1) := fits_named (by decide) (by decide)
  have hcareful := careful_tools hfits
  obtain ⟨r, w₁, hrun⟩ := exists_run_fresh hfits (by decide +kernel)
  have hhistory : History project (store (named 1)) w₁.disk (((builder 3).run tools).perform w₁).2.disk :=
    .build (.refl _) rfl (hcareful 3)
  obtain ⟨earlier, c, hstarted, -, hreturns⟩ := run_again (b := builder 0)
    (w := .ofDisk (fresh (named 1))) isAbsolute_cacheDirectory (hcareful 0) (hcareful 0) (sound_fresh hfits)
    (prepare_fresh hfits) hrun hhistory rfl
  refine ⟨r, w₁, earlier, c, hrun, hstarted, hreturns.repeats_iff.2 fun hobstacle => ?_⟩
  -- no object has a name that is too long
  obtain ⟨f, entry, cause, hstops⟩ := hreturns.stops hobstacle
  have hlong := (hstops.tooLong (List.cons_ne_nil _ _)).2
  have hbound :=
    (KeyDeriver.size_fileName_bounds KeyDeriver.length_features_default entry.1 f).2
  have hstem : (KeyDeriver.stem entry.1).utf8ByteSize = 1 := by
    have hentry := mem_entries (sound_fresh hfits) (prepare_fresh hfits)
      (Selector.mem_of_mem_looksAt hstops.looked).1
    simp only [entries, other, List.mem_cons, List.not_mem_nil, or_false] at hentry
    rcases hentry with rfl | rfl
    · rw [stem_source hfits, size_named]
    · decide
  exact absurd hlong (Nat.not_lt.2 (Nat.le_trans hbound (hstem ▸ by decide)))

/-- With a long name the build has succeeded once, and fails when it is run again at once: repeating is not
all that can happen. -/
theorem long_name_not_again :
    Careful tools (builder 0) project (store (named 250)) ∧
    Sound project (store (named 250)) (fresh (named 250)) ∧
    ∃ r w₁, ((builder 0).prepare tools).run (.ofDisk (fresh (named 250))) =
        .ok (plan (named 250)) (.ofDisk (fresh (named 250))) ∧
      ((builder 0).run tools).run (.ofDisk (fresh (named 250))) = .ok r w₁ ∧
      History project (store (named 250)) w₁.disk w₁.disk ∧
      (PackageFlags.query tools (builder 0).variant.packages).run w₁ = .ok (plan (named 250)).packages w₁ ∧
      ((builder 0).run tools).run w₁ =
        .error (.io (selector.cache.objectPath ⟨named 250 ++ ".c"⟩ start) .nameTooLong) w₁ ∧
      ¬ ∃ c p', Repeats tools (builder 0) (plan (named 250)) p' c w₁ w₁ := by
  have hfits : Fits (named 250) := fits_named (by decide) (by decide)
  obtain ⟨r, w₁, hrun⟩ := exists_run_fresh hfits (by decide +kernel)
  have hagain := run_eq_error_of_long hfits (Nat.le_of_eq (size_named 250).symm) hrun
  refine ⟨careful_tools hfits 0, sound_fresh hfits, r, w₁, prepare_fresh hfits, hrun, .refl _, rfl, hagain,
    ?_⟩
  rintro ⟨c, p', hrepeats⟩
  exact hrepeats.run_ne_io _ _ hagain

end VariantBuild.Builder.Switched
