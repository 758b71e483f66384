import VariantBuild.Proofs.Build.Remade
import VariantBuild.Proofs.Build.Switching
/-!
# Building again after a failure

A build whose compilers fail leaves the objects that were made, and the next build of the same plan compiles
the rest: exactly the tasks that failed, for the reasons that they had (`Retries`).

In between the build makes the cache directory. With an object of the plan there already, that does nothing;
without one, all objects were missing, and they are missing still. So a failed task keeps its reason in
either case (`Plan.Rebuilt.staleness_of_not_made`).

Two things can come of a directory that is new, and neither is about compiling. An object that some pass of
resolution looks at may have a name that is too long for the system, which nobody could tell while the
directory was missing (`Rejects`). And a path with `..` may lead to objects that are old, which is excluded
(`Tidy.directory`). Both do happen (`Retried.failures_not_again`).
-/

namespace VariantBuild

variable {p : Plan} {made : Path → Prop} {d d' : Disk} {entry : SourceEntry}

/-! ## From one plan to the next -/

/-- What lies between two plans of one build: first nothing is made, then perhaps the cache directory, and
then objects. -/
structure Plan.Rebuilt (p : Plan) (made : Path → Prop) (d d₁ d₂ d' : Disk) : Prop where
  before : p.Remade (fun _ => False) d d₁
  directory : d₂ = d₁ ∨
    (d₁.makeDirectories p.selector.cache.directory).1 = .ok () ∧
      d₂ = (d₁.makeDirectories p.selector.cache.directory).2 ∧
      ∀ entry ∈ p.admitted, d₁.modified (p.object entry) = .error .notFound →
        ∀ t, d₂.modified (p.object entry) ≠ .ok t
  after : p.Remade made d₂ d'

namespace Plan.Rebuilt

variable {d₁ d₂ : Disk} {f : FlagSet}

/-- Inputs that were there are still there. -/
theorem found (h : p.Rebuilt made d d₁ d₂ d') {q : Path} (hq : q ∈ p.inputs)
    (hfound : ∃ t, d.modified q = .ok t) : ∃ t, d'.modified q = .ok t := by
  obtain ⟨t, ht⟩ := hfound
  rw [h.after.inputs q hq]
  rw [← h.before.inputs q hq] at ht
  rcases h.directory with rfl | ⟨-, rfl, -⟩
  · exact ⟨t, ht⟩
  · obtain ⟨t', ht', -⟩ := (Disk.grows_makeDirectories _ _).modified_eq ht
    exact ⟨t', ht'⟩

/-- With an object there, no directory is made: it stays as it is if it is not made, and so do all inputs. -/
theorem kept_of_modified (h : p.Rebuilt made d d₁ d₂ d') (habsolute : p.selector.cache.directory.isAbsolute = true)
    (he : entry ∈ p.entries) {t : Time} (ht : d.modified (p.selector.cache.objectPath entry.1 f) = .ok t) :
    (¬ made (p.selector.cache.objectPath entry.1 f) →
      d'.modified (p.selector.cache.objectPath entry.1 f) = .ok t) ∧
    ∀ q ∈ p.inputs, d'.modified q = d.modified q := by
  have ht₁ : d₁.modified (p.selector.cache.objectPath entry.1 f) = .ok t := by
    rw [h.before.others entry he f not_false, ht]
  have hsame : d₂ = d₁ := by
    obtain ⟨name, hname, hobject⟩ := p.selector.cache.exists_objectPath_eq entry.1 f
    rw [hobject] at ht₁
    rcases h.directory with hsame | ⟨-, hmade, -⟩
    · exact hsame
    · rw [hmade, Disk.makeDirectories_of_modified habsolute hname ht₁]
  refine ⟨fun hnot => ?_, fun q hq => ?_⟩
  · rw [h.after.others entry he f hnot, hsame, ht₁]
  · rw [h.after.inputs q hq, hsame, h.before.inputs q hq]

/-- An object that was missing and is not made is still missing, or its name is too long, or it has come to
light with the cache directory. -/
theorem cases_of_missing (h : p.Rebuilt made d d₁ d₂ d')
    (habsolute : p.selector.cache.directory.isAbsolute = true) (he : entry ∈ p.entries)
    (hnot : ¬ made (p.selector.cache.objectPath entry.1 f))
    (hmissing : d.modified (p.selector.cache.objectPath entry.1 f) = .error .notFound) :
    d'.modified (p.selector.cache.objectPath entry.1 f) = .error .notFound ∨
    (d'.modified (p.selector.cache.objectPath entry.1 f) = .error .nameTooLong ∧
      Disk.greatestNameSize < (p.selector.cache.deriver.derive entry.1 f).fileName.utf8ByteSize) ∨
    ((∃ t, d'.modified (p.selector.cache.objectPath entry.1 f) = .ok t) ∧
      (entry ∈ p.admitted → f ≠ p.flags)) := by
  rw [h.after.others entry he f hnot]
  rw [← h.before.others entry he f not_false] at hmissing
  rcases h.directory with rfl | ⟨hmade, hd₂, hhidden⟩
  · exact .inl hmissing
  have hname := p.selector.cache.deriver.isFileName_fileName entry.1 f
  have hlight : (∃ t, d₂.modified (p.selector.cache.objectPath entry.1 f) = .ok t) →
      entry ∈ p.admitted → f ≠ p.flags := by
    rintro ⟨t, ht⟩ hadmitted rfl
    exact hhidden entry hadmitted hmissing t ht
  have hobject : p.selector.cache.objectPath entry.1 f =
      p.selector.cache.directory.joinText (p.selector.cache.deriver.derive entry.1 f).fileName := by
    rw [ObjectCache.objectPath]
  rw [hobject] at hmissing
  have hcases := Disk.modified_joinText_of_makeDirectories habsolute hname hmade hmissing
  rw [← hd₂, ← hobject] at hcases
  rcases hcases with hok | hmissing' | hlong
  · exact .inr (.inr ⟨hok, hlight hok⟩)
  · exact .inl hmissing'
  · exact .inr (.inl hlong)

/-- The object of an entry that is linked is fresh once it is made. -/
theorem staleness_of_made (h : p.Rebuilt made d d₁ d₂ d') (hfound : ∀ q ∈ p.inputs, ∃ t, d.modified q = .ok t)
    (he : entry ∈ p.admitted) (hmade : made (p.object entry)) :
    p.selector.staleness d' p.flags entry = .ok none := by
  have hinputs : ∀ q ∈ entryInputs p.selector.root entry, ∃ t, d'.modified q = .ok t := fun q hq => by
    have hmem := Plan.inputs_subset (Plan.mem_admitted_iff.1 he).1 hq
    exact h.found hmem (hfound q hmem)
  obtain ⟨hsource, hdependencies⟩ := List.forall_mem_cons.1 hinputs
  exact Staleness.check_eq_none_of_upToDate (h.after.fresh entry he hmade) hsource hdependencies

/-- One that is not made is as stale as it was, for the same reason. -/
theorem staleness_of_not_made (h : p.Rebuilt made d d₁ d₂ d')
    (habsolute : p.selector.cache.directory.isAbsolute = true) (he : entry ∈ p.admitted)
    (hnot : ¬ made (p.object entry)) {reason reason' : Option StaleReason}
    (hreason : p.selector.staleness d p.flags entry = .ok reason)
    (hreason' : p.selector.staleness d' p.flags entry = .ok reason') : reason' = reason := by
  have hentry := (Plan.mem_admitted_iff.1 he).1
  rcases Staleness.modified_of_check hreason with ⟨t, ht⟩ | hmissing
  · obtain ⟨hobject, hinputs⟩ := h.kept_of_modified habsolute hentry ht
    have hsame : p.selector.staleness d' p.flags entry = p.selector.staleness d p.flags entry :=
      Staleness.check_congr ((hobject hnot).trans ht.symm) fun q hq => hinputs q (Plan.inputs_subset hentry hq)
    rw [hsame, hreason] at hreason'
    exact (Except.ok.inj hreason').symm
  · have hstale : ∀ x : Disk, x.modified (p.selector.cache.objectPath entry.1 p.flags) = .error .notFound →
        p.selector.staleness x p.flags entry = .ok (some .missingObject) := fun x hx => by
      rw [Selector.staleness, Staleness.check, hx]
    rcases h.cases_of_missing habsolute hentry hnot hmissing with hmissing' | ⟨hlong, -⟩ | ⟨-, hdiffers⟩
    · rw [hstale d hmissing] at hreason
      rw [hstale d' hmissing'] at hreason'
      rw [← Except.ok.inj hreason, ← Except.ok.inj hreason']
    · rw [Selector.staleness, Staleness.check, hlong] at hreason'
      cases hreason'
    · exact absurd rfl (hdiffers he)

end Plan.Rebuilt

namespace Builder

variable {host host' : Host} {b : Builder} {w w' v v' : World} {failed : List Path} {Good : Disk → Prop}
  {d₁ d₂ : Disk}

/-- The task of an entry comes again if it has failed. -/
theorem compileTask?_of_rebuilt (hprepare : (b.prepare host).run w = .ok p v)
    (habsolute : b.project.cacheDirectory.isAbsolute = true) (hdistinct : p.objects.Nodup)
    (hfound : ∀ q ∈ p.inputs, ∃ t, v.disk.modified q = .ok t)
    (h : p.Rebuilt (p.Compiles failed) v.disk d₁ d₂ d') (he : entry ∈ p.admitted)
    (hqueried : ∃ reason, p.selector.staleness d' p.flags entry = .ok reason) :
    p.selector.compileTask? d' p.flags entry =
      (p.selector.compileTask? v.disk p.flags entry).filter (·.source ∈ failed) := by
  have hsettled := isSettled_of_prepare hprepare
  obtain ⟨hentry, hadmitted⟩ := Plan.mem_admitted_iff.1 he
  obtain ⟨reason, hreason⟩ := hsettled.queried entry hentry hadmitted
  obtain ⟨reason', hreason'⟩ := hqueried
  change p.selector.staleness v.disk p.flags entry = _ at hreason
  rw [← (cache_of_prepare hprepare).2] at habsolute
  by_cases hmade : p.Compiles failed (p.object entry)
  · -- the object is that of a task that did not fail, and so of this entry
    obtain ⟨t, ht, hnot, hobject⟩ := id hmade
    obtain ⟨other, hother, _, rfl⟩ := exists_eq_task_of_mem_toCompile hprepare ht
    rw [objects_of_prepare hprepare] at hdistinct
    obtain rfl : entry = other := List.inj_on_of_nodup_map hdistinct he hother hobject
    rw [Selector.compileTask?, h.staleness_of_made hfound he hmade, Selector.compileTask?, hreason]
    cases reason with
    | none => rfl
    | some reason =>
      rw [Selector.task_source] at hnot
      simp [Option.filter_some, hnot]
  · have hsame : reason' = reason :=
      h.staleness_of_not_made habsolute he hmade hreason hreason'
    rw [Selector.compileTask?, hreason', hsame, Selector.compileTask?, hreason]
    cases reason with
    | none => rfl
    | some reason =>
      -- the task is in the queue, so its object is made unless it fails
      have htask : p.selector.task p.flags entry entry.2.rawArguments reason ∈ p.toCompile := by
        rw [Plan.toCompile, hsettled.toCompile]
        refine List.mem_filterMap.2 ⟨entry, he, ?_⟩
        change p.selector.compileTask? v.disk p.flags entry = _
        rw [Selector.compileTask?, hreason]
      have hfailed : entry.1 ∈ failed := by
        by_contra hnot
        exact hmade ⟨_, htask, hnot, rfl⟩
      simp [Option.filter_some, hfailed]

/-- What lies between the plan of a build that got to its compilers and the plan of the next build. -/
theorem Reaches.exists_rebuilt (h : Reaches host b p w v failed)
    (hprepare : (b.prepare host).run w = .ok p v)
    (habsolute : b.project.cacheDirectory.isAbsolute = true) (hdistinct : p.objects.Nodup)
    (htidy : Tidy host b p Good) (hgood : Good v.disk)
    (hkept : p.Remade (fun _ => False) ((b.run host).perform w).2.disk v'.disk) :
    ∃ d₁ d₂, p.Rebuilt (p.Compiles failed) v.disk d₁ d₂ v'.disk := by
  obtain ⟨tasks, v₁, compiles, outcome, v₂, links, hran, hcompiled, rfl, hlinks, hlinkCommand⟩ :=
    h.exists_phases hprepare
  -- pre-build commands and the final tool make nothing
  have hother : ∀ {x y : World} {calls : List Call}, Calls host x calls y → Good x.disk →
      (∀ c ∈ calls, c.command ∈ (b.taskRunner p.flags).shells (TaskRunner.commands p.toCompile) ++
        [b.linkCommand p]) → Good y.disk ∧ p.Remade (fun _ => False) x.disk y.disk := by
    intro x y calls hcalls hx hcommands
    let makes : Call → Path → Prop := fun _ _ => False
    obtain ⟨hy, hremade⟩ : Good y.disk ∧ p.Remade (fun o => ∃ c ∈ calls, makes c o) x.disk y.disk :=
      hcalls.remade hx (fun _ _ _ hmade => hmade.elim)
        fun c hc d o d' hd _ hrun => htidy.others c.command (hcommands c hc) d o d' hd hrun
    exact ⟨hy, hremade.congr (by simp [makes])⟩
  obtain ⟨hgood₁, hbefore⟩ := hother hran.calls hgood fun c hc =>
    List.mem_append_left _ (hran.commands ▸ List.mem_map_of_mem hc)
  obtain ⟨u, hu, hgood₂, hcompiles⟩ := hcompiled.remade hprepare habsolute hdistinct htidy hgood₁
  obtain ⟨-, hafter⟩ := hother hlinks hgood₂ fun c hc => by simp [hlinkCommand c hc]
  refine ⟨v₁.disk, u.disk, hbefore, ?_, (hcompiles.none_trans hafter).none_trans hkept⟩
  rw [(cache_of_prepare hprepare).2]
  rcases hu with rfl | ⟨hmade, rfl⟩
  · exact .inl rfl
  · exact .inr ⟨hmade, rfl, (htidy.directory _ hgood₁).2⟩

/-! ## The next build -/

/-- Building a plan again comes to the same files and flags, and compiles what failed, and only that: the
same tasks in the same order, into the same objects and for the same reasons. -/
structure Retries (host : Host) (b : Builder) (p p' : Plan) (failed : List Path) (w v : World) : Prop where
  prepared : (b.prepare host).run w = .ok p' v
  toCompile : p'.toCompile = p.toCompile.filter (·.source ∈ failed)
  sources : p'.toCompile.map (·.source) = failed
  included : p'.included = p.included
  flags : p'.flags = p.flags

/-- Building a plan again stops at an object whose name turns out to be too long. -/
structure Rejects (host : Host) (b : Builder) (p : Plan) (first : Disk) (w v : World) (f : FlagSet)
    (entry : SourceEntry) : Prop where
  /-- The flags are those of a pass of the first resolution, given up or not. -/
  pass : ∃ added g, f = g.pruneWidths ∧
    p.selector.Restarts first p.entries (b.variant.initialFlags b.options p.packages) added g ∧
    ((∃ t, p.selector.Requires first f p.entries t) ∨ f = p.flags)
  admitted : entry ∈ p.entries ∧ entry.2.admitted f = true
  /-- The object was missing then, and with it the cache directory. -/
  missing : first.modified (p.selector.cache.objectPath entry.1 f) = .error .notFound
  absent : first.isDirectory b.project.cacheDirectory = false
  tooLong : Disk.greatestNameSize < (p.selector.cache.deriver.derive entry.1 f).fileName.utf8ByteSize
  /-- It is in this pass that the build stops at the object now, -/
  attempt : p.selector.attempt v.disk f p.entries =
    .error (.io (p.selector.cache.objectPath entry.1 f) .nameTooLong)
  /-- and nothing but queries was started. -/
  run_eq : (b.run host).run w = .error (.io (p.selector.cache.objectPath entry.1 f) .nameTooLong) v

/-- What breaks a pass of the next build is an object whose name is too long, which was missing before the
cache directory was made. -/
theorem tooLong_of_breaks (hprepare : (b.prepare host).run w = .ok p v)
    (habsolute : b.project.cacheDirectory.isAbsolute = true)
    (hfound : ∀ q ∈ p.inputs, ∃ t, v.disk.modified q = .ok t)
    (h : p.Rebuilt (p.Compiles failed) v.disk d₁ d₂ d') {f : FlagSet} {e : BuildError}
    (hbreaks : p.selector.Breaks v.disk d' f p.entries e) :
    ∃ entry, (entry ∈ p.entries ∧ entry.2.admitted f = true) ∧
      v.disk.modified (p.selector.cache.objectPath entry.1 f) = .error .notFound ∧
      Disk.greatestNameSize < (p.selector.cache.deriver.derive entry.1 f).fileName.utf8ByteSize ∧
      e = .io (p.selector.cache.objectPath entry.1 f) .nameTooLong := by
  obtain ⟨entry, hentry, hadmitted, ⟨reason, hreason⟩, herror⟩ := hbreaks
  rw [← (cache_of_prepare hprepare).2] at habsolute
  have hinputs : ∀ q ∈ entryInputs p.selector.root entry, ∃ t, d'.modified q = .ok t := fun q hq =>
    h.found (Plan.inputs_subset hentry hq) (hfound q (Plan.inputs_subset hentry hq))
  obtain ⟨cause, hne, hcause, rfl⟩ := Staleness.eq_io_of_check hinputs herror
  have hthere : ∀ t, d'.modified (p.selector.cache.objectPath entry.1 f) ≠ .ok t := by
    intro t ht
    rw [hcause] at ht
    cases ht
  -- an object that was made is there, whatever else it is the object of
  have hnot : ¬ p.Compiles failed (p.selector.cache.objectPath entry.1 f) := by
    intro hmade
    obtain ⟨t, ht, hnot, hobject⟩ := id hmade
    obtain ⟨other, hother, _, rfl⟩ := exists_eq_task_of_mem_toCompile hprepare ht
    have hsame : p.selector.cache.objectPath entry.1 f = p.object other := hobject
    obtain ⟨u, hu, -⟩ := h.after.fresh other hother (hsame ▸ hmade)
    exact hthere u (hsame ▸ hu)
  rcases Staleness.modified_of_check hreason with ⟨t, ht⟩ | hmissing
  · exact absurd ((h.kept_of_modified habsolute hentry ht).1 hnot) (hthere t)
  · rcases h.cases_of_missing habsolute hentry hnot hmissing with hmissing' | ⟨hlong, hsize⟩ | ⟨⟨t, ht⟩, -⟩
    · rw [hcause] at hmissing'
      exact absurd (Except.error.inj hmissing') hne
    · rw [hcause] at hlong
      obtain rfl := Except.error.inj hlong
      exact ⟨entry, ⟨hentry, hadmitted⟩, hmissing, hsize, rfl⟩
    · exact absurd ht (hthere t)

/-- Building again after a failure compiles exactly what failed: once a build has got to its compilers, the
next build of the same plan has the failed tasks to compile and no others, unless it stops at an object whose
name is too long, which could not be told before the cache directory was made. -/
theorem run_after_failures (habsolute : b.project.cacheDirectory.isAbsolute = true)
    (hprepare : (b.prepare host).run w = .ok p v)
    (hfound : ∀ q ∈ p.inputs, ∃ t, v.disk.modified q = .ok t) (hdistinct : p.objects.Nodup)
    (htidy : Tidy host b p Good) (hgood : Good v.disk) (hreaches : Reaches host b p w v failed)
    (hmanifests : ManifestStore.load w'.disk b.project.manifestDirectory =
      ManifestStore.load w.disk b.project.manifestDirectory)
    (hquery : (PackageFlags.query host' b.variant.packages).run w' = .ok p.packages v')
    (hkept : p.Remade (fun _ => False) ((b.run host).perform w).2.disk v'.disk) :
    (∃ p', Retries host' b p p' failed w' v') ∨ ∃ f entry, Rejects host' b p v.disk w' v' f entry := by
  obtain ⟨d₁, d₂, hrebuilt⟩ := hreaches.exists_rebuilt hprepare habsolute hdistinct htidy hgood hkept
  obtain ⟨store, hload, hsets, -⟩ := run_prepare_eq_ok_iff.1 hprepare
  obtain ⟨hselector, hresolve⟩ := selector_of_prepare hprepare
  rw [← hmanifests] at hload
  rcases Selector.resolve_replay_cases hresolve v'.disk with hsame | ⟨added, g, e, hrestarts, hpass, hbreaks,
    hattempt, herror⟩
  · left
    let p' : Plan := ⟨p.sets, p.packages, p.selector,
      ⟨p.flags, p.selector.selectionUnder v'.disk p.flags p.entries, p.resolution.restarts⟩⟩
    have hprepare' : (b.prepare host').run w' = .ok p' v' :=
      run_prepare_eq_ok_iff.2 ⟨store, hload, hsets, hquery, resolve_eq_ok_iff.2 ⟨hselector, hsame⟩⟩
    have hqueried := (isSettled_of_prepare hprepare').queried
    have htoCompile : p'.toCompile = p.toCompile.filter (·.source ∈ failed) := by
      rw [Plan.toCompile, Plan.toCompile, (isSettled_of_prepare hprepare).toCompile, List.filter_filterMap]
      refine List.filterMap_congr fun entry he => ?_
      obtain ⟨hentry, hadmitted⟩ := List.mem_filter.1 he
      exact compileTask?_of_rebuilt hprepare habsolute hdistinct hfound hrebuilt he
        (hqueried entry hentry hadmitted)
    obtain ⟨_, _, _, outcome, _, _, -, -, hfailed, -⟩ := hreaches.exists_phases hprepare
    refine ⟨p', hprepare', htoCompile, ?_, ?_, rfl⟩
    · rw [htoCompile, ← hfailed]
      exact sources_filter_failures hprepare hdistinct
    · rw [Plan.included, Plan.included, (isSettled_of_prepare hprepare).included]
      rfl
  · right
    obtain ⟨entry, hentry, hmissing, hlong, rfl⟩ := tooLong_of_breaks hprepare habsolute hfound hrebuilt hbreaks
    refine ⟨g.pruneWidths, entry, ⟨added, g, rfl, hrestarts, hpass⟩, hentry, hmissing, ?_, hlong, hattempt, ?_⟩
    · -- with the directory there the name would have been too long at once
      rw [Bool.eq_false_iff]
      intro hdirectory
      rw [objectPath_of_prepare hprepare] at hmissing
      have hname := p.selector.cache.deriver.isFileName_fileName entry.1 g.pruneWidths
      rw [Disk.modified_joinText_of_tooLong habsolute hname (Disk.refusal?_eq_none_of_modified
        (Path.isAbsolute_joinText habsolute hname) hmissing) hdirectory hlong] at hmissing
      cases hmissing
    · exact run_eq_error_of_resolve hprepare hload hsets hquery herror

end Builder

end VariantBuild

/-! ## A small project -/

namespace VariantBuild.Builder.Retried

/-- The directory of the objects. -/
def objects : Path :=
  ⟨"/p/build/objs"⟩

/-- A native build of a project at `/p`. -/
def builder : Builder :=
  ⟨.new ⟨"/p"⟩, .plain "native", .default⟩

/-- Nothing has been built. -/
def fresh : Disk :=
  ⟨[([], .directory 0), (["p"], .directory 0), (["p", "build"], .directory 0),
    (["p", "build", "files.json"], .file "[\"core\"]".toUTF8 1),
    (["p", "build", "core-files.json"],
      .file "\x7b\"a.c\": \x7b\"dependencies\": [\"a.h\"]\x7d, \"b.c\": \x7b\x7d\x7d".toUTF8 1),
    (["p", "a.h"], .file .empty 3), (["p", "a.c"], .file .empty 5), (["p", "b.c"], .file .empty 5)], [], 9⟩

/-- The cache directory has been made. -/
def ready : Disk :=
  (fresh.makeDirectories objects).2

/-- The object of `a.c`. -/
def object : Path :=
  ⟨"/p/build/objs/16g4etw-a-r0nri5xinhtv.o"⟩

/-- It has been made. -/
def made : Disk :=
  match ready.writeStamped object .empty ready.clock with
  | .ok d => d
  | .error _ => ready

/-- A compiler that writes the output of `a.c`; everything else fails and changes nothing. -/
def tools : Host where
  run c d :=
    if "a.c" ∈ c.arguments then
      match Switched.outputOf c.arguments with
      | none => .ok (⟨.code 1, [], []⟩, d)
      | some o =>
        match d.writeStamped (c.directory.join ⟨o⟩) .empty d.clock with
        | .ok d' => .ok (⟨.code 0, [], []⟩, d')
        | .error _ => .ok (⟨.code 1, [], []⟩, d)
    else .ok (⟨.code 1, [], []⟩, d)
  order _ n := List.range n
  order_perm := Host.perm_queue

/-- The disks that the tools meet. -/
def Met (d : Disk) : Prop :=
  d = fresh ∨ d = ready ∨ d = made

/-- The entries of the project. -/
def entries : List SourceEntry :=
  [(⟨"a.c"⟩, ⟨[⟨"a.h"⟩], [], [], []⟩), (⟨"b.c"⟩, ⟨[], [], [], []⟩)]

/-- What is settled: both objects have to be made, and the compiler is told to make them. -/
def Expected (p : Plan) : Prop :=
  p.entries = entries ∧ p.inputs = [⟨"/p/a.c"⟩, ⟨"/p/a.h"⟩, ⟨"/p/b.c"⟩] ∧
    p.objects = [object, ⟨"/p/build/objs/16g4etw-b-r0nri5xinhtv.o"⟩] ∧
    p.toCompile.map (·.source) = [⟨"a.c"⟩, ⟨"b.c"⟩] ∧ (∀ t ∈ p.toCompile, t.preBuild = []) ∧
    "a.c" ∉ (builder.linkCommand p).arguments ∧
    ∀ t ∈ p.toCompile, "a.c" ∈ ((builder.compiler p.flags).command p.flags t).arguments →
      Switched.outputOf ((builder.compiler p.flags).command p.flags t).arguments = some object.text ∧
        t.object = object

instance (p : Plan) : Decidable (Expected p) :=
  inferInstanceAs (Decidable (_ ∧ _))

/-- Whether files fail to compile, and these files and the world that is left pass a check. -/
def fails {α : Type} (x : EStateM.Result BuildError World α) (check : List Path → World → Bool) : Bool :=
  match x with
  | .error (.compilation failed) w => check failed w
  | _ => false

variable {p : Plan} {v : World}

theorem exists_of_fails {α : Type} {x : EStateM.Result BuildError World α} {check : List Path → World → Bool}
    (h : fails x check = true) : ∃ failed w, x = .error (.compilation failed) w ∧ check failed w = true := by
  unfold fails at h
  split at h
  next failed w => exact ⟨failed, w, rfl, h⟩
  next => cases h

theorem exists_prepare_fresh : ∃ p, (builder.prepare tools).run (.ofDisk fresh) = .ok p (.ofDisk fresh) ∧
    Expected p := by
  have hplans : plans ((builder.prepare tools).run (.ofDisk fresh)) (decide <| Expected ·) = true := by
    decide +kernel
  obtain ⟨p, v, hprepare, hexpected⟩ := exists_of_plans hplans
  obtain ⟨-, rfl⟩ := eq_of_prepare rfl hprepare
  exact ⟨p, hprepare, of_decide_eq_true hexpected⟩

theorem isAbsolute_objects : builder.project.cacheDirectory.isAbsolute = true := rfl

/-- The directory is made once. -/
theorem makeDirectories_met {d : Disk} (h : Met d) : Met (d.makeDirectories objects).2 := by
  have hready : ready.isDirectory objects = true := by decide +kernel
  have hmade : made.isDirectory objects = true := by decide +kernel
  rcases h with rfl | rfl | rfl
  · exact .inr (.inl rfl)
  · rw [Disk.makeDirectories_of_isDirectory hready]
    exact .inr (.inl rfl)
  · rw [Disk.makeDirectories_of_isDirectory hmade]
    exact .inr (.inr rfl)

/-- The object is written once the directory is there, and written again to no effect. -/
theorem writeStamped_met {d : Disk} (h : Met d) :
    (∃ e, d.writeStamped object .empty d.clock = .error e) ∨
      d.writeStamped object .empty d.clock = .ok made ∧ (d = ready ∨ d = made) := by
  have hready : ready.writeStamped object .empty ready.clock = .ok made := by
    have hok : (ready.writeStamped object .empty ready.clock).isOk = true := by decide +kernel
    rw [made]
    cases hwrite : ready.writeStamped object .empty ready.clock with
    | ok d => rfl
    | error e =>
      rw [hwrite] at hok
      cases hok
  have hmade : made.writeStamped object .empty made.clock = .ok made := by
    have hsame : (match made.writeStamped object .empty made.clock with
        | .ok d => decide (d.nodes = made.nodes ∧ d.here = made.here ∧ d.clock = made.clock)
        | .error _ => false) = true := by decide +kernel
    split at hsame
    next d hwrite =>
      obtain ⟨hnodes, hhere, hclock⟩ := of_decide_eq_true hsame
      rw [hwrite]
      cases d
      exact congrArg Except.ok (Disk.mk.injEq .. ▸ ⟨hnodes, hhere, hclock⟩)
    next => cases hsame
  rcases h with rfl | rfl | rfl
  · have hfresh : (fresh.writeStamped object .empty fresh.clock).isOk = false := by decide +kernel
    cases hwrite : fresh.writeStamped object .empty fresh.clock with
    | ok d =>
      rw [hwrite] at hfresh
      cases hfresh
    | error e => exact .inl ⟨e, rfl⟩
  · exact .inr ⟨hready, .inl rfl⟩
  · exact .inr ⟨hmade, .inr rfl⟩

/-- Writing the object makes it and nothing else. -/
theorem remade_of_writeStamped (hprepare : (builder.prepare tools).run (.ofDisk fresh) = .ok p v)
    (h : Expected p) {d : Disk} (hd : d = ready ∨ d = made)
    (hwrite : d.writeStamped object .empty d.clock = .ok made) : p.Remade (· = object) d made := by
  obtain ⟨-, hinputs, -⟩ := h
  have hup : made.UpToDate [⟨"/p/a.c"⟩, ⟨"/p/a.h"⟩, ⟨"/p/b.c"⟩] object := by decide +kernel
  refine ⟨?_, fun entry he hobject => ?_, fun entry _ f hne => ?_⟩
  · rw [hinputs]
    rcases hd with rfl | rfl <;> decide +kernel
  · obtain ⟨t, ht, hle⟩ := hup
    rw [hobject]
    exact ⟨t, ht, fun q hq => hle q (hinputs ▸ Plan.inputs_subset (Plan.mem_admitted_iff.1 he).1 hq)⟩
  · -- other objects have other names
    obtain ⟨name, hname, hother⟩ := p.selector.cache.exists_objectPath_eq entry.1 f
    rw [(cache_of_prepare hprepare).2] at hother
    obtain ⟨l, hl, hwrites⟩ := Disk.writes_of_writeStamped hwrite
    have hname' : Path.IsFileName "16g4etw-a-r0nri5xinhtv.o" := ⟨by decide, by decide, by decide⟩
    obtain rfl : l = ["p", "build", "objs", "16g4etw-a-r0nri5xinhtv.o"] :=
      Switched.eq_of_locate_cacheDirectory hname' hl
    have hdirectory : d.isDirectory objects = true := by rcases hd with rfl | rfl <;> decide +kernel
    rw [hother] at hne ⊢
    refine hwrites.modified_joinText_eq isAbsolute_objects hname hdirectory fun m hm => ?_
    rw [Switched.eq_of_locate_cacheDirectory hname hm]
    refine ⟨fun heq => hne ?_, by simp⟩
    obtain rfl : name = "16g4etw-a-r0nri5xinhtv.o" := by simpa using heq
    rfl

theorem tidy (hprepare : (builder.prepare tools).run (.ofDisk fresh) = .ok p v) (h : Expected p) :
    Tidy tools builder p Met := by
  obtain ⟨-, -, hobjects, -, hnone, hlink, houtput⟩ := id h
  have hquiet : ∀ {c : Command} {d d' : Disk} {o : Outcome}, "a.c" ∉ c.arguments →
      tools.run c d = .ok (o, d') → o.exit.isSuccess = false ∧ d' = d := by
    intro c d d' o hc hrun
    rw [tools] at hrun
    simp only [if_neg hc] at hrun
    cases hrun
    exact ⟨rfl, rfl⟩
  refine ⟨fun d hd => ⟨makeDirectories_met hd, fun entry he hmissing t => ?_⟩, ?_, ?_⟩
  · have hhidden : ∀ d ∈ [fresh, ready, made], ∀ o ∈ [object, ⟨"/p/build/objs/16g4etw-b-r0nri5xinhtv.o"⟩],
        d.modified o = .error .notFound → (d.makeDirectories objects).2.modified o = .error .notFound := by
      decide +kernel
    have hmem : p.object entry ∈ p.objects := object_mem_objects hprepare he
    change (d.makeDirectories objects).2.modified _ ≠ _
    rw [hhidden d (by simpa [Met] using hd) _ (hobjects ▸ hmem) hmissing]
    exact nofun
  · intro c hc d o d' hd hrun
    have hcommands : TaskRunner.commands p.toCompile = [] :=
      List.flatMap_eq_nil_iff.2 fun t ht => by rw [hnone t ht, List.map_nil]
    obtain rfl : c = builder.linkCommand p := by simpa [hcommands, TaskRunner.shells] using hc
    obtain ⟨-, rfl⟩ := hquiet hlink hrun
    exact ⟨hd, .refl p _⟩
  · intro t ht d o d' hd hrun
    have hfails : ∀ {d'}, o.exit.isSuccess = false → d' = d →
        Met d' ∧ p.Remade (fun q => o.exit.isSuccess = true ∧ q = builder.project.root.join t.object) d d' := by
      rintro d' hfailed rfl
      exact ⟨hd, (Plan.Remade.refl p _).congr (by simp [hfailed])⟩
    by_cases ha : "a.c" ∈ ((builder.compiler p.flags).command p.flags t).arguments
    · obtain ⟨houtput, hobject⟩ := houtput t ht ha
      have hjoin : builder.project.root.join object = object := rfl
      have hplace : ((builder.compiler p.flags).command p.flags t).directory.join ⟨object.text⟩ = object := rfl
      rw [tools] at hrun
      simp only [if_pos ha, houtput, hplace] at hrun
      rcases writeStamped_met hd with ⟨e, hwrite⟩ | ⟨hwrite, hthere⟩
      · rw [hwrite] at hrun
        cases hrun
        exact hfails rfl rfl
      · rw [hwrite] at hrun
        cases hrun
        rw [hobject, hjoin]
        exact ⟨.inr (.inr rfl), (remade_of_writeStamped hprepare h hthere hwrite).congr fun q =>
          (and_iff_right rfl).symm⟩
    · obtain ⟨hfailed, hsame⟩ := hquiet ha hrun
      exact hfails hfailed hsame

theorem exists_modified_of_inputs (h : Expected p) : ∀ q ∈ p.inputs, ∃ t, fresh.modified q = .ok t := by
  have hthere : ∀ q ∈ [(⟨"/p/a.c"⟩ : Path), ⟨"/p/b.c"⟩, ⟨"/p/a.h"⟩],
      fresh.modified q = .ok 3 ∨ fresh.modified q = .ok 5 := by decide +kernel
  obtain ⟨-, hinputs, -⟩ := h
  intro q hq
  rw [hinputs] at hq
  rcases hthere q (by simpa [or_left_comm, or_comm] using hq) with ht | ht
  · exact ⟨3, ht⟩
  · exact ⟨5, ht⟩

/-- No object has a name that is too long. -/
theorem not_rejects (hprepare : (builder.prepare tools).run (.ofDisk fresh) = .ok p v) (h : Expected p)
    {first : Disk} {w w' : World} {f : FlagSet} {entry : SourceEntry} :
    ¬ Rejects tools builder p first w w' f entry := by
  intro hrejects
  have hderiver : p.selector.cache.deriver = .default := by
    have hcache : builder.project.cache = .ok ⟨objects, .default⟩ := rfl
    rw [← Except.ok.inj (hcache.symm.trans (cache_of_prepare hprepare).1)]
  have hstem : (KeyDeriver.stem entry.1).utf8ByteSize = 1 := by
    have hentry := hrejects.admitted.1
    rw [h.1] at hentry
    simp only [entries, List.mem_cons, List.not_mem_nil, or_false] at hentry
    rcases hentry with rfl | rfl <;> decide
  have hlong := hrejects.tooLong
  have hbound := (KeyDeriver.size_fileName_bounds KeyDeriver.length_features_default entry.1 f).2
  rw [hderiver] at hlong
  exact absurd hlong (Nat.not_lt.2 (Nat.le_trans hbound (hstem ▸ by decide)))

/-- The first build makes one object of two, and the next compiles the other. -/
theorem sample_after_failures :
    ∃ p w₁, (builder.prepare tools).run (.ofDisk fresh) = .ok p (.ofDisk fresh) ∧ Expected p ∧
      Tidy tools builder p Met ∧ Met fresh ∧
      (builder.run tools).run (.ofDisk fresh) = .error (.compilation [⟨"b.c"⟩]) w₁ ∧
      ∃ p', Retries tools builder p p' [⟨"b.c"⟩] w₁ w₁ := by
  obtain ⟨p, hprepare, hexpected⟩ := exists_prepare_fresh
  have hfails : fails ((builder.run tools).run (.ofDisk fresh)) (fun failed w₁ => failed = [⟨"b.c"⟩] ∧
      ∀ q ∈ [(⟨"/p/build/files.json"⟩ : Path), ⟨"/p/build/core-files.json"⟩],
        w₁.disk.readText q = fresh.readText q) = true := by decide +kernel
  obtain ⟨failed, w₁, hrun, hcheck⟩ := exists_of_fails hfails
  obtain ⟨rfl, hsame⟩ := of_decide_eq_true hcheck
  have htidy := tidy hprepare hexpected
  refine ⟨p, w₁, hprepare, hexpected, htidy, .inl rfl, hrun, ?_⟩
  have hmanifests : ManifestStore.load w₁.disk builder.project.manifestDirectory =
      ManifestStore.load fresh builder.project.manifestDirectory := by
    have hfiles : (ManifestStore.load fresh builder.project.manifestDirectory).map (·.files) =
        .ok [⟨"/p/build/files.json"⟩, ⟨"/p/build/core-files.json"⟩] := by decide +kernel
    obtain ⟨store, hload, hstore⟩ := except_map_eq_ok_iff.1 hfiles
    rw [hload]
    exact ManifestStore.load_of_readText hload fun q hq text htext => (hsame q (hstore ▸ hq)).trans htext
  have hquery : (PackageFlags.query tools builder.variant.packages).run w₁ = .ok p.packages w₁ := by
    rw [(eq_of_prepare rfl hprepare).1]
    rfl
  have hdistinct : p.objects.Nodup := by
    rw [hexpected.2.2.1]
    decide
  have hkept : p.Remade (fun _ => False) ((builder.run tools).perform (.ofDisk fresh)).2.disk w₁.disk := by
    rw [Activity.perform, hrun]
    exact .refl p _
  rcases run_after_failures isAbsolute_objects hprepare (exists_modified_of_inputs hexpected) hdistinct htidy
    (.inl rfl) (.inl ⟨w₁, hrun⟩) hmanifests hquery hkept with hretries | ⟨f, entry, hrejects⟩
  · exact hretries
  · exact absurd hrejects (not_rejects hprepare hexpected)

/-! ### What a new cache directory can spoil -/

/-- Every command fails and changes nothing. -/
def failing : Host where
  run _ d := .ok (⟨.code 1, [], []⟩, d)
  order _ n := List.range n
  order_perm := Host.perm_queue

/-- A project is in order and all its tasks fail, and the next build does not come to the same tasks. -/
structure Forgets (b : Builder) (d : Disk) (p : Plan) (w₁ : World) : Prop where
  absolute : b.project.cacheDirectory.isAbsolute = true
  prepared : (b.prepare failing).run (.ofDisk d) = .ok p (.ofDisk d)
  found : ∀ q ∈ p.inputs, ∃ t, d.modified q = .ok t
  distinct : p.objects.Nodup
  failed : (b.run failing).run (.ofDisk d) = .error (.compilation (p.toCompile.map (·.source))) w₁
  forgets : ∀ p' v, ¬ Retries failing b p p' (p.toCompile.map (·.source)) w₁ v

theorem disk_eq_of_calls {w w' : World} {calls : List Call} (h : Calls failing w calls w') :
    w'.disk = w.disk := by
  induction h with
  | nil w => rfl
  | @cons w v w' c result rest first _ ih =>
    rw [ih]
    cases result with
    | error cause => rw [World.eq_of_start_eq_error first]
    | ok outcome =>
      have hrun : Except.ok (_, w.disk) = Except.ok (outcome, v.disk) := World.run_of_start_eq_ok first
      exact (Prod.mk.inj (Except.ok.inj hrun)).2.symm

/-- A build in which everything fails only makes the cache directory. -/
theorem grows_of_failed {b : Builder} {w v : World} {p : Plan} {failed : List Path}
    (h : Reaches failing b p w v failed) (hprepare : (b.prepare failing).run w = .ok p v) :
    v.disk.Grows ((b.run failing).perform w).2.disk := by
  obtain ⟨tasks, v₁, compiles, outcome, v₂, links, hran, hcompiled, -, hlinks, -⟩ := h.exists_phases hprepare
  obtain ⟨u, hu, hcalls⟩ := hcompiled.calls
  rw [disk_eq_of_calls hlinks, disk_eq_of_calls hcalls, ← disk_eq_of_calls hran.calls]
  rcases hu with rfl | ⟨-, rfl⟩
  · exact .refl _
  · exact Disk.grows_makeDirectories _ _

/-- Where the cache directory is there, a long name stops the resolution of the project with the two files. -/
theorem resolve_long {stem : String} (hfits : Switched.Fits stem) (hlong : 250 ≤ stem.utf8ByteSize) {d : Disk}
    (hdirectory : d.isDirectory Switched.project.cacheDirectory = true) :
    ∃ e, Switched.selector.resolve d [Switched.manifest stem] Switched.start = .error e := by
  have hsize : Disk.greatestNameSize <
      (KeyDeriver.default.derive ⟨stem ++ ".c"⟩ Switched.start).fileName.utf8ByteSize := by
    have hbound :=
      (KeyDeriver.size_fileName_bounds KeyDeriver.length_features_default ⟨stem ++ ".c"⟩ Switched.start).1
    rw [Switched.stem_source hfits] at hbound
    rw [Disk.greatestNameSize]
    omega
  have htooLong : d.modified (Switched.selector.cache.objectPath ⟨stem ++ ".c"⟩ Switched.start) =
      .error .nameTooLong := by
    have hrefusal := Switched.refusal?_source hfits Switched.start
    rw [ObjectCache.objectPath] at hrefusal ⊢
    exact Disk.modified_joinText_of_tooLong Switched.isAbsolute_cacheDirectory
      (KeyDeriver.isFileName_fileName _ _ _) hrefusal hdirectory hsize
  have hadmitted : judge Switched.start [.options (.parse "!-fPIC")] = .admitted [] := by decide
  have hattempt : Switched.selector.attempt d Switched.start.pruneWidths
      (ManifestSet.allEntries [Switched.manifest stem]) =
        .error (.io (Switched.selector.cache.objectPath ⟨stem ++ ".c"⟩ Switched.start) .nameTooLong) := by
    have hentries : ManifestSet.allEntries [Switched.manifest stem] = Switched.entries stem := by
      simp [ManifestSet.allEntries, Switched.manifest]
    rw [hentries, Switched.pruneWidths_start]
    simp only [Switched.entries, Selector.attempt, hadmitted, Selector.staleness, Staleness.check, htooLong]
  exact ⟨_, (Selector.Restarts.refl _).settle_eq_error (Nat.zero_le _) hattempt⟩

/-- A long name is found too long once the cache directory is there. -/
theorem exists_forgets_long : ∃ w₁, Forgets (Switched.builder 0) (Switched.fresh (Switched.named 250))
    (Switched.plan (Switched.named 250)) w₁ := by
  have hfits : Switched.Fits (Switched.named 250) := Switched.fits_named (by decide) (by decide)
  have hload := Switched.load_fresh hfits
  have hprepare : ((Switched.builder 0).prepare failing).run (.ofDisk (Switched.fresh (Switched.named 250))) =
      .ok (Switched.plan (Switched.named 250)) (.ofDisk (Switched.fresh (Switched.named 250))) :=
    run_prepare_eq_ok_iff.2 ⟨_, hload, rfl, rfl, resolve_eq_ok_iff.2 ⟨rfl, Switched.resolve_fresh hfits⟩⟩
  have hfails : fails (((Switched.builder 0).makeObjects failing (Switched.plan (Switched.named 250))).run
        (.ofDisk (Switched.fresh (Switched.named 250)))) (fun failed w₁ => failed = [⟨"b.c"⟩] ∧
      w₁.disk.isDirectory Switched.project.cacheDirectory = true) = true := by decide +kernel
  obtain ⟨failed, w₁, hmakes, hcheck⟩ := exists_of_fails hfails
  obtain ⟨rfl, hdirectory⟩ := of_decide_eq_true hcheck
  have hrun : ((Switched.builder 0).run failing).run (.ofDisk (Switched.fresh (Switched.named 250))) =
      .error (.compilation [⟨"b.c"⟩]) w₁ := by
    rw [run_eq, Activity.run_bind_of_ok hprepare, Activity.run_bind_of_error hmakes]
  refine ⟨w₁, rfl, hprepare, fun q hq => ?_, List.nodup_singleton _, hrun, fun p' v hretries => ?_⟩
  · have hsound := Switched.sound_fresh hfits
    obtain ⟨entry, he, hqe⟩ := List.mem_flatMap.1 hq
    exact exists_modified_of_sound (b := Switched.builder 0)
      (w := .ofDisk (Switched.fresh (Switched.named 250))) hsound hprepare hsound he q hqe
  · -- the manifests are loaded as before, but resolution stops at its first file
    have hgrows := grows_of_failed (.inl ⟨w₁, hrun⟩) hprepare
    rw [Activity.perform, hrun] at hgrows
    have hload' := ManifestStore.load_of_readText hload fun _ _ _ => hgrows.readText_eq
    obtain ⟨store, hstore, hsets, -, hresolve⟩ := run_prepare_eq_ok_iff.1 hretries.prepared
    obtain rfl := Except.ok.inj (hload'.symm.trans hstore)
    obtain ⟨hpackages, rfl⟩ := eq_of_prepare rfl hretries.prepared
    obtain ⟨hselector, hok⟩ := resolve_eq_ok_iff.1 hresolve
    obtain ⟨e, herror⟩ := resolve_long hfits (Nat.le_of_eq (Switched.size_named 250).symm) hdirectory
    rw [← Except.ok.inj hselector, hpackages, hsets] at hok
    cases herror.symm.trans hok

/-- A project whose path of the cache directory goes through a directory that is missing, past a directory
that is there. -/
def dotted : Builder :=
  ⟨{ Project.new ⟨"/p"⟩ with cacheDirectory := ⟨"/p/gone/../objs"⟩ }, .plain "native", .default⟩

/-- The directory that is there holds an object that is newer than its source. -/
def leftover : Disk :=
  ⟨[([], .directory 0), (["p"], .directory 0), (["p", "build"], .directory 0),
    (["p", "build", "files.json"], .file "[\"core\"]".toUTF8 1),
    (["p", "build", "core-files.json"], .file "\x7b\"a.c\": \x7b\x7d\x7d".toUTF8 1),
    (["p", "a.c"], .file .empty 5), (["p", "objs"], .directory 0),
    (["p", "objs", "16g4etw-a-r0nri5xinhtv.o"], .file .empty 6)], [], 9⟩

/-- The old object comes to light with the cache directory. -/
theorem exists_forgets_dotted : ∃ p w₁, Forgets dotted leftover p w₁ := by
  have hplans : plans ((dotted.prepare failing).run (.ofDisk leftover)) (fun p =>
      p.toCompile.map (·.source) = [⟨"a.c"⟩] ∧ p.objects.Nodup ∧
        ∀ q ∈ p.inputs, leftover.modified q = .ok 5) = true := by decide +kernel
  have hfails : fails ((dotted.run failing).run (.ofDisk leftover)) (fun failed w₁ => failed = [⟨"a.c"⟩] ∧
      plans ((dotted.prepare failing).run w₁) (·.toCompile.isEmpty) = true) = true := by decide +kernel
  obtain ⟨p, v, hprepare, hplan⟩ := exists_of_plans hplans
  obtain ⟨hsources, hdistinct, hinputs⟩ := of_decide_eq_true hplan
  obtain ⟨-, rfl⟩ := eq_of_prepare rfl hprepare
  obtain ⟨failed, w₁, hrun, hcheck⟩ := exists_of_fails hfails
  obtain ⟨rfl, hagain⟩ := of_decide_eq_true hcheck
  refine ⟨p, w₁, rfl, hprepare, fun q hq => ⟨5, hinputs q hq⟩, hdistinct, hsources ▸ hrun,
    fun p' v hretries => ?_⟩
  obtain ⟨p'', v'', hprepare'', hnone⟩ := exists_of_plans hagain
  cases hprepare''.symm.trans hretries.prepared
  have hsame := hretries.sources
  rw [List.isEmpty_iff.1 hnone, hsources] at hsame
  cases hsame

/-- Both obstacles are real: with nothing but failing commands, a name that is too long and a path that goes
past a missing directory each keep the next build from compiling what failed. -/
theorem failures_not_again :
    (∃ w₁, Forgets (Switched.builder 0) (Switched.fresh (Switched.named 250))
      (Switched.plan (Switched.named 250)) w₁) ∧
    ∃ p w₁, Forgets dotted leftover p w₁ :=
  ⟨exists_forgets_long, exists_forgets_dotted⟩

end VariantBuild.Builder.Retried
