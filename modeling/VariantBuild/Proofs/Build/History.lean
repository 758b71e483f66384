import VariantBuild.Proofs.Build.Freshness
import VariantBuild.Proofs.Manifest.Saving
/-!
# A project over time

Builds of one project follow one another: of any variants, with any tools, successful or failing. What the
tools must promise is `Leaves`: manifests, sources and dependencies are as they were, the clock does not go
back, and no cached object is touched but the one that a successful compiler makes now.

Under this contract objects that are up to date stay so (`Carries`). The step lemma is about one process
(`Leaves.carries`); making the cache directory and waiting carry as well, and so do all calls of a phase, all
phases of a build and all builds of a history, by induction on each.
-/

namespace VariantBuild

/-- Everything that the objects of the sets are made from. -/
def ManifestStore.inputs (store : ManifestStore) (root : Path) : List Path :=
  (ManifestSet.allEntries store.sets).flatMap (entryInputs root)

/-- The files that the sets of a store were read from. -/
def ManifestStore.files (store : ManifestStore) : List Path :=
  store.directory.joinText indexName ::
    store.sets.map fun set => store.directory.joinText (ManifestSet.fileName set.name)

/-- A project in order: the manifests are these, and sources and dependencies are there, none of them
newer than the clock. -/
structure Sound (project : Project) (store : ManifestStore) (d : Disk) : Prop where
  manifests : ManifestStore.load d project.manifestDirectory = .ok store
  inputs : ∀ q ∈ store.inputs project.root, ∃ t, d.modified q = .ok t ∧ t ≤ d.clock

/-- What a process leaves of a project: everything, but for the one cached object that it makes, if any,
with a time of now. -/
structure Leaves (project : Project) (store : ManifestStore) (made : Option Path) (d d' : Disk) :
    Prop where
  clock : d.clock ≤ d'.clock
  manifests : ManifestStore.load d' project.manifestDirectory =
    ManifestStore.load d project.manifestDirectory
  inputs : ∀ q ∈ store.inputs project.root, d'.modified q = d.modified q
  objects : ∀ name, Path.IsFileName name → some (project.cacheDirectory.joinText name) ≠ made →
    ∀ t, d.modified (project.cacheDirectory.joinText name) = .ok t →
      d'.modified (project.cacheDirectory.joinText name) = .ok t
  made : ∀ o, made = some o → ∃ t, d'.modified o = .ok t ∧ d.clock ≤ t

/-- A way from one disk to another on which the project stays in order and objects stay up to date. -/
structure Carries (project : Project) (store : ManifestStore) (d d' : Disk) : Prop where
  sound : Sound project store d'
  upToDate : ∀ name, Path.IsFileName name → ∀ few ⊆ store.inputs project.root,
    d.UpToDate few (project.cacheDirectory.joinText name) →
      d'.UpToDate few (project.cacheDirectory.joinText name)

variable {project : Project} {store : ManifestStore} {d d' d'' : Disk} {made : Option Path}

/-! ## Manifests on another disk -/

/-- Manifests are loaded as before from a disk that holds their files as before. -/
theorem ManifestStore.load_of_readText {directory : Path} (hload : load d directory = .ok store)
    (h : ∀ p ∈ store.files, ∀ text, d.readText p = .ok text → d'.readText p = .ok text) :
    load d' directory = .ok store := by
  obtain ⟨rfl, ⟨index, hindex, hnames⟩, hsets⟩ := load_eq_ok_iff.1 hload
  refine load_eq_ok_iff.2 ⟨rfl, ⟨index, h _ List.mem_cons_self _ hindex, hnames⟩, fun set hset => ?_⟩
  obtain ⟨text, htext, hparse⟩ := loadSet_eq_ok_iff.1 (hsets set hset)
  have hfile : setFile store.directory set.name ∈ store.files :=
    List.mem_cons_of_mem _ (List.mem_map_of_mem hset)
  exact loadSet_eq_ok_iff.2 ⟨text, h _ hfile _ htext, hparse⟩

/-! ## Steps that carry -/

namespace Carries

theorem refl (h : Sound project store d) : Carries project store d d :=
  ⟨h, fun _ _ _ _ hup => hup⟩

theorem trans (h : Carries project store d d') (h' : Carries project store d' d'') :
    Carries project store d d'' :=
  ⟨h'.sound, fun name hname few hfew hup =>
    h'.upToDate name hname few hfew (h.upToDate name hname few hfew hup)⟩

/-- Waiting carries. -/
theorem wait (h : Sound project store d) {t : Time} (ht : d.clock ≤ t) :
    Carries project store d { d with clock := t } where
  sound := by
    refine ⟨ManifestStore.load_of_readText h.manifests (by simp), fun q hq => ?_⟩
    obtain ⟨u, hu, hle⟩ := h.inputs q hq
    exact ⟨u, by simpa using hu, Int.le_trans hle ht⟩
  upToDate := fun _ _ _ _ hup => by simpa [Disk.UpToDate] using hup

/-- Making the cache directory carries: it makes nothing where an object is there. -/
theorem makeDirectories (habsolute : project.cacheDirectory.isAbsolute = true)
    (h : Sound project store d) :
    Carries project store d (d.makeDirectories project.cacheDirectory).2 := by
  have hgrows := d.grows_makeDirectories project.cacheDirectory
  refine ⟨⟨ManifestStore.load_of_readText h.manifests fun _ _ _ => hgrows.readText_eq, fun q hq => ?_⟩, ?_⟩
  · obtain ⟨t, ht, hle⟩ := h.inputs q hq
    obtain ⟨t', ht', rfl | rfl⟩ := hgrows.modified_eq ht
    · exact ⟨t', ht', hgrows.clock ▸ hle⟩
    · exact ⟨d.clock, ht', Int.le_of_eq hgrows.clock.symm⟩
  · rintro name hname few - ⟨t, ht, hle⟩
    rw [Disk.makeDirectories_of_modified habsolute hname ht]
    exact ⟨t, ht, hle⟩

end Carries

namespace Leaves

/-- A process that keeps to the contract carries: an object that it makes is not older than the clock, and
so than no input. -/
theorem carries (h : Leaves project store made d d') (hd : Sound project store d) :
    Carries project store d d' := by
  have hinputs : ∀ q ∈ store.inputs project.root, ∃ t, d'.modified q = .ok t ∧ t ≤ d.clock := by
    intro q hq
    rw [h.inputs q hq]
    exact hd.inputs q hq
  refine ⟨⟨h.manifests.trans hd.manifests, fun q hq => ?_⟩, ?_⟩
  · obtain ⟨t, ht, hle⟩ := hinputs q hq
    exact ⟨t, ht, Int.le_trans hle h.clock⟩
  · rintro name hname few hfew ⟨t, ht, hle⟩
    -- only an object that is made anew gets another time, and then a late one
    by_cases hmade : some (project.cacheDirectory.joinText name) = made
    · obtain ⟨t', ht', hnow⟩ := h.made _ hmade.symm
      refine ⟨t', ht', fun q hq u hu => ?_⟩
      obtain ⟨u', hu', hle'⟩ := hinputs q (hfew hq)
      rw [hu] at hu'
      cases hu'
      exact Int.le_trans hle' hnow
    · refine ⟨t, h.objects name hname hmade t ht, fun q hq u hu => hle q hq u ?_⟩
      rwa [← h.inputs q (hfew hq)]

/-- A compiler that keeps to the contract makes its object as it should. -/
theorem remakes {ins outs : List Path} {o : Path} (h : Leaves project store (some o) d d')
    (hd : Sound project store d) (hins : ins ⊆ store.inputs project.root)
    (houts : ∀ o ∈ outs, ∃ name, Path.IsFileName name ∧ o = project.cacheDirectory.joinText name) :
    Remakes ins outs o d d' where
  kept := fun q hq => h.inputs q (hins hq)
  made := by
    obtain ⟨t, ht, hnow⟩ := h.made o rfl
    refine ⟨t, ht, fun q hq u hu => ?_⟩
    obtain ⟨u', hu', hle⟩ := hd.inputs q (hins hq)
    rw [h.inputs q (hins hq), hu'] at hu
    cases hu
    exact Int.le_trans hle hnow
  others := fun o' ho' hne t ht => by
    obtain ⟨name, hname, rfl⟩ := houts o' ho'
    exact h.objects name hname (fun heq => hne (Option.some.inj heq)) t ht

/-- A process that changes nothing keeps to the contract. -/
theorem refl (project : Project) (store : ManifestStore) (d : Disk) : Leaves project store none d d :=
  ⟨Int.le_refl _, rfl, fun _ _ => rfl, fun _ _ _ _ ht => ht, fun _ h => nomatch h⟩

/-- A process that writes one file now keeps to the contract, unless the file or the directory that holds
it is a manifest, an input, or an object that it was not asked for. -/
theorem of_writes {l : Location} (h : Disk.Writes l d.clock d d') (hd : Sound project store d)
    (hkept : ∀ q ∈ store.files ++ store.inputs project.root, ∀ m, d.locate q = .ok m →
      m ≠ l ∧ m ≠ l.dropLast)
    (hobjects : ∀ name, Path.IsFileName name → some (project.cacheDirectory.joinText name) ≠ made →
      ∀ m, d.locate (project.cacheDirectory.joinText name) = .ok m → m ≠ l ∧ m ≠ l.dropLast)
    (hmade : ∀ o, made = some o → d.locate o = .ok l) : Leaves project store made d d' where
  clock := Int.le_of_eq h.clock.symm
  manifests := by
    rw [hd.manifests]
    exact ManifestStore.load_of_readText hd.manifests fun p hp text =>
      h.readText_eq (hkept p (List.mem_append_left _ hp))
  inputs := fun q hq => by
    obtain ⟨t, ht, -⟩ := hd.inputs q hq
    rw [ht]
    exact h.modified_eq (hkept q (List.mem_append_right _ hq)) ht
  objects := fun name hname hne t => h.modified_eq (hobjects name hname hne)
  made := fun o ho => ⟨d.clock, h.modified_self (hmade o ho), Int.le_refl _⟩

end Leaves

/-! ## Calls that carry -/

/-- A call leaves the project alone, but for an object that it may make. -/
theorem Calls.carries {host : Host} {calls : List Call} {w w' : World} (h : Calls host w calls w')
    (hcontract : ∀ c ∈ calls, ∀ d o d', Sound project store d → host.run c.command d = .ok (o, d') →
      ∃ made, Leaves project store made d d')
    (hw : Sound project store w.disk) : Carries project store w.disk w'.disk := by
  induction h with
  | nil w => exact .refl hw
  | @cons w v w' c result rest first _ ih =>
    obtain ⟨hfirst, hrest⟩ := List.forall_mem_cons.1 hcontract
    have hstep : Carries project store w.disk v.disk := by
      cases result with
      | ok outcome =>
        have hrun := World.run_of_start_eq_ok first
        obtain ⟨made, hleaves⟩ := hfirst _ _ _ hw hrun
        exact hleaves.carries hw
      | error cause =>
        obtain rfl := World.eq_of_start_eq_error first
        exact .refl hw
    exact hstep.trans (ih hrest hstep.sound)

/-! ## Builds that carry -/

/-- The contract between a builder and its tools, wherever the project is in order. -/
structure Careful (host : Host) (b : Builder) (project : Project) (store : ManifestStore) : Prop where
  queries : ∀ c ∈ PackageFlags.commands b.variant.packages, ∀ d o d', Sound project store d →
    host.run c d = .ok (o, d') → Leaves project store none d d'
  /-- Pre-build commands and the final tool touch neither manifests nor inputs nor cached objects. -/
  others : ∀ w p v, Sound project store w.disk → (b.prepare host).run w = .ok p v →
    ∀ c ∈ (b.taskRunner p.flags).shells (TaskRunner.commands p.toCompile) ++ [b.linkCommand p],
      ∀ d o d', Sound project store d → host.run c d = .ok (o, d') → Leaves project store none d d'
  /-- A compiler makes its `-o` file, seen from where it runs; one that fails makes nothing. -/
  compilers : ∀ w p v, Sound project store w.disk → (b.prepare host).run w = .ok p v →
    ∀ t ∈ p.toCompile, ∀ d o d', Sound project store d →
      host.run ((b.compiler p.flags).command p.flags t) d = .ok (o, d') →
        Leaves project store (if o.exit.isSuccess then some (b.project.root.join t.object) else none) d d'

namespace Builder

variable {host : Host} {b : Builder} {w v : World} {p : Plan}

theorem carries_of_queries {queries : List Call} (hcareful : Careful host b project store)
    (hcalls : Calls host w queries v)
    (hcommands : queries.map (·.command) <+: PackageFlags.commands b.variant.packages)
    (hw : Sound project store w.disk) : Carries project store w.disk v.disk := by
  refine hcalls.carries (fun c hc d o d' hd hrun => ⟨none, ?_⟩) hw
  exact hcareful.queries c.command (hcommands.subset (List.mem_map_of_mem hc)) d o d' hd hrun

/-- Pre-build commands and the final tool carry. -/
theorem carries_of_others {u u' : World} {calls : List Call} (hcareful : Careful host b project store)
    (hw : Sound project store w.disk) (hprepare : (b.prepare host).run w = .ok p v)
    (hcalls : Calls host u calls u') (hcommands : calls.map (·.command) ⊆
      (b.taskRunner p.flags).shells (TaskRunner.commands p.toCompile) ++ [b.linkCommand p])
    (hu : Sound project store u.disk) : Carries project store u.disk u'.disk := by
  refine hcalls.carries (fun c hc d o d' hd hrun => ⟨none, ?_⟩) hu
  exact hcareful.others w p v hw hprepare c.command (hcommands (List.mem_map_of_mem hc)) d o d' hd hrun

/-- Compilers carry. -/
theorem carries_of_compilers {u u' : World} {calls : List Call} (hcareful : Careful host b project store)
    (hw : Sound project store w.disk) (hprepare : (b.prepare host).run w = .ok p v)
    (hcalls : Calls host u calls u') (hcommands : calls.map (·.command) ⊆
      p.toCompile.map ((b.compiler p.flags).command p.flags))
    (hu : Sound project store u.disk) : Carries project store u.disk u'.disk := by
  refine hcalls.carries (fun c hc d o d' hd hrun => ?_) hu
  obtain ⟨t, ht, hcommand⟩ := List.mem_map.1 (hcommands (List.mem_map_of_mem hc))
  rw [← hcommand] at hrun
  exact ⟨_, hcareful.compilers w p v hw hprepare t ht d o d' hd hrun⟩

/-- A build carries from its start to its end, however it ends. -/
theorem carries_of_run (hcareful : Careful host b project store)
    (hcache : b.project.cacheDirectory = project.cacheDirectory)
    (habsolute : project.cacheDirectory.isAbsolute = true) (hw : Sound project store w.disk) :
    Carries project store w.disk ((b.run host).perform w).2.disk := by
  obtain ⟨t, hends⟩ := exists_ends host b w
  obtain ⟨queried, tasked, readied, compiled, hqueries, htasks, hready, hcompiles, hlinks⟩ := hends.leads
  have hqueried := carries_of_queries hcareful hqueries hends.queries_prefix hw
  -- the directory may be made in between, whether or not anything was prepared
  have hreadied : Sound project store tasked.disk → Carries project store tasked.disk readied.disk := by
    intro htasked
    rcases hready with rfl | rfl
    · exact .refl htasked
    · rw [World.withDirectory, hcache]
      exact .makeDirectories habsolute htasked
  by_cases hprepared : ∃ p v, (b.prepare host).run w = .ok p v
  · obtain ⟨p, v, hp⟩ := hprepared
    obtain ⟨-, htaskCommands, hcompileCommands, hlinkCommands, -⟩ := hends.prepared_phases hp
    have htasked := carries_of_others hcareful hw hp htasks
      (List.subset_append_of_subset_left _ htaskCommands.subset) hqueried.sound
    have hready := hreadied htasked.sound
    have hcompiled : Carries project store readied.disk compiled.disk := by
      refine carries_of_compilers hcareful hw hp hcompiles ?_ hready.sound
      rcases hcompileCommands with hnone | hperm
      · rw [hnone]
        exact List.nil_subset _
      · exact hperm.subset
    have hlinked := carries_of_others hcareful hw hp hlinks
      (List.subset_append_of_subset_right _ hlinkCommands.subset) hcompiled.sound
    exact hqueried.trans (htasked.trans (hready.trans (hcompiled.trans hlinked)))
  · -- nothing but queries was started
    obtain ⟨htasksNil, hcompilesNil, hlinksNil⟩ :=
      hends.unprepared_phases fun p v hp => hprepared ⟨p, v, hp⟩
    rw [htasksNil] at htasks
    rw [hcompilesNil] at hcompiles
    rw [hlinksNil] at hlinks
    cases htasks
    cases hcompiles
    have hlast : Carries project store readied.disk ((b.run host).perform w).2.disk := by
      generalize ((b.run host).perform w).2 = w' at hlinks
      cases hlinks
      exact .refl (hreadied hqueried.sound).sound
    exact hqueried.trans ((hreadied hqueried.sound).trans hlast)

end Builder

/-- Disks that a project comes by: time goes on, and builders that share its cache directory run. -/
inductive History (project : Project) (store : ManifestStore) : Disk → Disk → Prop
  | refl (d : Disk) : History project store d d
  | wait {d d' : Disk} {t : Time} (before : History project store d d') (later : d'.clock ≤ t) :
      History project store d { d' with clock := t }
  | build {d : Disk} {host : Host} {b : Builder} {w : World} (before : History project store d w.disk)
      (cache : b.project.cacheDirectory = project.cacheDirectory)
      (careful : Careful host b project store) :
      History project store d ((b.run host).perform w).2.disk

/-- Whatever is built in between, objects that are up to date stay so. -/
theorem History.carries (h : History project store d d')
    (habsolute : project.cacheDirectory.isAbsolute = true) (hd : Sound project store d) :
    Carries project store d d' := by
  induction h with
  | refl => exact .refl hd
  | wait _ later ih => exact ih.trans (.wait ih.sound later)
  | build _ cache careful ih =>
    exact ih.trans (Builder.carries_of_run careful cache habsolute ih.sound)

end VariantBuild
