import Mathlib.Data.List.Nodup
import VariantBuild.Proofs.Build.Linked
/-!
# What a build makes

A plan's own files are its inputs and the objects of its entries. A stretch of a build is told by what
happens to them (`Plan.Remade`): inputs stay, objects stay, but for those that are made. One process that
keeps to its promise is such a stretch (`Builder.Tidy`), and so are all calls of a phase, by induction
(`Calls.remade`).

Where files have objects of their own, the compilers of a plan make the objects of the tasks that succeed
and no others, in whatever order they run (`Builder.Compiled.remade`), and the tasks of the files that are
reported are those that failed (`Builder.sources_filter_failures`).
-/

namespace VariantBuild

namespace Plan

/-- The object of an entry under the settled flags. -/
def object (p : Plan) (entry : SourceEntry) : Path :=
  p.selector.cache.objectPath entry.1 p.flags

/-- What a stretch of a build leaves of the files of a plan: inputs are as they were, and so are all objects
of its entries but for those that are made; and what is made for an entry that is linked is up to date. -/
structure Remade (p : Plan) (made : Path → Prop) (d d' : Disk) : Prop where
  inputs : ∀ q ∈ p.inputs, d'.modified q = d.modified q
  fresh : ∀ entry ∈ p.admitted, made (p.object entry) →
    d'.UpToDate (entryInputs p.selector.root entry) (p.object entry)
  others : ∀ entry ∈ p.entries, ∀ f, ¬ made (p.selector.cache.objectPath entry.1 f) →
    d'.modified (p.selector.cache.objectPath entry.1 f) = d.modified (p.selector.cache.objectPath entry.1 f)

/-- The objects of the tasks that do not fail. -/
def Compiles (p : Plan) (failed : List Path) (o : Path) : Prop :=
  ∃ t ∈ p.toCompile, t.source ∉ failed ∧ o = t.object

end Plan

/-- What is assumed of the tools of a plan. `Good` is what the tools need of a disk and leave behind. -/
structure Builder.Tidy (host : Host) (b : Builder) (p : Plan) (Good : Disk → Prop) : Prop where
  /-- Making the cache directory brings no object to light. -/
  directory : ∀ d, Good d → Good (d.makeDirectories b.project.cacheDirectory).2 ∧
    ∀ entry ∈ p.admitted, d.modified (p.object entry) = .error .notFound →
      ∀ t, (d.makeDirectories b.project.cacheDirectory).2.modified (p.object entry) ≠ .ok t
  /-- Pre-build commands and the final tool change no input and no object. -/
  others : ∀ c ∈ (b.taskRunner p.flags).shells (TaskRunner.commands p.toCompile) ++ [b.linkCommand p],
    ∀ d o d', Good d → host.run c d = .ok (o, d') → Good d' ∧ p.Remade (fun _ => False) d d'
  /-- A compiler that succeeds makes its `-o` file, seen from where it runs; one that fails makes nothing. -/
  compilers : ∀ t ∈ p.toCompile, ∀ d o d', Good d →
    host.run ((b.compiler p.flags).command p.flags t) d = .ok (o, d') →
      Good d' ∧ p.Remade (fun q => o.exit.isSuccess = true ∧ q = b.project.root.join t.object) d d'

variable {p : Plan} {made made' : Path → Prop} {d d' d'' : Disk} {entry : SourceEntry}

theorem Disk.UpToDate.congr {ins : List Path} {o : Path} (h : d.UpToDate ins o)
    (ho : d'.modified o = d.modified o) (hins : ∀ q ∈ ins, d'.modified q = d.modified q) :
    d'.UpToDate ins o := by
  obtain ⟨t, ht, hle⟩ := h
  refine ⟨t, ho.trans ht, fun q hq u hu => hle q hq u ?_⟩
  rwa [← hins q hq]

/-! ## Stretches of a build -/

namespace Plan.Remade

theorem refl (p : Plan) (d : Disk) : p.Remade (fun _ => False) d d :=
  ⟨fun _ _ => rfl, fun _ _ h => h.elim, fun _ _ _ _ => rfl⟩

theorem congr (h : p.Remade made d d') (hiff : ∀ o, made o ↔ made' o) : p.Remade made' d d' := by
  obtain rfl : made = made' := funext fun o => propext (hiff o)
  exact h

theorem inputs_of_admitted (h : p.Remade made d d') (he : entry ∈ p.admitted) :
    ∀ q ∈ entryInputs p.selector.root entry, d'.modified q = d.modified q :=
  fun q hq => h.inputs q (Plan.inputs_subset (Plan.mem_admitted_iff.1 he).1 hq)

/-- One stretch after another makes what either of them makes. -/
theorem trans (h : p.Remade made d d') (h' : p.Remade made' d' d'') :
    p.Remade (fun o => made o ∨ made' o) d d'' where
  inputs := fun q hq => (h'.inputs q hq).trans (h.inputs q hq)
  fresh := fun entry he hmade => by
    -- what is not made anew stays as fresh as it was made
    by_cases hlater : made' (p.object entry)
    · exact h'.fresh entry he hlater
    · refine (h.fresh entry he (hmade.resolve_right hlater)).congr ?_ (h'.inputs_of_admitted he)
      exact h'.others entry (Plan.mem_admitted_iff.1 he).1 p.flags hlater
  others := fun entry he f hnot => by
    obtain ⟨hnot, hnot'⟩ := not_or.1 hnot
    exact (h'.others entry he f hnot').trans (h.others entry he f hnot)

/-- A stretch in which nothing is made adds nothing. -/
theorem none_trans (h : p.Remade made d d') (h' : p.Remade (fun _ => False) d' d'') : p.Remade made d d'' :=
  (h.trans h').congr fun _ => or_iff_left not_false

end Plan.Remade

/-- Calls make what the successful ones among them make. -/
theorem Calls.remade {Good : Disk → Prop} {makes : Call → Path → Prop} {host : Host} {w w' : World}
    {calls : List Call} (h : Calls host w calls w') (hgood : Good w.disk)
    (hsuccess : ∀ c ∈ calls, ∀ o, makes c o → c.isSuccess = true)
    (hstep : ∀ c ∈ calls, ∀ d o d', Good d → c.result = .ok o → host.run c.command d = .ok (o, d') →
      Good d' ∧ p.Remade (makes c) d d') :
    Good w'.disk ∧ p.Remade (fun o => ∃ c ∈ calls, makes c o) w.disk w'.disk := by
  induction h with
  | nil w => exact ⟨hgood, (Plan.Remade.refl p _).congr (by simp)⟩
  | @cons w v w' c result rest first _ ih =>
    obtain ⟨hsuccess, hsuccess'⟩ := List.forall_mem_cons.1 hsuccess
    obtain ⟨hfirst, hstep⟩ := List.forall_mem_cons.1 hstep
    have hmakes : Good v.disk ∧ p.Remade (makes ⟨c, result⟩) w.disk v.disk := by
      cases result with
      | ok outcome => exact hfirst _ _ _ hgood rfl (World.run_of_start_eq_ok first)
      | error cause =>
        obtain rfl := World.eq_of_start_eq_error first
        refine ⟨hgood, (Plan.Remade.refl p _).congr fun o => ⟨False.elim, fun hmade => ?_⟩⟩
        cases hsuccess o hmade
    obtain ⟨hgood', hrest⟩ := ih hmakes.1 hsuccess' hstep
    exact ⟨hgood', (hmakes.2.trans hrest).congr (by simp)⟩

/-! ## The tasks of a plan -/

namespace Builder

variable {host host' : Host} {b : Builder} {w w' v v' v₁ v₂ : World} {failed : List Path}
  {Good : Disk → Prop} {outcome : Nat → Call} {compiles : List Call}

/-- The tasks are for some of the files that are linked, in the same order. -/
theorem sources_sublist_included (hprepare : (b.prepare host).run w = .ok p v) :
    (p.toCompile.map (·.source)).Sublist p.included := by
  have hsettled := isSettled_of_prepare hprepare
  rw [Plan.toCompile, hsettled.toCompile, Plan.included, hsettled.included]
  generalize p.entries.filter (·.2.admitted p.resolution.flags) = admitted
  induction admitted with
  | nil => exact .slnil
  | cons entry rest ih =>
    rw [List.filterMap_cons, List.map_cons]
    cases htask : p.selector.compileTask? v.disk p.resolution.flags entry with
    | none => exact ih.cons _
    | some t =>
      have hsource : t.source = entry.1 := by
        rw [Selector.compileTask?] at htask
        split at htask
        · cases htask
          exact Selector.task_source _ _
        · cases htask
      rw [List.map_cons, hsource]
      exact ih.cons_cons _

/-- Files with different objects are different. -/
theorem nodup_sources (hprepare : (b.prepare host).run w = .ok p v) (hdistinct : p.objects.Nodup) :
    (p.toCompile.map (·.source)).Nodup :=
  (List.Nodup.of_map _ hdistinct).sublist (sources_sublist_included hprepare)

/-- Compilers that are started with the same words compile the same file. -/
theorem source_eq_of_command_eq {c : Compiler} {f : FlagSet} {t t' : CompileTask}
    (h : c.command f t = c.command f t') : t.source = t'.source := by
  have harguments : t.arguments f = t'.arguments f := congrArg Command.arguments h
  rw [CompileTask.arguments, CompileTask.arguments] at harguments
  simp only [List.append_assoc, List.append_cancel_left_eq, List.cons_append,
    List.cons.injEq] at harguments
  exact congrArg Path.mk harguments.1

/-- A file is reported exactly if the call for its task did not succeed. -/
theorem source_mem_failures_iff (hprepare : (b.prepare host).run w = .ok p v)
    (hdistinct : p.objects.Nodup) {i : Nat} {t : CompileTask} (hi : p.toCompile[i]? = some t) :
    t.source ∈ failures p outcome ↔ (outcome i).isSuccess = false := by
  constructor
  · intro hmem
    obtain ⟨⟨t', j⟩, hpair, hsource⟩ := List.mem_map.1 hmem
    obtain ⟨hplace, hfailed⟩ := List.mem_filter.1 hpair
    rw [List.mk_mem_zipIdx_iff_getElem?] at hplace
    -- each source is at one place of the queue
    have hmap : (p.toCompile.map (·.source))[i]? = (p.toCompile.map (·.source))[j]? := by
      rw [List.getElem?_map, List.getElem?_map, hi, hplace, Option.map_some, Option.map_some, hsource]
    have hlt : i < (p.toCompile.map (·.source)).length := by
      rw [List.length_map]
      exact (List.getElem?_eq_some_iff.1 hi).1
    obtain rfl : i = j := (List.getElem?_inj hlt (nodup_sources hprepare hdistinct)).1 hmap
    simpa using hfailed
  · intro hfailed
    refine List.mem_map.2 ⟨(t, i), List.mem_filter.2 ⟨?_, by simpa using hfailed⟩, rfl⟩
    rwa [List.mk_mem_zipIdx_iff_getElem?]

/-- The tasks of the files that are reported are those that failed, in the same order. -/
theorem sources_filter_failures (hprepare : (b.prepare host).run w = .ok p v)
    (hdistinct : p.objects.Nodup) :
    (p.toCompile.filter (·.source ∈ failures p outcome)).map (·.source) = failures p outcome := by
  have hzip : p.toCompile.filter (·.source ∈ failures p outcome) =
      (p.toCompile.zipIdx.filter fun x => decide (x.1.source ∈ failures p outcome)).map (·.1) := by
    conv_lhs => rw [← List.zipIdx_map_fst 0 p.toCompile, List.filter_map]
    rfl
  have hplaces : (p.toCompile.zipIdx.filter fun x => decide (x.1.source ∈ failures p outcome)) =
      p.toCompile.zipIdx.filter fun x => !(outcome x.2).isSuccess := by
    refine List.filter_congr ?_
    rintro ⟨t, i⟩ hpair
    rw [List.mk_mem_zipIdx_iff_getElem?] at hpair
    simp [source_mem_failures_iff hprepare hdistinct hpair]
  rw [hzip, hplaces, List.map_map]
  rfl

/-! ## The phases of the build -/

/-- The compilers of a plan make the objects of the tasks that do not fail. -/
theorem Compiled.remade (h : Compiled host b p v₁ compiles outcome v₂)
    (hprepare : (b.prepare host).run w = .ok p v)
    (habsolute : b.project.cacheDirectory.isAbsolute = true) (hdistinct : p.objects.Nodup)
    (htidy : Tidy host b p Good) (hgood : Good v₁.disk) :
    ∃ u, (u = v₁ ∨ (v₁.disk.makeDirectories b.project.cacheDirectory).1 = .ok () ∧
        u = v₁.withDirectory b.project.cacheDirectory) ∧
      Good v₂.disk ∧ p.Remade (p.Compiles (failures p outcome)) u.disk v₂.disk := by
  obtain ⟨u, hu, hcalls⟩ := h.calls
  have hgood' : Good u.disk := by
    rcases hu with rfl | ⟨-, rfl⟩
    · exact hgood
    · exact (htidy.directory _ hgood).1
  have hmem : ∀ c, c ∈ compiles ↔ ∃ i, i < p.toCompile.length ∧ outcome i = c := fun c => by
    simp [h.perm.mem_iff]
  -- a successful call makes the object of the one task that has its command
  let makes : Call → Path → Prop := fun c o =>
    c.isSuccess = true ∧ ∃ t ∈ p.toCompile, c.command = (b.compiler p.flags).command p.flags t ∧ o = t.object
  have hunique : ∀ t ∈ p.toCompile, ∀ t' ∈ p.toCompile,
      (b.compiler p.flags).command p.flags t = (b.compiler p.flags).command p.flags t' → t = t' :=
    fun t ht t' ht' heq => List.inj_on_of_nodup_map (nodup_sources hprepare hdistinct) ht ht'
      (source_eq_of_command_eq heq)
  have hstep : ∀ c ∈ compiles, ∀ d o d', Good d → c.result = .ok o → host.run c.command d = .ok (o, d') →
      Good d' ∧ p.Remade (makes c) d d' := by
    intro c hc d o d' hd hresult hrun
    obtain ⟨i, hi, rfl⟩ := (hmem c).1 hc
    have hcommand := h.commands i _ (List.getElem?_eq_getElem hi)
    have hsuccess : (outcome i).isSuccess = o.exit.isSuccess := by rw [Call.isSuccess, hresult]
    obtain ⟨hd', hremade⟩ := htidy.compilers _ (List.getElem_mem hi) d o d' hd (hcommand ▸ hrun)
    refine ⟨hd', hremade.congr fun q => ?_⟩
    rw [join_object_of_mem_toCompile hprepare habsolute (List.getElem_mem hi), ← hsuccess]
    refine and_congr_right fun _ => ⟨fun hq => ⟨_, List.getElem_mem hi, hcommand, hq⟩, ?_⟩
    rintro ⟨t, ht, hcommand', rfl⟩
    rw [hunique t ht _ (List.getElem_mem hi) (hcommand'.symm.trans hcommand)]
  obtain ⟨hgood₂, hremade⟩ := hcalls.remade hgood' (fun _ _ _ hmade => hmade.1) hstep
  refine ⟨u, hu, hgood₂, hremade.congr fun o => ⟨?_, ?_⟩⟩
  · rintro ⟨c, hc, hsuccess, t, ht, hcommand, rfl⟩
    obtain ⟨i, hi, rfl⟩ := (hmem c).1 hc
    have hplace := List.getElem?_eq_getElem hi
    obtain rfl := hunique t ht _ (List.getElem_mem hi) (hcommand.symm.trans (h.commands i _ hplace))
    refine ⟨_, ht, fun hfailed => ?_, rfl⟩
    rw [(source_mem_failures_iff hprepare hdistinct hplace).1 hfailed] at hsuccess
    cases hsuccess
  · rintro ⟨t, ht, hnot, rfl⟩
    obtain ⟨i, hi⟩ := List.getElem?_of_mem ht
    rw [source_mem_failures_iff hprepare hdistinct hi, Bool.not_eq_false] at hnot
    exact ⟨outcome i, (hmem _).2 ⟨i, (List.getElem?_eq_some_iff.1 hi).1, rfl⟩, hnot, t, ht,
      h.commands i t hi, rfl⟩

/-- The build of a plan gets as far as compiling, and reports that these files did not compile. -/
def Reaches (host : Host) (b : Builder) (p : Plan) (w v : World) (failed : List Path) : Prop :=
  (∃ w', (b.run host).run w = .error (.compilation failed) w') ∨
    failed = [] ∧ ∃ reports v', (b.makeObjects host p).run v = .ok reports v'

/-- The phases of a build that gets as far as compiling. -/
theorem Reaches.exists_phases (h : Reaches host b p w v failed)
    (hprepare : (b.prepare host).run w = .ok p v) :
    ∃ tasks v₁ compiles outcome v₂ links, RanTasks host b p v tasks v₁ ∧
      Compiled host b p v₁ compiles outcome v₂ ∧ failures p outcome = failed ∧
      Calls host v₂ links ((b.run host).perform w).2 ∧ ∀ c ∈ links, c.command = b.linkCommand p := by
  rcases h with ⟨w', hrun⟩ | ⟨rfl, reports, v', hmade⟩
  · obtain ⟨t, hends⟩ := exists_ends host b w
    rw [Activity.perform, hrun] at hends ⊢
    cases hends with
    | unprepared error _ _ =>
      rw [hprepare] at error
      cases error
    | stopped _ _ _ _ cause => rcases cause with ⟨_, he, -⟩ | ⟨_, he, -⟩ <;> cases he
    | uncompiled prepared ran compiled _ =>
      cases hprepare.symm.trans prepared.run_eq
      exact ⟨_, _, _, _, _, [], ran, compiled, rfl, .nil _, by simp⟩
    | linked _ _ _ _ _ told => rcases told with ⟨_, hr⟩ | ⟨_, hr⟩ <;> cases hr
  · obtain ⟨queries, hprepared⟩ := exists_prepared hprepare
    rcases makeObjects_cases hprepared with ⟨e, x, t, herror, -⟩ |
      ⟨reports', tasks, v₁, compiles, outcome, v₂, hok, hran, hcompiled, hsucceeded⟩
    · rw [hmade] at herror
      cases herror
    rw [hmade] at hok
    cases hok
    refine ⟨tasks, v₁, compiles, outcome, v', ?_⟩
    rw [Activity.perform, run_eq, Activity.run_bind_of_ok hprepare, Activity.run_bind_of_ok hmade]
    cases hfinish : (b.finish host p reports).run v' with
    | ok r x =>
      obtain ⟨⟨⟩, y, hlink, hlast⟩ := Activity.run_bind_eq_ok_iff.1 hfinish
      cases hlast
      obtain ⟨final, hstart⟩ := Linker.call_of_run_eq_ok hlink
      exact ⟨_, hran, hcompiled, hsucceeded, .singleton hstart, by simp [linkCommand]⟩
    | error e x =>
      rcases Activity.run_bind_eq_error_iff.1 hfinish with hlink | ⟨⟨⟩, y, -, hlast⟩
      · obtain ⟨result, hstart, -⟩ := Linker.call_of_run_eq_error hlink
        exact ⟨_, hran, hcompiled, hsucceeded, .singleton hstart, by simp [linkCommand]⟩
      · cases hlast

end Builder

end VariantBuild
