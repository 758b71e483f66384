import VariantBuild.Proofs.Build.Phases
import VariantBuild.Proofs.Disk.Directories
import VariantBuild.Proofs.ObjectKey.Placement
import VariantBuild.Proofs.Selection.Settled
/-!
# Fresh objects

An object is up to date if it is there and none of its inputs is newer (`Disk.UpToDate`). That is all a
staleness check asks for, but for inputs that are missing (`Staleness.check_of_upToDate`). What compilers have to
promise is `Remakes`: the object is up to date afterwards and inputs are as they were (`Makes`), and so are all
other objects.

The step lemma is that such a compiler makes its own object and spoils no other; by induction on the calls,
whatever was up to date before a queue is compiled is up to date afterwards, and so is whatever was in the
queue, in any order (`Calls.upToDate`).
-/

namespace VariantBuild

/-- The object is there, and no input that exists is newer. -/
def Disk.UpToDate (d : Disk) (ins : List Path) (object : Path) : Prop :=
  ∃ t, d.modified object = .ok t ∧ ∀ q ∈ ins, ∀ u, d.modified q = .ok u → u ≤ t

/-- What a process that makes an object promises of it: no input is touched, and the object is not older than
any input that exists. -/
structure Makes (ins : List Path) (object : Path) (d d' : Disk) : Prop where
  kept : ∀ q ∈ ins, d'.modified q = d.modified q
  made : d'.UpToDate ins object

/-- What such a process leaves if it touches no other object. -/
structure Remakes (ins outs : List Path) (object : Path) (d d' : Disk) : Prop extends
    Makes ins object d d' where
  others : ∀ o ∈ outs, o ≠ object → ∀ t, d.modified o = .ok t → d'.modified o = .ok t

variable {ins outs few : List Path} {o o' source : Path} {dependencies : List Path} {d d' : Disk}

instance : Decidable (d.UpToDate ins o) :=
  decidable_of_iff ((match d.modified o with
    | .ok t => ins.all fun q => match d.modified q with
      | .ok u => decide (u ≤ t)
      | .error _ => true
    | .error _ => false) = true) <| by
    rw [Disk.UpToDate]
    cases d.modified o with
    | error e => simp
    | ok t =>
      simp only [List.all_eq_true, Except.ok.injEq, exists_eq_left']
      refine forall_congr' fun q => forall_congr' fun _ => ?_
      cases d.modified q <;> simp

instance : Decidable (Makes ins o d d') :=
  decidable_of_iff ((∀ q ∈ ins, d'.modified q = d.modified q) ∧ d'.UpToDate ins o)
    ⟨fun h => ⟨h.1, h.2⟩, fun h => ⟨h.kept, h.made⟩⟩

instance : Decidable (Remakes ins outs o d d') :=
  decidable_of_iff (Makes ins o d d' ∧
      ∀ o' ∈ outs, o' ≠ o → ∀ t ∈ (d.modified o').toOption, d'.modified o' = .ok t) <| by
    constructor
    · rintro ⟨hmakes, others⟩
      exact ⟨hmakes, fun o' ho' hne t ht => others o' ho' hne t (by rw [ht]; rfl)⟩
    · rintro ⟨hmakes, others⟩
      refine ⟨hmakes, fun o' ho' hne t ht => others o' ho' hne t ?_⟩
      cases hd : d.modified o' with
      | ok u =>
        rw [hd] at ht
        cases ht
        rfl
      | error e =>
        rw [hd] at ht
        cases ht

/-! ## What a check asks for -/

namespace Staleness

theorem checkDependencies_of_le {objectTime : Time}
    (hle : ∀ q ∈ dependencies, ∀ u, d.modified q = .ok u → u ≤ objectTime)
    (hfound : ∀ q ∈ dependencies, ∀ e, d.modified q = .error e → e = .notFound) :
    checkDependencies d objectTime dependencies = .ok none ∨
      ∃ q ∈ dependencies, d.modified q = .error .notFound ∧
        checkDependencies d objectTime dependencies = .ok (some (.missingDependency q)) := by
  induction dependencies with
  | nil => exact .inl rfl
  | cons q qs ih =>
    obtain ⟨hq, hqs⟩ := List.forall_mem_cons.1 hle
    obtain ⟨hfound, hfounds⟩ := List.forall_mem_cons.1 hfound
    rw [checkDependencies]
    cases hlook : d.modified q with
    | ok u =>
      dsimp only
      rw [if_neg (Int.not_lt.2 (hq u hlook))]
      rcases ih hqs hfounds with hnone | ⟨r, hr, hmissing, hreason⟩
      · exact .inl hnone
      · exact .inr ⟨r, List.mem_cons_of_mem q hr, hmissing, hreason⟩
    | error e =>
      obtain rfl := hfound e hlook
      exact .inr ⟨q, List.mem_cons_self, hlook, rfl⟩

theorem checkDependencies_congr {objectTime : Time}
    (h : ∀ q ∈ dependencies, d'.modified q = d.modified q) :
    checkDependencies d' objectTime dependencies = checkDependencies d objectTime dependencies := by
  induction dependencies with
  | nil => rfl
  | cons q qs ih =>
    obtain ⟨hq, hqs⟩ := List.forall_mem_cons.1 h
    simp only [checkDependencies, hq, ih hqs]

/-- A check looks at nothing but times. -/
theorem check_congr (hobject : d'.modified o = d.modified o)
    (h : ∀ q ∈ source :: dependencies, d'.modified q = d.modified q) :
    check d' source o dependencies = check d source o dependencies := by
  obtain ⟨hsource, hdependencies⟩ := List.forall_mem_cons.1 h
  simp only [check, hobject, hsource, checkDependencies_congr hdependencies]

/-- An object that is up to date is only ever made again for a dependency that does not exist. -/
theorem check_of_upToDate (h : d.UpToDate (source :: dependencies) o)
    (hsource : ∃ t, d.modified source = .ok t)
    (hfound : ∀ q ∈ dependencies, ∀ e, d.modified q = .error e → e = .notFound) :
    check d source o dependencies = .ok none ∨
      ∃ q ∈ dependencies, d.modified q = .error .notFound ∧
        check d source o dependencies = .ok (some (.missingDependency q)) := by
  obtain ⟨t, ht, hle⟩ := h
  obtain ⟨hle, hles⟩ := List.forall_mem_cons.1 hle
  obtain ⟨u, hu⟩ := hsource
  have hcheck : check d source o dependencies = checkDependencies d t dependencies := by
    rw [check, ht]
    dsimp only
    rw [hu]
    dsimp only
    rw [if_neg (Int.not_lt.2 (hle u hu))]
  rw [hcheck]
  exact checkDependencies_of_le hles hfound

/-- Where all dependencies are there, it is never made again. -/
theorem check_eq_none_of_upToDate (h : d.UpToDate (source :: dependencies) o)
    (hsource : ∃ t, d.modified source = .ok t)
    (hfound : ∀ q ∈ dependencies, ∃ t, d.modified q = .ok t) :
    check d source o dependencies = .ok none := by
  have hnone : ∀ q ∈ dependencies, ∀ e, d.modified q ≠ .error e := by
    intro q hq e herror
    obtain ⟨t, ht⟩ := hfound q hq
    rw [herror] at ht
    cases ht
  rcases check_of_upToDate h hsource (fun q hq e herror => absurd herror (hnone q hq e)) with
    hcheck | ⟨q, hq, hmissing, -⟩
  · exact hcheck
  · exact absurd hmissing (hnone q hq _)

theorem le_of_checkDependencies {objectTime : Time}
    (h : checkDependencies d objectTime dependencies = .ok none) :
    ∀ q ∈ dependencies, ∀ u, d.modified q = .ok u → u ≤ objectTime := by
  induction dependencies with
  | nil => simp
  | cons q qs ih =>
    rw [checkDependencies] at h
    split at h
    next t ht =>
      split at h
      next => cases h
      next hle =>
        refine List.forall_mem_cons.2 ⟨fun u hu => ?_, ih h⟩
        rw [ht] at hu
        cases hu
        exact Int.not_lt.1 hle
    next => cases h
    next => cases h

theorem upToDate_of_check (h : check d source o dependencies = .ok none) :
    d.UpToDate (source :: dependencies) o := by
  rw [check] at h
  split at h
  next => cases h
  next => cases h
  next t ht =>
    split at h
    next => cases h
    next u hu =>
      split at h
      next => cases h
      next hle =>
        refine ⟨t, ht, List.forall_mem_cons.2 ⟨fun u' hu' => ?_, le_of_checkDependencies h⟩⟩
        rw [hu] at hu'
        cases hu'
        exact Int.not_lt.1 hle

/-- A check that succeeds has found the object or found it missing. -/
theorem modified_of_check {reason : Option StaleReason} (h : check d source o dependencies = .ok reason) :
    (∃ t, d.modified o = .ok t) ∨ d.modified o = .error .notFound := by
  rw [check] at h
  split at h
  next hmissing => exact .inr hmissing
  next => cases h
  next t ht => exact .inl ⟨t, ht⟩

theorem exists_checkDependencies_eq_ok {objectTime : Time}
    (hfound : ∀ q ∈ dependencies, ∃ t, d.modified q = .ok t) :
    ∃ reason, checkDependencies d objectTime dependencies = .ok reason := by
  induction dependencies with
  | nil => exact ⟨none, rfl⟩
  | cons q qs ih =>
    obtain ⟨⟨t, ht⟩, hqs⟩ := List.forall_mem_cons.1 hfound
    rw [checkDependencies, ht]
    dsimp only
    split
    · exact ⟨_, rfl⟩
    · exact ih hqs

/-- With all inputs there, a check fails only at the object itself. -/
theorem eq_io_of_check {e : BuildError} (hfound : ∀ q ∈ source :: dependencies, ∃ t, d.modified q = .ok t)
    (h : check d source o dependencies = .error e) :
    ∃ cause, cause ≠ .notFound ∧ d.modified o = .error cause ∧ e = .io o cause := by
  obtain ⟨⟨t, ht⟩, hfound⟩ := List.forall_mem_cons.1 hfound
  rw [check] at h
  split at h
  next => cases h
  next cause hne hcause =>
    cases h
    exact ⟨cause, hne, hcause, rfl⟩
  next objectTime _ =>
    rw [ht] at h
    dsimp only at h
    split at h
    · cases h
    · obtain ⟨reason, hreason⟩ : ∃ reason, checkDependencies d objectTime dependencies = .ok reason :=
        exists_checkDependencies_eq_ok hfound
      rw [hreason] at h
      cases h

end Staleness

/-! ## Compiling keeps objects up to date -/

namespace Remakes

theorem upToDate_self (h : Remakes ins outs o d d') (hfew : few ⊆ ins) : d'.UpToDate few o := by
  obtain ⟨t, ht, hle⟩ := h.made
  exact ⟨t, ht, fun q hq => hle q (hfew hq)⟩

/-- Making an object leaves every object up to date that was so before, its own included. -/
theorem upToDate (h : Remakes ins outs o d d') (hfew : few ⊆ ins) (ho' : o' ∈ outs)
    (hd : d.UpToDate few o') : d'.UpToDate few o' := by
  by_cases hsame : o' = o
  · rw [hsame]
    exact h.upToDate_self hfew
  · obtain ⟨t, ht, hle⟩ := hd
    refine ⟨t, h.others o' ho' hsame t ht, fun q hq u hu => hle q hq u ?_⟩
    rwa [← h.kept q (hfew hq)]

end Remakes

/-- A queue of processes that make outs leaves every object up to date that was so before or that is
made by one of them, and the inputs as they were. `I` is whatever the processes need and keep. -/
theorem Calls.upToDate {I : Disk → Prop} {makes : Call → Path → Prop} {host : Host} {w w' : World}
    {calls : List Call} (h : Calls host w calls w') (hinv : I w.disk)
    (hmakes : ∀ c ∈ calls, ∃ o, makes c o)
    (hstep : ∀ c ∈ calls, ∀ v v' : World, I v.disk → v.start host c.command = (c.result, v') →
      I v'.disk ∧ ∀ o, makes c o → Remakes ins outs o v.disk v'.disk) :
    I w'.disk ∧ (∀ q ∈ ins, w'.disk.modified q = w.disk.modified q) ∧
      ∀ o ∈ outs, ∀ few ⊆ ins,
        (w.disk.UpToDate few o ∨ ∃ c ∈ calls, makes c o) → w'.disk.UpToDate few o := by
  -- the first call leaves its own object fresh, and spoils no other; the rest keeps both
  induction h with
  | nil w => exact ⟨hinv, fun _ _ => rfl, fun o _ few _ hor => by simpa using hor⟩
  | @cons w v w' c result rest first _ ih =>
    obtain ⟨⟨own, hown⟩, hmakes⟩ := List.forall_mem_cons.1 hmakes
    obtain ⟨hfirst, hstep⟩ := List.forall_mem_cons.1 hstep
    obtain ⟨hinv, hremakes⟩ := hfirst w v hinv first
    obtain ⟨hinv', hinputs, hrest⟩ := ih hinv hmakes hstep
    refine ⟨hinv', ?_, ?_⟩
    · intro q hq
      rw [hinputs q hq, (hremakes own hown).kept q hq]
    · rintro o ho few hfew (hbefore | ⟨c', hc', hmade⟩)
      · exact hrest o ho few hfew (.inl ((hremakes own hown).upToDate hfew ho hbefore))
      · rcases List.mem_cons.1 hc' with rfl | hc'
        · exact hrest o ho few hfew (.inl ((hremakes o hmade).upToDate_self hfew))
        · exact hrest o ho few hfew (.inr ⟨c', hc', hmade⟩)

/-! ## The objects of a plan -/

/-- What the object of an entry is made from: the source, then the dependencies. -/
def entryInputs (root : Path) (entry : SourceEntry) : List Path :=
  root.join entry.1 :: entry.2.dependencies.map root.join

namespace Plan

/-- The entries of all sets that take part. -/
def entries (p : Plan) : List SourceEntry :=
  ManifestSet.allEntries p.sets

/-- Everything that the object of some entry is made from. -/
def inputs (p : Plan) : List Path :=
  p.entries.flatMap (entryInputs p.selector.root)

/-- The entries that are linked. -/
def admitted (p : Plan) : List SourceEntry :=
  p.entries.filter (·.2.admitted p.flags)

variable {p : Plan} {entry : SourceEntry}

theorem mem_admitted_iff :
    entry ∈ p.admitted ↔ entry ∈ p.entries ∧ entry.2.admitted p.flags = true :=
  List.mem_filter

theorem inputs_subset (h : entry ∈ p.entries) : entryInputs p.selector.root entry ⊆ p.inputs :=
  fun _ hq => List.mem_flatMap.2 ⟨entry, h, hq⟩

end Plan

namespace Builder

variable {host : Host} {b : Builder} {w w' v : World} {p : Plan} {entry : SourceEntry}

theorem isSettled_of_prepare (h : (b.prepare host).run w = .ok p v) :
    p.selector.IsSettled v.disk p.entries (b.variant.initialFlags b.options p.packages)
      p.resolution := by
  obtain ⟨store, -, -, -, hresolve⟩ := run_prepare_eq_ok_iff.1 h
  obtain ⟨added, -, hsettles, hflags, -⟩ := Selector.resolve_eq_ok_iff.1 (resolve_eq_ok_iff.1 hresolve).2
  exact hsettles.isSettled hflags

theorem root_of_prepare (h : (b.prepare host).run w = .ok p v) :
    p.selector.root = b.project.root := by
  obtain ⟨store, -, -, -, hresolve⟩ := run_prepare_eq_ok_iff.1 h
  exact (selector_eq_ok (resolve_eq_ok_iff.1 hresolve).1).1

/-- The objects of a plan are those of the admitted entries, one by one. -/
theorem objects_of_prepare (h : (b.prepare host).run w = .ok p v) :
    p.objects = p.admitted.map fun entry => p.selector.cache.objectPath entry.1 p.flags := by
  rw [Plan.objects, Selector.objectPaths, (isSettled_of_prepare h).included, List.map_map]
  rfl

theorem object_mem_objects (h : (b.prepare host).run w = .ok p v) (he : entry ∈ p.admitted) :
    p.selector.cache.objectPath entry.1 p.flags ∈ p.objects := by
  rw [objects_of_prepare h]
  exact List.mem_map_of_mem he

theorem exists_name_of_mem_objects (h : (b.prepare host).run w = .ok p v) {o : Path}
    (ho : o ∈ p.objects) :
    ∃ name, Path.IsFileName name ∧ o = b.project.cacheDirectory.joinText name := by
  obtain ⟨source, -, rfl⟩ := List.mem_map.1 ho
  rw [← (cache_of_prepare h).2]
  exact p.selector.cache.exists_objectPath_eq source p.flags

/-- Every task of a plan is that of an entry that is linked. -/
theorem exists_eq_task_of_mem_toCompile (h : (b.prepare host).run w = .ok p v) {t : CompileTask}
    (ht : t ∈ p.toCompile) :
    ∃ entry ∈ p.admitted, ∃ reason,
      t = p.selector.task p.flags entry entry.2.rawArguments reason := by
  rw [Plan.toCompile, (isSettled_of_prepare h).toCompile] at ht
  obtain ⟨entry, he, htask⟩ := List.mem_filterMap.1 ht
  refine ⟨entry, he, ?_⟩
  rw [Selector.compileTask?] at htask
  split at htask
  next reason _ =>
    cases htask
    exact ⟨reason, rfl⟩
  next => cases htask

/-- An object in an absolute cache directory is the same seen from anywhere. -/
theorem join_object_of_mem_toCompile (h : (b.prepare host).run w = .ok p v)
    (habsolute : b.project.cacheDirectory.isAbsolute = true) {t : CompileTask} (ht : t ∈ p.toCompile) :
    b.project.root.join t.object = t.object := by
  obtain ⟨entry, he, reason, rfl⟩ := exists_eq_task_of_mem_toCompile h ht
  obtain ⟨name, hname, heq⟩ := exists_name_of_mem_objects h (object_mem_objects h he)
  rw [Selector.task, heq]
  exact Path.join_of_isAbsolute _ (Path.isAbsolute_joinText habsolute hname)

/-- When a plan is settled, the object of an entry that is linked is up to date or about to be made. -/
theorem upToDate_or_toCompile (h : (b.prepare host).run w = .ok p v) (he : entry ∈ p.admitted) :
    v.disk.UpToDate (entryInputs p.selector.root entry) (p.selector.cache.objectPath entry.1 p.flags) ∨
      ∃ t ∈ p.toCompile, t.object = p.selector.cache.objectPath entry.1 p.flags := by
  have hsettled := isSettled_of_prepare h
  obtain ⟨hentry, hadmitted⟩ := Plan.mem_admitted_iff.1 he
  obtain ⟨reason, hreason⟩ := hsettled.queried entry hentry hadmitted
  cases reason with
  | none => exact .inl (Staleness.upToDate_of_check hreason)
  | some reason =>
    refine .inr ⟨p.selector.task p.flags entry entry.2.rawArguments reason, ?_, rfl⟩
    rw [Plan.toCompile, hsettled.toCompile]
    refine List.mem_filterMap.2 ⟨entry, he, ?_⟩
    change p.selector.staleness v.disk p.resolution.flags entry = _ at hreason
    rw [Selector.compileTask?, hreason]
    rfl

end Builder

/-! ## Compiling a plan -/

/-- The cache directory is there if one of the objects is. -/
theorem World.withDirectory_of_modified {w : World} {directory : Path} {name : String} {t : Time}
    (habsolute : directory.isAbsolute = true) (hname : Path.IsFileName name)
    (h : w.disk.modified (directory.joinText name) = .ok t) : w.withDirectory directory = w := by
  rw [withDirectory, Disk.makeDirectories_of_modified habsolute hname h]

namespace Builder

variable {host : Host} {b : Builder} {w v v₁ v₂ : World} {p : Plan}

/-- Once all compilers of a plan have succeeded, the objects that were up to date and those that were to
be made are up to date. `I` is whatever the compilers need and keep. -/
theorem Compiled.upToDate {I : Disk → Prop} {compiles : List Call} {outcome : Nat → Call}
    (h : Compiled host b p v₁ compiles outcome v₂) (hsucceeded : failures p outcome = [])
    (hplan : (b.prepare host).run w = .ok p v)
    (habsolute : b.project.cacheDirectory.isAbsolute = true)
    (hinv : ∀ d ∈ [v₁.disk, (v₁.withDirectory b.project.cacheDirectory).disk], I d)
    (hcompiler : ∀ t ∈ p.toCompile, ∀ d o d', I d →
      host.run ((b.compiler p.flags).command p.flags t) d = .ok (o, d') → o.exit.isSuccess = true →
        I d' ∧ Remakes p.inputs p.objects t.object d d') :
    ∃ u, (u = v₁ ∨ u = v₁.withDirectory b.project.cacheDirectory) ∧ I v₂.disk ∧
      (∀ q ∈ p.inputs, v₂.disk.modified q = u.disk.modified q) ∧
      ∀ o ∈ p.objects, ∀ few ⊆ p.inputs,
        (v₁.disk.UpToDate few o ∨ ∃ t ∈ p.toCompile, t.object = o) → v₂.disk.UpToDate few o := by
  obtain ⟨u, hready, hcalls⟩ := h.calls
  have hu := hready.imp_right And.right
  have hmem : ∀ c, c ∈ compiles ↔ ∃ i, i < p.toCompile.length ∧ outcome i = c := fun c => by
    simp [h.perm.mem_iff]
  -- a call makes the objects of all tasks that have its command
  let makes : Call → Path → Prop := fun c o =>
    ∃ t ∈ p.toCompile, c.command = (b.compiler p.flags).command p.flags t ∧ o = t.object
  have hmakes : ∀ c ∈ compiles, ∃ o, makes c o := by
    intro c hc
    obtain ⟨i, hi, rfl⟩ := (hmem c).1 hc
    exact ⟨_, p.toCompile[i], List.getElem_mem hi,
      h.commands i _ (List.getElem?_eq_getElem hi), rfl⟩
  have hinv' : I u.disk := hinv u.disk <| by
    rcases hu with rfl | rfl <;> simp
  have hstep : ∀ c ∈ compiles, ∀ x x' : World, I x.disk → x.start host c.command = (c.result, x') →
      I x'.disk ∧ ∀ o, makes c o → Remakes p.inputs p.objects o x.disk x'.disk := by
    intro c hc x x' hx hstart
    have hsuccess := h.isSuccess hsucceeded c hc
    rw [Call.isSuccess] at hsuccess
    split at hsuccess
    next final hresult =>
      rw [hresult] at hstart
      have hrun := World.run_of_start_eq_ok hstart
      refine ⟨?_, ?_⟩
      · obtain ⟨_, t, ht, hcommand, -⟩ := hmakes c hc
        exact (hcompiler t ht _ _ _ hx (hcommand ▸ hrun) hsuccess).1
      · rintro o ⟨t, ht, hcommand, rfl⟩
        exact (hcompiler t ht _ _ _ hx (hcommand ▸ hrun) hsuccess).2
    next => cases hsuccess
  obtain ⟨hinv₂, hinputs, hfresh⟩ := hcalls.upToDate hinv' hmakes hstep
  refine ⟨u, hu, hinv₂, hinputs, ?_⟩
  rintro o ho few hfew (hbefore | ⟨t, ht, rfl⟩)
  · -- the directory of an object that is there need not be made
    obtain ⟨name, hname, rfl⟩ := exists_name_of_mem_objects hplan ho
    obtain ⟨time, htime, -⟩ := id hbefore
    have hsame : u = v₁ := by
      rcases hu with rfl | rfl
      · rfl
      · exact World.withDirectory_of_modified habsolute hname htime
    exact hfresh _ ho few hfew (.inl (hsame ▸ hbefore))
  · obtain ⟨i, hi⟩ := List.getElem?_of_mem ht
    have hlt := (List.getElem?_eq_some_iff.1 hi).1
    exact hfresh _ ho few hfew
      (.inr ⟨outcome i, (hmem _).2 ⟨i, hlt, rfl⟩, t, ht, h.commands i t hi, rfl⟩)

end Builder

end VariantBuild
