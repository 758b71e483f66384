import VariantBuild.Proofs.Build.Freshness
/-!
# What is linked

A stale or missing object is never linked. The object paths are derived twice, once when the tasks are
queued and once before the link, but under the same settled flags, so what was compiled is what is linked.
At the moment the final tool is started every object is up to date: it was so when the flags settled, or
its task has succeeded, and no task in between has spoiled it (`run_links_fresh`).

The last point rests on the compilers. It is not enough that each of them makes its own object and changes no
input (`Compliant`): one that removes the object of another file has the final tool started without it. Nor may
the cache directory change what is wrong with a dependency that is missing (`Undisturbed`).
-/

namespace VariantBuild.Builder

/-- What is assumed of a prepared build and of its compilers. -/
structure Compliant (host : Host) (b : Builder) (p : Plan) (v : World) : Prop where
  noTasks : ∀ entry ∈ p.entries, entry.2.tasks = []
  sources : ∀ entry ∈ p.entries, ∃ t, v.disk.modified (b.project.root.join entry.1) = .ok t
  /-- A dependency that cannot be queried does not exist. -/
  dependencies : ∀ entry ∈ p.entries, ∀ q ∈ entry.2.dependencies, ∀ e,
    v.disk.modified (b.project.root.join q) = .error e → e = .notFound
  /-- A compiler that succeeds has made its `-o` file, seen from where it runs, and changed no input. -/
  compiler : ∀ t ∈ p.toCompile, ∀ d o d',
    host.run ((b.compiler p.flags).command p.flags t) d = .ok (o, d') → o.exit.isSuccess = true →
      Makes p.inputs (b.project.root.join t.object) d d'

/-- What is assumed besides: nothing is disturbed from the side. -/
structure Undisturbed (host : Host) (b : Builder) (p : Plan) (v : World) : Prop where
  /-- Once the cache directory is made, a dependency that cannot be queried does not exist either. -/
  dependencies : ∀ entry ∈ p.entries, ∀ q ∈ entry.2.dependencies, ∀ e,
    (v.withDirectory b.project.cacheDirectory).disk.modified (b.project.root.join q) = .error e →
      e = .notFound
  /-- A compiler that succeeds leaves all other objects of the plan as they are. -/
  objects : ∀ t ∈ p.toCompile, ∀ d o d',
    host.run ((b.compiler p.flags).command p.flags t) d = .ok (o, d') → o.exit.isSuccess = true →
      ∀ other ∈ p.objects, other ≠ b.project.root.join t.object →
        ∀ u, d.modified other = .ok u → d'.modified other = .ok u

/-- The object of an entry is there and fresh, or would be made again only for a dependency that does not
exist. -/
def Current (b : Builder) (p : Plan) (d : Disk) (entry : SourceEntry) : Prop :=
  (∃ t, d.modified (p.selector.cache.objectPath entry.1 p.flags) = .ok t) ∧
  (p.selector.staleness d p.flags entry = .ok none ∨
    ∃ q ∈ entry.2.dependencies, p.selector.staleness d p.flags entry =
      .ok (some (.missingDependency (b.project.root.join q))))

/-- From one world to another nothing but the final command is started. It is handed the objects of a plan, which
are all up to date. -/
structure LinksFresh (host : Host) (b : Builder) (p : Plan) (c : Command) (v w : World) : Prop where
  started : ∃ result, Calls host v [⟨c, result⟩] w
  program : c.program = b.linker.tool
  directory : c.directory = b.project.root
  /-- The files that are linked are the admitted entries, in declared order and as often as declared. -/
  included : p.included = p.admitted.map (·.1)
  /-- A linker gets the objects of these files under the settled flags between output and end flags. -/
  linked : b.linker.mode = .link → c.arguments =
    Text.wordsOfAll p.flags.tokens ++ ["-o", (b.variant.outputPath b.options).text] ++
      p.included.map (fun source => (p.selector.cache.objectPath source p.flags).text) ++
      Text.wordsOfAll (b.variant.finalFlags b.options p.packages)
  /-- An archiver gets them behind the output. -/
  archived : b.linker.mode = .archive → c.arguments =
    ["rcs", (b.variant.outputPath b.options).text] ++
      p.included.map fun source => (p.selector.cache.objectPath source p.flags).text
  /-- Every task wrote to the object that is linked for its source. -/
  compiled : ∀ t ∈ p.toCompile, t.source ∈ p.included ∧
    ["-c", "-o", (p.selector.cache.objectPath t.source p.flags).text] <:+:
      ((b.compiler p.flags).command p.flags t).arguments
  fresh : ∀ entry ∈ p.admitted, Current b p v.disk entry

variable {host : Host} {b : Builder} {w v v' : World} {p : Plan}

/-- Pre-build commands that are not there change nothing. -/
theorem RanTasks.eq_of_noTasks {tasks : List Call} {v₁ : World} (h : RanTasks host b p v tasks v₁)
    (hnone : ∀ t ∈ p.toCompile, t.preBuild = []) : v₁ = v := by
  have hcommands : TaskRunner.commands p.toCompile = [] :=
    List.flatMap_eq_nil_iff.2 fun t ht => by rw [hnone t ht, List.map_nil]
  have htasks : tasks = [] := by
    have hshells := h.commands
    rw [hcommands] at hshells
    exact List.map_eq_nil_iff.1 hshells
  have hcalls := h.calls
  rw [htasks] at hcalls
  cases hcalls
  rfl

/-- The objects of a plan are up to date once they are made, and every input is as it was, but for the
cache directory. -/
theorem upToDate_of_makeObjects (hprepare : (b.prepare host).run w = .ok p v)
    (hmade : ∃ reports, (b.makeObjects host p).run v = .ok reports v')
    (habsolute : b.project.cacheDirectory.isAbsolute = true) (h : Compliant host b p v)
    (hundisturbed : Undisturbed host b p v) :
    ∃ u, (u = v ∨ u = v.withDirectory b.project.cacheDirectory) ∧
      (∀ q ∈ p.inputs, v'.disk.modified q = u.disk.modified q) ∧
      ∀ entry ∈ p.admitted, v'.disk.UpToDate (entryInputs p.selector.root entry)
        (p.selector.cache.objectPath entry.1 p.flags) := by
  obtain ⟨queries, hprepared⟩ := exists_prepared hprepare
  obtain ⟨reports, hmade⟩ := hmade
  rcases makeObjects_cases hprepared with ⟨e, v₁, t, herror, -⟩ |
    ⟨reports', tasks, v₁, compiles, outcome, v₂, hok, hran, hcompiled, hsucceeded⟩
  · rw [hmade] at herror
    cases herror
  rw [hmade] at hok
  cases hok
  have hnone : ∀ t ∈ p.toCompile, t.preBuild = [] := by
    intro t ht
    obtain ⟨entry, he, reason, rfl⟩ := exists_eq_task_of_mem_toCompile hprepare ht
    exact h.noTasks entry (Plan.mem_admitted_iff.1 he).1
  obtain rfl := hran.eq_of_noTasks hnone
  obtain ⟨u, hu, -, hinputs, hfresh⟩ := hcompiled.upToDate (I := fun _ => True) hsucceeded hprepare
    habsolute (fun _ _ => trivial) <| by
      intro t ht d o d' _ hrun hsuccess
      have hremakes : Remakes p.inputs p.objects (b.project.root.join t.object) d d' :=
        ⟨h.compiler t ht d o d' hrun hsuccess, hundisturbed.objects t ht d o d' hrun hsuccess⟩
      rw [join_object_of_mem_toCompile hprepare habsolute ht] at hremakes
      exact ⟨trivial, hremakes⟩
  refine ⟨u, hu, hinputs, fun entry he => ?_⟩
  exact hfresh _ (object_mem_objects hprepare he) _ (Plan.inputs_subset (Plan.mem_admitted_iff.1 he).1)
    (upToDate_or_toCompile hprepare he)

theorem current_of_makeObjects (hprepare : (b.prepare host).run w = .ok p v)
    (hmade : ∃ reports, (b.makeObjects host p).run v = .ok reports v')
    (habsolute : b.project.cacheDirectory.isAbsolute = true) (h : Compliant host b p v)
    (hundisturbed : Undisturbed host b p v) {entry : SourceEntry} (he : entry ∈ p.admitted) :
    Current b p v'.disk entry := by
  obtain ⟨u, hu, hinputs, hfresh⟩ := upToDate_of_makeObjects hprepare hmade habsolute h hundisturbed
  have hentry := (Plan.mem_admitted_iff.1 he).1
  have hroot := root_of_prepare hprepare
  have hmem : ∀ q ∈ entryInputs p.selector.root entry, v'.disk.modified q = u.disk.modified q :=
    fun q hq => hinputs q (Plan.inputs_subset hentry hq)
  have hupToDate := hfresh entry he
  -- the cache directory hides no source and gives no dependency another fault than to be missing
  have hsource : ∃ t, v'.disk.modified (p.selector.root.join entry.1) = .ok t := by
    obtain ⟨t, ht⟩ := h.sources entry hentry
    rw [hmem _ List.mem_cons_self, hroot]
    rcases hu with rfl | rfl
    · exact ⟨t, ht⟩
    · obtain ⟨t', ht', -⟩ := (Disk.grows_makeDirectories _ _).modified_eq ht
      exact ⟨t', ht'⟩
  have hfound : ∀ q ∈ entry.2.dependencies.map p.selector.root.join, ∀ e,
      v'.disk.modified q = .error e → e = .notFound := by
    intro q hq e herror
    rw [hmem q (List.mem_cons_of_mem _ hq)] at herror
    obtain ⟨dependency, hdependency, rfl⟩ := List.mem_map.1 hq
    rw [hroot] at herror
    rcases hu with rfl | rfl
    · exact h.dependencies entry hentry dependency hdependency e herror
    · exact hundisturbed.dependencies entry hentry dependency hdependency e herror
  refine ⟨?_, ?_⟩
  · obtain ⟨t, ht, -⟩ := hupToDate
    exact ⟨t, ht⟩
  · rcases Staleness.check_of_upToDate hupToDate hsource hfound with hnone | ⟨q, hq, -, hmissing⟩
    · exact .inl hnone
    · obtain ⟨dependency, hdependency, rfl⟩ := List.mem_map.1 hq
      exact .inr ⟨dependency, hdependency, hroot ▸ hmissing⟩

/-- A stale or missing object is never linked: a build stops before it calls the final tool, or it hands exactly
the objects of the included files to the final tool, at a moment when each of them is there and fresh, or
has only a missing dependency against it. -/
theorem run_links_fresh (host : Host) (b : Builder) (w : World)
    (habsolute : b.project.cacheDirectory.isAbsolute = true)
    (hcompliant : ∀ p v, (b.prepare host).run w = .ok p v → Compliant host b p v ∧ Undisturbed host b p v) :
    (∃ e w' t, (b.run host).run w = .error e w' ∧ Leads host b w t w' ∧ t.links = []) ∨
    ∃ p v reports v' c, (b.prepare host).run w = .ok p v ∧
      (b.makeObjects host p).run v = .ok reports v' ∧
      (b.run host).run w = (b.finish host p reports).run v' ∧
      LinksFresh host b p c v' ((b.run host).perform w).2 := by
  rcases run_cases host b w with ⟨e, w', hprepare, hrun⟩ |
    ⟨p, v, hprepare, ⟨e, w', hmade, hrun⟩ | ⟨reports, v', hmade, hrun⟩⟩
  · obtain ⟨t, hends, hlinks⟩ := exists_ends_of_prepare_eq_error hprepare
    exact .inl ⟨e, w', t, hrun, hends.leads, hlinks⟩
  · obtain ⟨queries, hprepared⟩ := exists_prepared hprepare
    rcases makeObjects_cases hprepared with
      ⟨e', v', t, hmade', hends, hlinks⟩ | ⟨_, _, _, _, _, _, hmade', -⟩
    · cases hmade.symm.trans hmade'
      exact .inl ⟨e, w', t, hrun, hends.leads, hlinks⟩
    · cases hmade.symm.trans hmade'
  · refine .inr ⟨p, v, reports, v', b.linkCommand p, hprepare, hmade, hrun, ?_⟩
    have hobjects : p.objects.map (·.text) =
        p.included.map fun source => (p.selector.cache.objectPath source p.flags).text := by
      rw [Plan.objects, Selector.objectPaths, List.map_map]
      rfl
    have harguments : (b.linkCommand p).arguments = b.linker.arguments p.flags
        (b.variant.finalFlags b.options p.packages) p.objects (b.variant.outputPath b.options) := rfl
    obtain ⟨hcompliant, hundisturbed⟩ := hcompliant p v hprepare
    exact {
      started := by
        rw [Activity.perform, hrun]
        exact calls_of_finish host b p reports v'
      program := rfl
      directory := rfl
      included := (isSettled_of_prepare hprepare).included
      linked := fun hmode => by simp only [harguments, Linker.arguments, hmode, hobjects]
      archived := fun hmode => by simp only [harguments, Linker.arguments, hmode, hobjects]
      compiled := fun t ht => by
        obtain ⟨entry, he, reason, rfl⟩ := exists_eq_task_of_mem_toCompile hprepare ht
        refine ⟨?_, ⟨_, _, rfl⟩⟩
        rw [Plan.included, (isSettled_of_prepare hprepare).included]
        exact List.mem_map_of_mem he
      fresh := fun entry he =>
        current_of_makeObjects hprepare ⟨reports, hmade⟩ habsolute hcompliant hundisturbed he }

/-! ## A small project -/

/-- Whether a plan is made that passes a check. -/
def plans (x : EStateM.Result BuildError World Plan) (check : Plan → Bool) : Bool :=
  match x with
  | .ok p _ => check p
  | .error _ _ => false

theorem exists_of_plans {x : EStateM.Result BuildError World Plan} {check : Plan → Bool}
    (h : plans x check = true) : ∃ p v, x = .ok p v ∧ check p = true := by
  cases x with
  | ok p v => exact ⟨p, v, rfl, h⟩
  | error e v => cases h

namespace Sample

/-- A native build of a project at `/p`. -/
def builder : Builder :=
  ⟨.new ⟨"/p"⟩, .plain "native", .default⟩

/-- `a.c` depends on a header that is there and on one that is not. -/
def manifestText : String :=
  "\x7b\"a.c\": \x7b\"dependencies\": [\"a.h\", \"gone.h\"]\x7d, \"b.c\": \x7b\x7d\x7d"

/-- The object of `a.c` is older than its source, that of `b.c` is not. -/
def before : Disk :=
  ⟨[([], .directory 0), (["p"], .directory 0), (["p", "build"], .directory 0),
    (["p", "build", "files.json"], .file "[\"core\"]".toUTF8 1),
    (["p", "build", "core-files.json"], .file manifestText.toUTF8 1),
    (["p", "a.h"], .file .empty 3), (["p", "a.c"], .file .empty 5), (["p", "b.c"], .file .empty 5),
    (["p", "build", "objs"], .directory 4),
    (["p", "build", "objs", "16g4etw-a-r0nri5xinhtv.o"], .file .empty 4),
    (["p", "build", "objs", "16g4etw-b-r0nri5xinhtv.o"], .file .empty 7)], [], 9⟩

/-- The object of `a.c` has been made. -/
def after : Disk :=
  before.set ["p", "build", "objs", "16g4etw-a-r0nri5xinhtv.o"] (.file .empty 9)

/-- A compiler that meets one disk and leaves another, and fails on all others, and a final tool that writes the
output. -/
def tools (met left : Disk) : Host where
  run c d :=
    if "-c" ∈ c.arguments then
      if d.nodes = met.nodes ∧ d.here = met.here ∧ d.clock = met.clock then
        .ok (⟨.code 0, [], []⟩, left)
      else .ok (⟨.code 1, [], []⟩, d)
    else .ok (⟨.code 0, [], []⟩, d.set ["p", "halfix"] (.file .empty d.clock))
  order _ n := List.range n
  order_perm := Host.perm_queue

/-- The entries of the sample. -/
def entries : List SourceEntry :=
  [(⟨"a.c"⟩, ⟨[⟨"a.h"⟩, ⟨"gone.h"⟩], [], [], []⟩), (⟨"b.c"⟩, ⟨[], [], [], []⟩)]

/-- The object that is made. -/
def made : Path :=
  ⟨"/p/build/objs/16g4etw-a-r0nri5xinhtv.o"⟩

/-- The object that is there. -/
def kept : Path :=
  ⟨"/p/build/objs/16g4etw-b-r0nri5xinhtv.o"⟩

/-- The files that the objects of the sample are made from. -/
def inputs : List Path :=
  [⟨"/p/a.c"⟩, ⟨"/p/a.h"⟩, ⟨"/p/gone.h"⟩, ⟨"/p/b.c"⟩]

/-- What is settled: all entries are linked, and one object has to be made. -/
def Expected (es : List SourceEntry) (outs ins : List Path) (p : Plan) : Prop :=
  p.entries = es ∧ p.included = es.map (·.1) ∧ p.toCompile.map (·.object) = [made] ∧ p.objects = outs ∧
    p.inputs = ins

instance (es : List SourceEntry) (outs ins : List Path) (p : Plan) : Decidable (Expected es outs ins p) :=
  inferInstanceAs (Decidable (_ ∧ _))

/-- Sources are there, and so are all dependencies but those that do not exist. -/
def Found (es : List SourceEntry) (d : Disk) : Prop :=
  ∀ entry ∈ es, d.modified (builder.project.root.join entry.1) = .ok 5 ∧
    ∀ q ∈ entry.2.dependencies, d.modified (builder.project.root.join q) = .ok 3 ∨
      d.modified (builder.project.root.join q) = .error .notFound

instance (es : List SourceEntry) (d : Disk) : Decidable (Found es d) :=
  inferInstanceAs (Decidable (∀ _ ∈ _, _))

variable {es : List SourceEntry} {outs ins : List Path} {host : Host} {met left d d' : Disk} {p : Plan} {v : World}

theorem Found.eq_notFound (h : Found es d) {entry : SourceEntry} (he : entry ∈ es) {q : Path}
    (hq : q ∈ entry.2.dependencies) {e : SystemError}
    (herror : d.modified (builder.project.root.join q) = .error e) : e = .notFound := by
  rcases (h entry he).2 q hq with hok | hmissing
  · rw [hok] at herror
    cases herror
  · rw [hmissing] at herror
    exact (Except.error.inj herror).symm

/-- A compiler of the sample makes nothing of a disk that it does not know. -/
theorem tools_cases {f : FlagSet} {t : CompileTask} {o : Outcome}
    (h : (tools met left).run ((builder.compiler f).command f t) d = .ok (o, d')) :
    (o.exit.isSuccess = true ∧ d = met ∧ d' = left) ∨ (o.exit.isSuccess = false ∧ d' = d) := by
  have hflag : "-c" ∈ ((builder.compiler f).command f t).arguments := by
    simp [Compiler.command, CompileTask.arguments]
  simp only [tools, if_pos hflag] at h
  split at h
  next hsame =>
    cases h
    obtain ⟨nodes, here, clock⟩ := d
    obtain ⟨rfl, rfl, rfl⟩ := hsame
    exact .inl ⟨rfl, rfl, rfl⟩
  next =>
    cases h
    exact .inr ⟨rfl, rfl⟩

theorem object_eq_of_mem_toCompile (h : Expected es outs ins p) {t : CompileTask}
    (ht : t ∈ p.toCompile) : t.object = made := by
  have hmem := List.mem_map_of_mem (f := CompileTask.object) ht
  rw [h.2.2.1] at hmem
  exact List.mem_singleton.1 hmem

theorem compliant (h : Expected es outs ins p) (hnone : ∀ entry ∈ es, entry.2.tasks = [])
    (hfound : Found es d) (hmakes : Makes ins made met left) :
    Compliant (tools met left) builder p (.ofDisk d) where
  noTasks := h.1 ▸ hnone
  sources := h.1 ▸ fun entry he => ⟨5, (hfound entry he).1⟩
  dependencies := h.1 ▸ fun _ he _ hq _ => hfound.eq_notFound he hq
  compiler := fun t ht d o d' hrun hsuccess => by
    rcases tools_cases hrun with ⟨-, rfl, rfl⟩ | ⟨hfailed, -⟩
    · rw [object_eq_of_mem_toCompile h ht, h.2.2.2.2]
      exact hmakes
    · rw [hsuccess] at hfailed
      cases hfailed

theorem undisturbed (h : Expected es outs ins p) (hfound : Found es (d.makeDirectories ⟨"/p/build/objs"⟩).2)
    (hmakes : Remakes ins outs made met left) : Undisturbed (tools met left) builder p (.ofDisk d) where
  dependencies := h.1 ▸ fun _ he _ hq _ => hfound.eq_notFound he hq
  objects := fun t ht d o d' hrun hsuccess other hother hne u hu => by
    have hobject : builder.project.root.join t.object = made := by
      rw [object_eq_of_mem_toCompile h ht]
      rfl
    rcases tools_cases hrun with ⟨-, rfl, rfl⟩ | ⟨hfailed, -⟩
    · rw [h.2.2.2.1] at hother
      rw [hobject] at hne
      exact hmakes.others other hother hne u hu
    · rw [hsuccess] at hfailed
      cases hfailed

/-- What is settled depends on no tool. -/
theorem prepare_eq (host host' : Host) : builder.prepare host = builder.prepare host' := rfl

theorem expected_of_prepare (h : (builder.prepare host).run (.ofDisk before) = .ok p v) :
    Expected entries [made, kept] inputs p ∧ v = .ofDisk before := by
  have hplans : plans ((builder.prepare (tools before after)).run (.ofDisk before))
      (decide <| Expected entries [made, kept] inputs ·) = true := by decide +kernel
  rw [prepare_eq _ host, h] at hplans
  exact ⟨of_decide_eq_true hplans, (eq_of_prepare rfl h).2⟩

/-- The sample compiles `a.c` only, and links two objects of which the first misses a header. -/
theorem sample_links_fresh :
    builder.project.cacheDirectory.isAbsolute = true ∧
    (∀ p v, (builder.prepare (tools before after)).run (.ofDisk before) = .ok p v →
      Compliant (tools before after) builder p v ∧ Undisturbed (tools before after) builder p v) ∧
    ∃ p v reports v' c w, (builder.prepare (tools before after)).run (.ofDisk before) = .ok p v ∧
      Expected entries [made, kept] inputs p ∧
      (builder.makeObjects (tools before after) p).run v = .ok reports v' ∧
      LinksFresh (tools before after) builder p c v' w := by
  have habsolute : builder.project.cacheDirectory.isAbsolute = true := by decide +kernel
  have hcompliant : ∀ p v, (builder.prepare (tools before after)).run (.ofDisk before) = .ok p v →
      Compliant (tools before after) builder p v ∧ Undisturbed (tools before after) builder p v := by
    intro p v hprepare
    obtain ⟨hexpected, rfl⟩ := expected_of_prepare hprepare
    have hmakes : Remakes inputs [made, kept] made before after := by decide +kernel
    exact ⟨compliant hexpected (by decide) (by decide +kernel) hmakes.toMakes,
      undisturbed hexpected (by decide +kernel) hmakes⟩
  refine ⟨habsolute, hcompliant, ?_⟩
  have hruns : (match (builder.run (tools before after)).run (.ofDisk before) with
      | .ok _ _ => true
      | .error _ _ => false) = true := by decide +kernel
  rcases run_links_fresh (tools before after) builder (.ofDisk before) habsolute hcompliant with
    ⟨e, w', t, hrun, -⟩ | ⟨p, v, reports, v', c, hprepare, hmade, -, hfresh⟩
  · rw [hrun] at hruns
    cases hruns
  · exact ⟨p, v, reports, v', c, _, hprepare, (expected_of_prepare hprepare).1, hmade, hfresh⟩

/-! ### What else can go wrong -/

/-- All is as assumed of a build and its compilers, and yet the final tool is started when the object of an entry
has to be made again. -/
structure LinksStale (host : Host) (b : Builder) (d : Disk) (p : Plan) (v : World) (entry : SourceEntry) :
    Prop where
  absolute : b.project.root.isAbsolute = true ∧ b.project.cacheDirectory.isAbsolute = true
  prepared : (b.prepare host).run (.ofDisk d) = .ok p (.ofDisk d)
  compliant : Compliant host b p (.ofDisk d)
  /-- A compiler that fails changes nothing. -/
  failing : ∀ t ∈ p.toCompile, ∀ d o d', host.run ((b.compiler p.flags).command p.flags t) d = .ok (o, d') →
    o.exit.isSuccess = false → d' = d
  made : ∃ reports, (b.makeObjects host p).run (.ofDisk d) = .ok reports v
  started : ∃ outcome, Calls host v [⟨b.linkCommand p, .ok outcome⟩] ((b.run host).perform (.ofDisk d)).2
  linked : entry ∈ p.admitted
  stale : ¬ Current b p v.disk entry

/-- Whether a build succeeds whose final tool is started on a disk that passes a check. -/
def links (host : Host) (b : Builder) (d : Disk) (check : Plan → Disk → Bool) : Bool :=
  match (b.prepare host).run (.ofDisk d) with
  | .ok p v =>
    match (b.makeObjects host p).run v with
    | .ok reports v' =>
      match (b.finish host p reports).run v' with
      | .ok _ _ => check p v'.disk
      | .error _ _ => false
    | .error _ _ => false
  | .error _ _ => false

theorem exists_of_links {b : Builder} {check : Plan → Disk → Bool} (h : links host b d check = true) :
    ∃ p v reports v', (b.prepare host).run (.ofDisk d) = .ok p v ∧
      (b.makeObjects host p).run v = .ok reports v' ∧
      (∃ outcome, Calls host v' [⟨b.linkCommand p, .ok outcome⟩] ((b.run host).perform (.ofDisk d)).2) ∧
      check p v'.disk = true := by
  unfold links at h
  split at h
  next p v hprepare =>
    split at h
    next reports v' hmade =>
      split at h
      next r w hfinish =>
        refine ⟨p, v, reports, v', hprepare, hmade, ?_, h⟩
        obtain ⟨⟨⟩, x, hlink, hlast⟩ := Activity.run_bind_eq_ok_iff.1 hfinish
        cases hlast
        obtain ⟨outcome, hstart⟩ := Linker.call_of_run_eq_ok hlink
        rw [run_eq, Activity.perform, Activity.run_bind_of_ok hprepare, Activity.run_bind_of_ok hmade, hfinish]
        exact ⟨outcome, .singleton hstart⟩
      next => cases h
    next => cases h
  next => cases h

/-- A build with the tools of the sample, of which no more is assumed than `Compliant` says. -/
theorem exists_linksStale {check : Plan → Disk → Bool}
    (hlinks : links (tools met left) builder d (fun p x => Expected es outs ins p ∧ check p x) = true)
    (hnone : ∀ entry ∈ es, entry.2.tasks = []) (hfound : Found es d) (hmakes : Makes ins made met left) :
    ∃ p v, (builder.prepare (tools met left)).run (.ofDisk d) = .ok p (.ofDisk d) ∧ Expected es outs ins p ∧
      check p v.disk = true ∧ ∀ entry ∈ p.admitted, ¬ Current builder p v.disk entry →
        LinksStale (tools met left) builder d p v entry := by
  obtain ⟨p, v, reports, v', hprepare, hmade, hstarted, hcheck⟩ := exists_of_links hlinks
  obtain ⟨hexpected, hcheck⟩ := of_decide_eq_true hcheck
  obtain ⟨-, rfl⟩ := eq_of_prepare rfl hprepare
  refine ⟨p, v', hprepare, hexpected, hcheck, fun entry he hstale => ?_⟩
  refine ⟨⟨rfl, rfl⟩, hprepare, compliant hexpected hnone hfound hmakes, fun t _ d o d' hrun hfailed => ?_,
    ⟨reports, hmade⟩, hstarted, he, hstale⟩
  rcases tools_cases hrun with ⟨hsuccess, -⟩ | ⟨-, hsame⟩
  · rw [hsuccess] at hfailed
    cases hfailed
  · exact hsame

/-- The object of `a.c` has been made, and that of `b.c` is gone. -/
def spoiled : Disk :=
  after.erase ["p", "build", "objs", "16g4etw-b-r0nri5xinhtv.o"]

/-- A compiler that removes the object of another file has it linked all the same. -/
theorem exists_links_missing : ∃ p v entry, LinksStale (tools before spoiled) builder before p v entry ∧
    v.disk.modified (p.selector.cache.objectPath entry.1 p.flags) = .error .notFound := by
  have hlinks : links (tools before spoiled) builder before (fun p d => Expected entries [made, kept] inputs p ∧
      decide (d.modified kept = .error .notFound)) = true := by decide +kernel
  obtain ⟨p, v, hprepare, hexpected, hcheck, hstale⟩ :=
    exists_linksStale hlinks (by decide) (by decide +kernel) (by decide +kernel)
  have hmissing : v.disk.modified kept = .error .notFound := of_decide_eq_true hcheck
  have hkept : kept ∈ p.objects := by
    rw [hexpected.2.2.2.1]
    decide
  rw [objects_of_prepare hprepare] at hkept
  obtain ⟨entry, he, hobject⟩ := List.mem_map.1 hkept
  rw [← hobject] at hmissing
  refine ⟨p, v, entry, hstale entry he ?_, hmissing⟩
  rintro ⟨⟨t, ht⟩, -⟩
  rw [hmissing] at ht
  cases ht

/-- An entry with a dependency in a place that is no directory, on a way through the cache directory. -/
def misplaced : SourceEntry :=
  (⟨"a.c"⟩, ⟨[⟨"build/objs/../../a.c/x"⟩], [], [], []⟩)

/-- Nothing has been built, and there is no cache directory. -/
def unbuilt : Disk :=
  ⟨[([], .directory 0), (["p"], .directory 0), (["p", "build"], .directory 0),
    (["p", "build", "files.json"], .file "[\"core\"]".toUTF8 1),
    (["p", "build", "core-files.json"],
      .file "\x7b\"a.c\": \x7b\"dependencies\": [\"build/objs/../../a.c/x\"]\x7d\x7d".toUTF8 1),
    (["p", "a.c"], .file .empty 5)], [], 9⟩

/-- The cache directory has been made. -/
def ready : Disk :=
  (unbuilt.makeDirectories ⟨"/p/build/objs"⟩).2

/-- The object has been made. -/
def built : Disk :=
  ready.set ["p", "build", "objs", "16g4etw-a-r0nri5xinhtv.o"] (.file .empty 9)

/-- What is wrong with a dependency may show only when the cache directory is made. -/
theorem exists_links_unqueried : ∃ p v entry, LinksStale (tools ready built) builder unbuilt p v entry ∧
    p.selector.staleness v.disk p.flags entry =
      .error (.io ⟨"/p/build/objs/../../a.c/x"⟩ .notDirectory) := by
  have hlinks : links (tools ready built) builder unbuilt (fun p d =>
      Expected [misplaced] [made] [⟨"/p/a.c"⟩, ⟨"/p/build/objs/../../a.c/x"⟩] p ∧
        decide (misplaced ∈ p.admitted ∧ p.selector.staleness d p.flags misplaced =
          .error (.io ⟨"/p/build/objs/../../a.c/x"⟩ .notDirectory))) = true := by decide +kernel
  obtain ⟨p, v, -, -, hcheck, hstale⟩ :=
    exists_linksStale hlinks (by decide) (by decide +kernel) (by decide +kernel)
  have hfault : misplaced ∈ p.admitted ∧ p.selector.staleness v.disk p.flags misplaced =
      .error (.io ⟨"/p/build/objs/../../a.c/x"⟩ .notDirectory) := of_decide_eq_true hcheck
  obtain ⟨hadmitted, herror⟩ := hfault
  refine ⟨p, v, misplaced, hstale misplaced hadmitted ?_, herror⟩
  rintro ⟨-, hfresh | ⟨q, -, hmissing⟩⟩
  · rw [herror] at hfresh
    cases hfresh
  · rw [herror] at hmissing
    cases hmissing

/-- Neither half of what is assumed besides can be left out. -/
theorem sample_links_stale :
    (∃ p v entry, LinksStale (tools before spoiled) builder before p v entry ∧
      v.disk.modified (p.selector.cache.objectPath entry.1 p.flags) = .error .notFound) ∧
    ∃ p v entry, LinksStale (tools ready built) builder unbuilt p v entry ∧
      p.selector.staleness v.disk p.flags entry =
        .error (.io ⟨"/p/build/objs/../../a.c/x"⟩ .notDirectory) :=
  ⟨exists_links_missing, exists_links_unqueried⟩

end Sample

end VariantBuild.Builder
