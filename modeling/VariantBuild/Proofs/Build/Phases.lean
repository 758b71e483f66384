import VariantBuild.Proofs.Build.Plan
/-!
# The phases of a build

A build has four phases in which it starts commands: package queries, pre-build commands, compilers, and
the final tool. Each starts only when all before it have succeeded, and between them the build changes
nothing but the cache directory, which it makes when there is something to compile.

`Ends` lists the ways in which a build can end, with all calls that it made until then; every build ends in
one of them (`exists_ends`). `Phased` is what that means for the order of the commands and for each
result, and `run_phases` says that it holds of every build.
-/

namespace VariantBuild

/-- The calls of a build, phase by phase. -/
structure Trace where
  queries : List Call
  tasks : List Call
  compiles : List Call
  links : List Call

/-- All calls of a build, in order. -/
def Trace.calls (t : Trace) : List Call :=
  t.queries ++ t.tasks ++ t.compiles ++ t.links

/-- The world once a directory and all that lead to it are made, as far as that goes. -/
def World.withDirectory (w : World) (p : Path) : World :=
  { w with disk := (w.disk.makeDirectories p).2 }

namespace Builder

/-! ## Parts of a build -/

/-- The build was prepared, by these queries. -/
structure Prepared (host : Host) (b : Builder) (w : World) (p : Plan) (queries : List Call)
    (w' : World) : Prop where
  run_eq : (b.prepare host).run w = .ok p w'
  calls : Calls host w queries w'
  commands : queries.map (·.command) = PackageFlags.commands b.variant.packages

/-- All pre-build commands were run, and succeeded if a failing one is an error. -/
structure RanTasks (host : Host) (b : Builder) (p : Plan) (w : World) (tasks : List Call)
    (w' : World) : Prop where
  calls : Calls host w tasks w'
  commands : tasks.map (·.command) =
    (b.taskRunner p.flags).shells (TaskRunner.commands p.toCompile)
  fine : ∀ c ∈ tasks, ∃ outcome, c.result = .ok outcome ∧
    (b.project.failOnTaskError = true → outcome.exit.codeOr 1 = 0)

/-- Every task of the plan was tried once; `outcome` tells what came of the task at a place of the
queue. -/
structure Compiled (host : Host) (b : Builder) (p : Plan) (w : World) (compiles : List Call)
    (outcome : Nat → Call) (w' : World) : Prop where
  calls : ∃ v, (v = w ∨ (w.disk.makeDirectories b.project.cacheDirectory).1 = .ok () ∧
    v = w.withDirectory b.project.cacheDirectory) ∧ Calls host v compiles w'
  perm : compiles.Perm ((List.range p.toCompile.length).map outcome)
  commands : ∀ i t, p.toCompile[i]? = some t →
    (outcome i).command = (b.compiler p.flags).command p.flags t

/-- The sources of the tasks that failed, in the order of the queue. -/
def failures (p : Plan) (outcome : Nat → Call) : List Path :=
  (p.toCompile.zipIdx.filter fun (_, i) => !(outcome i).isSuccess).map (·.1.source)

/-- The ways in which a build can end, and the calls that it made until then. -/
inductive Ends (host : Host) (b : Builder) (w : World) :
    Except BuildError BuildResult → World → Trace → Prop
  /-- Manifests, packages or flags could not be settled. -/
  | unprepared {e : BuildError} {w' : World} {queries : List Call}
      (error : (b.prepare host).run w = .error e w') (calls : Calls host w queries w')
      (commands : queries.map (·.command) <+: PackageFlags.commands b.variant.packages) :
      Ends host b w (.error e) w' ⟨queries, [], [], []⟩
  /-- A pre-build command could not be started, or failed where that is an error. -/
  | stopped {p : Plan} {queries before : List Call} {last : Call} {v w' : World} {e : BuildError}
      {source : Path} {command : String}
      (prepared : Prepared host b w p queries v) (calls : Calls host v (before ++ [last]) w')
      (lastCommand : last.command = (b.taskRunner p.flags).shell source command)
      (commands : (before ++ [last]).map (·.command) <+:
        (b.taskRunner p.flags).shells (TaskRunner.commands p.toCompile))
      (cause : (∃ cause, e = .spawn command cause ∧ last.result = .error cause) ∨
        ∃ outcome, e = .taskFailed source command (outcome.exit.codeOr 1) ∧
          b.project.failOnTaskError = true ∧ outcome.exit.codeOr 1 ≠ 0 ∧ last.result = .ok outcome) :
      Ends host b w (.error e) w' ⟨queries, before ++ [last], [], []⟩
  /-- The cache directory could not be made. -/
  | unready {p : Plan} {queries tasks : List Call} {v v' : World} {cause : SystemError}
      (prepared : Prepared host b w p queries v) (ran : RanTasks host b p v tasks v')
      (refused : (v'.disk.makeDirectories b.project.cacheDirectory).1 = .error cause) :
      Ends host b w (.error (.io b.project.cacheDirectory cause))
        (v'.withDirectory b.project.cacheDirectory) ⟨queries, tasks, [], []⟩
  /-- Some files did not compile. -/
  | uncompiled {p : Plan} {queries tasks compiles : List Call} {v v' w' : World}
      {outcome : Nat → Call}
      (prepared : Prepared host b w p queries v) (ran : RanTasks host b p v tasks v')
      (compiled : Compiled host b p v' compiles outcome w') (failed : failures p outcome ≠ []) :
      Ends host b w (.error (.compilation (failures p outcome))) w' ⟨queries, tasks, compiles, []⟩
  /-- The final tool could not be started. -/
  | unlinked {p : Plan} {queries tasks compiles : List Call} {v v' v'' w' : World}
      {outcome : Nat → Call} {cause : SystemError}
      (prepared : Prepared host b w p queries v) (ran : RanTasks host b p v tasks v')
      (compiled : Compiled host b p v' compiles outcome v'') (succeeded : failures p outcome = [])
      (start : v''.start host (b.linkCommand p) = (.error cause, w')) :
      Ends host b w (.error (.spawn b.linker.tool cause)) w'
        ⟨queries, tasks, compiles, [⟨b.linkCommand p, .error cause⟩]⟩
  /-- The final tool was started. -/
  | linked {p : Plan} {queries tasks compiles : List Call} {v v' v'' w' : World}
      {outcome : Nat → Call} {final : Outcome} {result : Except BuildError BuildResult}
      (prepared : Prepared host b w p queries v) (ran : RanTasks host b p v tasks v')
      (compiled : Compiled host b p v' compiles outcome v'') (succeeded : failures p outcome = [])
      (start : v''.start host (b.linkCommand p) = (.ok final, w'))
      (told : (∃ r, result = .ok r) ∨ ∃ status,
        result = .error (.link b.linker.tool (b.variant.outputPath b.options) status)) :
      Ends host b w result w' ⟨queries, tasks, compiles, [⟨b.linkCommand p, .ok final⟩]⟩

variable {host : Host} {b : Builder} {w w' : World} {p : Plan}

/-! ## Every build ends in one of these ways -/

theorem exists_prepared (h : (b.prepare host).run w = .ok p w') :
    ∃ queries, Prepared host b w p queries w' := by
  obtain ⟨store, -, -, hquery, -⟩ := run_prepare_eq_ok_iff.1 h
  obtain ⟨queries, hcalls, hcommands⟩ := PackageFlags.calls_of_query_eq_ok hquery
  exact ⟨queries, h, hcalls, hcommands⟩

theorem exists_ends_of_prepare_eq_error {e : BuildError} (h : (b.prepare host).run w = .error e w') :
    ∃ t, Ends host b w (.error e) w' t ∧ t.links = [] := by
  rcases run_prepare_error_cases h with ⟨-, rfl⟩ | ⟨store, -, hquery | ⟨pkg, hquery, -⟩⟩
  · exact ⟨_, .unprepared h (.nil _) (List.nil_prefix), rfl⟩
  · obtain ⟨queries, hcalls, hcommands⟩ := (PackageFlags.calls_of_query_eq_error hquery).1
    exact ⟨_, .unprepared h hcalls hcommands, rfl⟩
  · obtain ⟨queries, hcalls, hcommands⟩ := PackageFlags.calls_of_query_eq_ok hquery
    exact ⟨_, .unprepared h hcalls (hcommands ▸ List.prefix_refl _), rfl⟩

/-- Making the cache directory of a plan changes the disk only, even where it fails. -/
theorem run_ensureDirectory (c : ObjectCache) (w : World) :
    ((w.disk.makeDirectories c.directory).1 = .ok () ∧
      c.ensureDirectory.run w = .ok () (w.withDirectory c.directory)) ∨
    ∃ cause, (w.disk.makeDirectories c.directory).1 = .error cause ∧
      c.ensureDirectory.run w = .error (.io c.directory cause) (w.withDirectory c.directory) := by
  change (_ ∧ c.ensureDirectory w = _) ∨ ∃ cause, _ ∧ c.ensureDirectory w = _
  rw [ObjectCache.ensureDirectory, Activity.changeDiskStepwise, World.withDirectory]
  rcases w.disk.makeDirectories c.directory with ⟨cause | ⟨⟩, d⟩
  · exact .inr ⟨cause, rfl, rfl⟩
  · exact .inl ⟨rfl, rfl⟩

/-- How compiling a plan ends. -/
theorem compile_cases (host : Host) (p : Plan) {c : ObjectCache}
    (hc : c.directory = b.project.cacheDirectory) (w : World) :
    (∃ cause, (w.disk.makeDirectories b.project.cacheDirectory).1 = .error cause ∧
      (b.compile host c p.flags p.toCompile).run w =
        .error (.io b.project.cacheDirectory cause) (w.withDirectory b.project.cacheDirectory)) ∨
    ∃ compiles outcome v, Compiled host b p w compiles outcome v ∧
      ((failures p outcome = [] ∧
          ∃ report, (b.compile host c p.flags p.toCompile).run w = .ok report v) ∨
        (failures p outcome ≠ [] ∧ (b.compile host c p.flags p.toCompile).run w =
          .error (.compilation (failures p outcome)) v)) := by
  rw [compile]
  by_cases hempty : p.toCompile = []
  · right
    -- an empty queue asks for no directory; its outcome is read at no place
    refine ⟨[], fun _ => ⟨b.linkCommand p, .error .notFound⟩, w, ⟨⟨w, .inl rfl, .nil w⟩, ?_, ?_⟩,
      .inl ⟨?_, default, ?_⟩⟩
    · simp [hempty]
    · simp [hempty]
    · simp [failures, hempty]
    · simp [hempty]
  · rw [if_neg (by simpa using hempty), ← hc]
    rcases run_ensureDirectory c w with ⟨hready, hdir⟩ | ⟨cause, hrefused, hdir⟩
    · right
      obtain ⟨compiles, outcome, hcalls, hperm, hcommands, hreport⟩ :=
        (b.compiler p.flags).calls_of_compile host p.flags p.toCompile (w.withDirectory c.directory)
      have hcalls' := hc ▸ hcalls
      refine ⟨compiles, outcome, _, ⟨⟨_, .inr ⟨hc ▸ hready, rfl⟩, hcalls'⟩, hperm, hcommands⟩, ?_⟩
      -- the report lists the failing sources, and it is these that decide how the phase ends
      change _ = CompileReport.mk _ (failures p outcome) at hreport
      rw [Activity.run_bind_of_ok hdir, Activity.run_bind_of_ok (Activity.run_ofStep _ _), hreport, hc]
      by_cases hfailed : failures p outcome = []
      · have hsuccess : CompileReport.isSuccess ⟨p.toCompile.length, failures p outcome⟩ = true :=
          List.isEmpty_iff.2 hfailed
        rw [if_pos hsuccess]
        exact .inl ⟨hfailed, _, rfl⟩
      · have hfailure : ¬ CompileReport.isSuccess ⟨p.toCompile.length, failures p outcome⟩ = true :=
          fun hempty => hfailed (List.isEmpty_iff.1 hempty)
        rw [if_neg hfailure]
        exact .inr ⟨hfailed, rfl⟩
    · exact .inl ⟨cause, hrefused, Activity.run_bind_of_error hdir⟩

/-- What a prepared build does next: it runs its pre-build commands, makes the cache directory if it has
something to compile, compiles, and hands over to the final tool. -/
theorem makeObjects_cases {queries : List Call} {v : World} (hp : Prepared host b w p queries v) :
    (∃ e v' t, (b.makeObjects host p).run v = .error e v' ∧ Ends host b w (.error e) v' t ∧
      t.links = []) ∨
    ∃ reports tasks v₁ compiles outcome v₂, (b.makeObjects host p).run v = .ok reports v₂ ∧
      RanTasks host b p v tasks v₁ ∧ Compiled host b p v₁ compiles outcome v₂ ∧
      failures p outcome = [] := by
  cases htasks : ((b.taskRunner p.flags).runAll host p.toCompile).run v with
  | error e v₁ =>
    obtain ⟨before, last, source, command, hcalls, hlast, hcommands, hcause⟩ :=
      TaskRunner.calls_of_runEach_eq_error (TaskRunner.run_runAll_eq_error htasks)
    exact .inl ⟨e, v₁, _, Activity.run_bind_of_error htasks,
      .stopped hp hcalls hlast hcommands hcause, rfl⟩
  | ok report v₁ =>
    obtain ⟨results, hresults⟩ := TaskRunner.run_runAll_eq_ok htasks
    obtain ⟨tasks, hcalls, hcommands, hfine⟩ := TaskRunner.calls_of_runEach_eq_ok hresults
    have hran : RanTasks host b p v tasks v₁ := ⟨hcalls, hcommands, hfine⟩
    rcases compile_cases host p (cache_of_prepare hp.run_eq).2 v₁ with
      ⟨cause, hrefused, hdir⟩ | ⟨compiles, outcome, v₂, hcompiled, hend⟩
    · refine .inl ⟨_, _, _, ?_, .unready hp hran hrefused, rfl⟩
      exact (Activity.run_bind_of_ok htasks).trans (Activity.run_bind_of_error hdir)
    rcases hend with ⟨hsucceeded, compileReport, hok⟩ | ⟨hfailed, herror⟩
    · refine .inr ⟨(report, compileReport), tasks, v₁, compiles, outcome, v₂, ?_, hran, hcompiled,
        hsucceeded⟩
      exact (Activity.run_bind_of_ok htasks).trans (Activity.run_bind_of_ok hok)
    · refine .inl ⟨_, _, _, ?_, .uncompiled hp hran hcompiled hfailed, rfl⟩
      exact (Activity.run_bind_of_ok htasks).trans (Activity.run_bind_of_error herror)

/-- The last part of a build tries to start the final command, and does nothing else. -/
theorem calls_of_finish (host : Host) (b : Builder) (p : Plan) (reports : TaskReport × CompileReport)
    (v : World) :
    ∃ result, Calls host v [⟨b.linkCommand p, result⟩] ((b.finish host p reports).perform v).2 := by
  rw [Activity.perform]
  cases hfinish : (b.finish host p reports).run v with
  | ok r w =>
    obtain ⟨⟨⟩, w', hlink, hlast⟩ := Activity.run_bind_eq_ok_iff.1 hfinish
    cases hlast
    obtain ⟨final, hstart⟩ := Linker.call_of_run_eq_ok hlink
    exact ⟨_, .singleton hstart⟩
  | error e w =>
    rcases Activity.run_bind_eq_error_iff.1 hfinish with hlink | ⟨⟨⟩, w', -, hlast⟩
    · obtain ⟨result, hstart, -⟩ := Linker.call_of_run_eq_error hlink
      exact ⟨_, .singleton hstart⟩
    · cases hlast

/-- Every build ends in one of the ways that are listed. -/
theorem exists_ends (host : Host) (b : Builder) (w : World) :
    ∃ t, Ends host b w ((b.run host).perform w).1 ((b.run host).perform w).2 t := by
  rcases run_cases host b w with ⟨e, v, hprepare, hrun⟩ | ⟨p, v, hprepare, hrest⟩
  · rw [Activity.perform, hrun]
    exact (exists_ends_of_prepare_eq_error hprepare).imp fun _ => And.left
  obtain ⟨queries, hp⟩ := exists_prepared hprepare
  -- both case analyses are about the same objects, so each pair that disagrees is absurd
  rcases makeObjects_cases hp with
    ⟨e, v', t, hmade, hends, -⟩ | ⟨reports, tasks, v₁, compiles, outcome, v₂, hmade, hran, hcompiled,
      hsucceeded⟩
  · rcases hrest with ⟨e', v'', hmade', hrun⟩ | ⟨reports, v'', hmade', -⟩
    · rw [hmade] at hmade'
      cases hmade'
      rw [Activity.perform, hrun]
      exact ⟨t, hends⟩
    · rw [hmade] at hmade'
      cases hmade'
  · rcases hrest with ⟨e', v'', hmade', -⟩ | ⟨reports', v'', hmade', hrun⟩
    · rw [hmade] at hmade'
      cases hmade'
    · rw [hmade] at hmade'
      cases hmade'
      rw [Activity.perform, hrun]
      cases hfinish : (b.finish host p reports).run v₂ with
      | ok r w' =>
        obtain ⟨⟨⟩, v₃, hlink, hlast⟩ := Activity.run_bind_eq_ok_iff.1 hfinish
        cases hlast
        obtain ⟨final, hstart⟩ := Linker.call_of_run_eq_ok hlink
        exact ⟨_, .linked hp hran hcompiled hsucceeded hstart (.inl ⟨_, rfl⟩)⟩
      | error e w' =>
        rcases Activity.run_bind_eq_error_iff.1 hfinish with hlink | ⟨⟨⟩, v₃, -, hlast⟩
        · obtain ⟨result, hstart, ⟨cause, rfl, rfl⟩ | ⟨final, rfl, rfl⟩⟩ :=
            Linker.call_of_run_eq_error hlink
          · exact ⟨_, .unlinked hp hran hcompiled hsucceeded hstart⟩
          · exact ⟨_, .linked hp hran hcompiled hsucceeded hstart (.inr ⟨_, rfl⟩)⟩
        · cases hlast

/-! ## What the result tells -/

/-- The calls lead from one world to another, and the build itself has changed nothing in between but
the cache directory, once the pre-build commands had run. -/
def Leads (host : Host) (b : Builder) (w : World) (t : Trace) (w' : World) : Prop :=
  ∃ queried tasked readied compiled, Calls host w t.queries queried ∧
    Calls host queried t.tasks tasked ∧
    (readied = tasked ∨ readied = tasked.withDirectory b.project.cacheDirectory) ∧
    Calls host readied t.compiles compiled ∧ Calls host compiled t.links w'

/-- What the calls of a build promise, phase by phase and for each result. -/
structure Phased (host : Host) (b : Builder) (w : World) (result : Except BuildError BuildResult)
    (w' : World) (t : Trace) : Prop where
  /-- The calls are all that happened. -/
  leads : Leads host b w t w'
  /-- The commands that were started are those of the phases, one phase after another. -/
  started : w'.started = w.started ++ Call.started t.calls
  /-- Package queries come first, in order, and stop where one fails. -/
  queries : t.queries.map (·.command) <+: PackageFlags.commands b.variant.packages
  /-- Nothing else is started before files and flags are settled. -/
  unprepared : (∀ p v, (b.prepare host).run w ≠ .ok p v) →
    t.tasks = [] ∧ t.compiles = [] ∧ t.links = []
  /-- Once they are, the pre-build commands follow in queue order; then one compiler for every task, or
  none at all; then the final tool at most once. No phase starts before the one before it is done. -/
  prepared : ∀ p v, (b.prepare host).run w = .ok p v →
    t.queries.map (·.command) = PackageFlags.commands b.variant.packages ∧
    t.tasks.map (·.command) <+: (b.taskRunner p.flags).shells (TaskRunner.commands p.toCompile) ∧
    (t.compiles = [] ∨ (t.compiles.map (·.command)).Perm
      (p.toCompile.map ((b.compiler p.flags).command p.flags))) ∧
    t.links.map (·.command) <+: [b.linkCommand p] ∧
    (t.compiles ++ t.links ≠ [] → t.tasks.map (·.command) =
      (b.taskRunner p.flags).shells (TaskRunner.commands p.toCompile)) ∧
    (t.links ≠ [] → (t.compiles.map (·.command)).Perm
      (p.toCompile.map ((b.compiler p.flags).command p.flags)))
  /-- After an early error only queries were started, and the disk is what they left. -/
  early : ∀ e, result = .error e → e.IsEarly →
    t.tasks = [] ∧ t.compiles = [] ∧ t.links = [] ∧ Calls host w t.queries w'
  /-- A pre-build command that is reported was the last to run, and nothing was compiled or linked. -/
  taskFailed : ∀ source command code, result = .error (.taskFailed source command code) →
    b.project.failOnTaskError = true ∧ t.compiles = [] ∧ t.links = [] ∧
    ∃ p v before last outcome, (b.prepare host).run w = .ok p v ∧ t.tasks = before ++ [last] ∧
      last.command = (b.taskRunner p.flags).shell source command ∧ last.result = .ok outcome ∧
      outcome.exit.codeOr 1 = code ∧ code ≠ 0
  /-- When files are reported that did not compile, every task was tried, the reported ones are exactly
  the failing ones in queue order, and the final tool was not started. -/
  compilationFailed : ∀ failures, result = .error (.compilation failures) →
    failures ≠ [] ∧ t.links = [] ∧
    ∃ p v, ∃ outcome : Nat → Call, (b.prepare host).run w = .ok p v ∧
      t.compiles.Perm ((List.range p.toCompile.length).map outcome) ∧
      (∀ i task, p.toCompile[i]? = some task →
        (outcome i).command = (b.compiler p.flags).command p.flags task) ∧
      failures = (p.toCompile.zipIdx.filter fun (_, i) => !(outcome i).isSuccess).map (·.1.source)
  /-- When the build is done or its link failed, every task compiled, even if there was none, and the
  final tool was started once. -/
  linked : ((∃ r, result = .ok r) ∨
      ∃ tool output status, result = .error (.link tool output status)) →
    ∃ p v, (b.prepare host).run w = .ok p v ∧
      (t.compiles.map (·.command)).Perm (p.toCompile.map ((b.compiler p.flags).command p.flags)) ∧
      (∀ c ∈ t.compiles, c.isSuccess = true) ∧
      ∃ outcome, t.links = [⟨b.linkCommand p, .ok outcome⟩]
  /-- Where a failing pre-build command is an error, nothing is compiled or linked after one. -/
  strict : b.project.failOnTaskError = true → t.compiles ++ t.links ≠ [] →
    ∀ c ∈ t.tasks, ∃ outcome, c.result = .ok outcome ∧ outcome.exit.codeOr 1 = 0
  /-- Where it is not, only a command that cannot be started keeps the others from running. -/
  lenient : b.project.failOnTaskError = false → (∀ c ∈ t.tasks, c.isStarted = true) →
    ∀ p v, (b.prepare host).run w = .ok p v → t.tasks.map (·.command) =
      (b.taskRunner p.flags).shells (TaskRunner.commands p.toCompile)

/-- The tasks of a queue and the calls at its places have the same commands. -/
theorem Compiled.commands_perm {compiles : List Call} {outcome : Nat → Call}
    (h : Compiled host b p w compiles outcome w') :
    (compiles.map (·.command)).Perm (p.toCompile.map ((b.compiler p.flags).command p.flags)) := by
  refine (h.perm.map _).trans (List.Perm.of_eq ?_)
  apply List.ext_getElem
  · simp
  · intro i _ hi
    have hlt : i < p.toCompile.length := by simpa using hi
    simpa using h.commands i p.toCompile[i] (List.getElem?_eq_getElem hlt)

/-- Without a failing source every call succeeded. -/
theorem Compiled.isSuccess {compiles : List Call} {outcome : Nat → Call}
    (h : Compiled host b p w compiles outcome w') (hs : failures p outcome = []) :
    ∀ c ∈ compiles, c.isSuccess = true := by
  intro c hc
  obtain ⟨i, hi, rfl⟩ := List.mem_map.1 ((h.perm.mem_iff).1 hc)
  have hlt := List.mem_range.1 hi
  have hnone := List.filter_eq_nil_iff.1 (List.map_eq_nil_iff.1 hs)
  have hmem : (p.toCompile[i], i) ∈ p.toCompile.zipIdx := by
    rw [List.mk_mem_zipIdx_iff_getElem?]
    exact List.getElem?_eq_getElem hlt
  simpa using hnone _ hmem

namespace Ends

variable {result : Except BuildError BuildResult} {t : Trace}

theorem leads (h : Ends host b w result w' t) : Leads host b w t w' := by
  cases h with
  | unprepared _ calls _ => exact ⟨_, _, _, _, calls, .nil _, .inl rfl, .nil _, .nil _⟩
  | stopped prepared calls _ _ _ =>
    exact ⟨_, _, _, _, prepared.calls, calls, .inl rfl, .nil _, .nil _⟩
  | unready prepared ran _ => exact ⟨_, _, _, _, prepared.calls, ran.calls, .inr rfl, .nil _, .nil _⟩
  | uncompiled prepared ran compiled _ =>
    obtain ⟨v, hv, hcalls⟩ := compiled.calls
    exact ⟨_, _, v, _, prepared.calls, ran.calls, hv.imp_right And.right, hcalls, .nil _⟩
  | unlinked prepared ran compiled _ start =>
    obtain ⟨v, hv, hcalls⟩ := compiled.calls
    exact ⟨_, _, v, _, prepared.calls, ran.calls, hv.imp_right And.right, hcalls, .singleton start⟩
  | linked prepared ran compiled _ start _ =>
    obtain ⟨v, hv, hcalls⟩ := compiled.calls
    exact ⟨_, _, v, _, prepared.calls, ran.calls, hv.imp_right And.right, hcalls, .singleton start⟩

theorem queries_prefix (h : Ends host b w result w' t) :
    t.queries.map (·.command) <+: PackageFlags.commands b.variant.packages := by
  cases h with
  | unprepared _ _ commands => exact commands
  | stopped prepared _ _ _ _ => exact prepared.commands ▸ List.prefix_refl _
  | unready prepared _ _ => exact prepared.commands ▸ List.prefix_refl _
  | uncompiled prepared _ _ _ => exact prepared.commands ▸ List.prefix_refl _
  | unlinked prepared _ _ _ _ => exact prepared.commands ▸ List.prefix_refl _
  | linked prepared _ _ _ _ _ => exact prepared.commands ▸ List.prefix_refl _

/-- A build with a call after its queries was prepared. -/
theorem prepared_or_early (h : Ends host b w result w' t) :
    (∃ p v, Prepared host b w p t.queries v) ∨
    (t.tasks = [] ∧ t.compiles = [] ∧ t.links = [] ∧
      ∃ e, result = .error e ∧ (b.prepare host).run w = .error e w' ∧ Calls host w t.queries w') := by
  cases h with
  | unprepared error calls _ => exact .inr ⟨rfl, rfl, rfl, _, rfl, error, calls⟩
  | stopped prepared _ _ _ _ => exact .inl ⟨_, _, prepared⟩
  | unready prepared _ _ => exact .inl ⟨_, _, prepared⟩
  | uncompiled prepared _ _ _ => exact .inl ⟨_, _, prepared⟩
  | unlinked prepared _ _ _ _ => exact .inl ⟨_, _, prepared⟩
  | linked prepared _ _ _ _ _ => exact .inl ⟨_, _, prepared⟩

theorem unprepared_phases (h : Ends host b w result w' t)
    (hnot : ∀ p v, (b.prepare host).run w ≠ .ok p v) :
    t.tasks = [] ∧ t.compiles = [] ∧ t.links = [] := by
  rcases h.prepared_or_early with ⟨p, v, prepared⟩ | ⟨htasks, hcompiles, hlinks, -⟩
  · exact absurd prepared.run_eq (hnot p v)
  · exact ⟨htasks, hcompiles, hlinks⟩

theorem prepared_phases (h : Ends host b w result w' t) {v : World}
    (hp : (b.prepare host).run w = .ok p v) :
    t.queries.map (·.command) = PackageFlags.commands b.variant.packages ∧
    t.tasks.map (·.command) <+: (b.taskRunner p.flags).shells (TaskRunner.commands p.toCompile) ∧
    (t.compiles = [] ∨ (t.compiles.map (·.command)).Perm
      (p.toCompile.map ((b.compiler p.flags).command p.flags))) ∧
    t.links.map (·.command) <+: [b.linkCommand p] ∧
    (t.compiles ++ t.links ≠ [] → t.tasks.map (·.command) =
      (b.taskRunner p.flags).shells (TaskRunner.commands p.toCompile)) ∧
    (t.links ≠ [] → (t.compiles.map (·.command)).Perm
      (p.toCompile.map ((b.compiler p.flags).command p.flags))) := by
  cases h with
  | unprepared error _ _ =>
    rw [hp] at error
    cases error
  | stopped prepared _ _ commands _ =>
    cases hp.symm.trans prepared.run_eq
    exact ⟨prepared.commands, commands, .inl rfl, List.nil_prefix, fun hne => absurd rfl hne,
      fun hne => absurd rfl hne⟩
  | unready prepared ran _ =>
    cases hp.symm.trans prepared.run_eq
    exact ⟨prepared.commands, ran.commands ▸ List.prefix_refl _, .inl rfl, List.nil_prefix,
      fun hne => absurd rfl hne, fun hne => absurd rfl hne⟩
  | uncompiled prepared ran compiled _ =>
    cases hp.symm.trans prepared.run_eq
    exact ⟨prepared.commands, ran.commands ▸ List.prefix_refl _, .inr compiled.commands_perm,
      List.nil_prefix, fun _ => ran.commands, fun hne => absurd rfl hne⟩
  | unlinked prepared ran compiled _ _ =>
    cases hp.symm.trans prepared.run_eq
    exact ⟨prepared.commands, ran.commands ▸ List.prefix_refl _, .inr compiled.commands_perm,
      List.prefix_refl _, fun _ => ran.commands, fun _ => compiled.commands_perm⟩
  | linked prepared ran compiled _ _ _ =>
    cases hp.symm.trans prepared.run_eq
    exact ⟨prepared.commands, ran.commands ▸ List.prefix_refl _, .inr compiled.commands_perm,
      List.prefix_refl _, fun _ => ran.commands, fun _ => compiled.commands_perm⟩

theorem early_phases {e : BuildError} (h : Ends host b w (.error e) w' t) (he : e.IsEarly) :
    t.tasks = [] ∧ t.compiles = [] ∧ t.links = [] ∧ Calls host w t.queries w' := by
  cases h with
  | unprepared _ calls _ => exact ⟨rfl, rfl, rfl, calls⟩
  | stopped _ _ _ _ cause =>
    rcases cause with ⟨cause, rfl, -⟩ | ⟨outcome, rfl, -⟩
    · cases he
    · cases he
  | unready _ _ _ => cases he
  | uncompiled _ _ _ _ => cases he
  | unlinked _ _ _ _ _ => cases he
  | linked _ _ _ _ _ told =>
    rcases told with ⟨r, hr⟩ | ⟨status, hr⟩
    · cases hr
    · cases hr
      cases he

theorem taskFailed_phases {source : Path} {command : String} {code : Int}
    (h : Ends host b w (.error (.taskFailed source command code)) w' t) :
    b.project.failOnTaskError = true ∧ t.compiles = [] ∧ t.links = [] ∧
    ∃ p v before last outcome, (b.prepare host).run w = .ok p v ∧ t.tasks = before ++ [last] ∧
      last.command = (b.taskRunner p.flags).shell source command ∧ last.result = .ok outcome ∧
      outcome.exit.codeOr 1 = code ∧ code ≠ 0 := by
  cases h with
  | unprepared error _ _ =>
    rcases error_cases_of_run_prepare error with he | ⟨program, cause, he⟩ | ⟨p, cause, he⟩
    · cases he
    · cases he
    · cases he
  | stopped prepared _ lastCommand _ cause =>
    rcases cause with ⟨cause, he, -⟩ | ⟨outcome, he, strict, hne, hlast⟩
    · cases he
    · cases he
      exact ⟨strict, rfl, rfl, _, _, _, _, outcome, prepared.run_eq, rfl, lastCommand, hlast, rfl, hne⟩
  | linked _ _ _ _ _ told =>
    rcases told with ⟨r, hr⟩ | ⟨status, hr⟩
    · cases hr
    · cases hr

theorem compilationFailed_phases {failed : List Path}
    (h : Ends host b w (.error (.compilation failed)) w' t) :
    failed ≠ [] ∧ t.links = [] ∧
    ∃ p v, ∃ outcome : Nat → Call, (b.prepare host).run w = .ok p v ∧
      t.compiles.Perm ((List.range p.toCompile.length).map outcome) ∧
      (∀ i task, p.toCompile[i]? = some task →
        (outcome i).command = (b.compiler p.flags).command p.flags task) ∧
      failed = (p.toCompile.zipIdx.filter fun (_, i) => !(outcome i).isSuccess).map (·.1.source) := by
  cases h with
  | unprepared error _ _ =>
    rcases error_cases_of_run_prepare error with he | ⟨program, cause, he⟩ | ⟨p, cause, he⟩
    · cases he
    · cases he
    · cases he
  | stopped _ _ _ _ cause =>
    rcases cause with ⟨cause, he, -⟩ | ⟨outcome, he, -⟩
    · cases he
    · cases he
  | uncompiled prepared _ compiled failed =>
    exact ⟨failed, rfl, _, _, _, prepared.run_eq, compiled.perm, compiled.commands, rfl⟩
  | linked _ _ _ _ _ told =>
    rcases told with ⟨r, hr⟩ | ⟨status, hr⟩
    · cases hr
    · cases hr

theorem linked_phases (h : Ends host b w result w' t)
    (hr : (∃ r, result = .ok r) ∨ ∃ tool output status, result = .error (.link tool output status)) :
    ∃ p v, (b.prepare host).run w = .ok p v ∧
      (t.compiles.map (·.command)).Perm (p.toCompile.map ((b.compiler p.flags).command p.flags)) ∧
      (∀ c ∈ t.compiles, c.isSuccess = true) ∧
      ∃ outcome, t.links = [⟨b.linkCommand p, .ok outcome⟩] := by
  cases h with
  | linked prepared _ compiled succeeded _ _ =>
    exact ⟨_, _, prepared.run_eq, compiled.commands_perm, compiled.isSuccess succeeded, _, rfl⟩
  | unprepared error _ _ =>
    rcases hr with ⟨r, hr⟩ | ⟨tool, output, status, hr⟩
    · cases hr
    · cases hr
      rcases error_cases_of_run_prepare error with he | ⟨program, cause, he⟩ | ⟨p, cause, he⟩
      · cases he
      · cases he
      · cases he
  | stopped _ _ _ _ cause =>
    rcases cause with ⟨cause, rfl, -⟩ | ⟨outcome, rfl, -⟩ <;>
      rcases hr with ⟨r, hr⟩ | ⟨tool, output, status, hr⟩ <;> cases hr
  | unready _ _ _ => rcases hr with ⟨r, hr⟩ | ⟨tool, output, status, hr⟩ <;> cases hr
  | uncompiled _ _ _ _ => rcases hr with ⟨r, hr⟩ | ⟨tool, output, status, hr⟩ <;> cases hr
  | unlinked _ _ _ _ _ => rcases hr with ⟨r, hr⟩ | ⟨tool, output, status, hr⟩ <;> cases hr

/-- The tasks of a build that went past them. -/
theorem exists_ranTasks (h : Ends host b w result w' t) (hne : t.compiles ++ t.links ≠ []) :
    ∃ p v v', RanTasks host b p v t.tasks v' := by
  cases h with
  | unprepared _ _ _ => exact absurd rfl hne
  | stopped _ _ _ _ _ => exact absurd rfl hne
  | unready _ ran _ => exact ⟨_, _, _, ran⟩
  | uncompiled _ ran _ _ => exact ⟨_, _, _, ran⟩
  | unlinked _ ran _ _ _ => exact ⟨_, _, _, ran⟩
  | linked _ ran _ _ _ _ => exact ⟨_, _, _, ran⟩

theorem lenient_phases (h : Ends host b w result w' t) (hlenient : b.project.failOnTaskError = false)
    (hstarted : ∀ c ∈ t.tasks, c.isStarted = true) {v : World}
    (hp : (b.prepare host).run w = .ok p v) :
    t.tasks.map (·.command) = (b.taskRunner p.flags).shells (TaskRunner.commands p.toCompile) := by
  cases h with
  | unprepared error _ _ =>
    rw [hp] at error
    cases error
  | @stopped _ _ before last _ _ _ _ _ prepared _ _ _ cause =>
    have hlast : last.isStarted = true := hstarted last (by simp)
    rcases cause with ⟨cause, -, hresult⟩ | ⟨outcome, -, hstrict, -⟩
    · rw [Call.isStarted, hresult] at hlast
      cases hlast
    · rw [hlenient] at hstrict
      cases hstrict
  | unready prepared ran _ =>
    cases hp.symm.trans prepared.run_eq
    exact ran.commands
  | uncompiled prepared ran _ _ =>
    cases hp.symm.trans prepared.run_eq
    exact ran.commands
  | unlinked prepared ran _ _ _ =>
    cases hp.symm.trans prepared.run_eq
    exact ran.commands
  | linked prepared ran _ _ _ _ =>
    cases hp.symm.trans prepared.run_eq
    exact ran.commands

end Ends

/-- The record of started commands grows along the calls. -/
theorem Leads.started_eq {t : Trace} (h : Leads host b w t w') :
    w'.started = w.started ++ Call.started t.calls := by
  obtain ⟨queried, tasked, readied, compiled, hq, ht, hr, hc, hl⟩ := h
  have hready : readied.started = tasked.started := by
    rcases hr with rfl | rfl <;> rfl
  rw [hl.started_eq, hc.started_eq, hready, ht.started_eq, hq.started_eq]
  simp [Trace.calls]

/-- The last command that a successful build started is the final one. -/
theorem exists_started_of_run {v : World} {r : BuildResult} (hprepare : (b.prepare host).run w = .ok p v)
    (hrun : (b.run host).run w = .ok r w') :
    ∃ earlier, w'.started = w.started ++ earlier ++ [b.linkCommand p] := by
  obtain ⟨t, h⟩ := exists_ends host b w
  rw [Activity.perform, hrun] at h
  obtain ⟨p', v', hprepare', -, -, outcome, hlinks⟩ := h.linked_phases (.inl ⟨r, rfl⟩)
  cases hprepare.symm.trans hprepare'
  refine ⟨Call.started (t.queries ++ t.tasks ++ t.compiles), ?_⟩
  rw [h.leads.started_eq, Trace.calls, hlinks, Call.started_append, ← List.append_assoc]
  rfl

/-- Phase discipline: whatever the configuration, the disk and the tools, a build starts its commands
phase by phase, and its result tells how far it got. -/
theorem run_phases (host : Host) (b : Builder) (w : World) :
    ∃ t, Phased host b w ((b.run host).perform w).1 ((b.run host).perform w).2 t := by
  obtain ⟨t, h⟩ := exists_ends host b w
  refine ⟨t, ?_⟩
  generalize ((b.run host).perform w).1 = result at h
  exact {
    leads := h.leads
    started := h.leads.started_eq
    queries := h.queries_prefix
    unprepared := h.unprepared_phases
    prepared := fun _ _ hp => h.prepared_phases hp
    early := fun e he hearly => (he ▸ h).early_phases hearly
    taskFailed := fun _ _ _ he => (he ▸ h).taskFailed_phases
    compilationFailed := fun _ he => (he ▸ h).compilationFailed_phases
    linked := h.linked_phases
    strict := by
      intro hstrict hne c hc
      obtain ⟨p, v, v', ran⟩ := h.exists_ranTasks hne
      obtain ⟨outcome, hresult, hfine⟩ := ran.fine c hc
      exact ⟨outcome, hresult, hfine hstrict⟩
    lenient := fun hlenient hstarted _ _ hp => h.lenient_phases hlenient hstarted hp }

end Builder

end VariantBuild
