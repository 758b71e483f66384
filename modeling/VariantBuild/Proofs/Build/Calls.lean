import Mathlib.Logic.Function.Basic
import VariantBuild.Build
import VariantBuild.Proofs.Activity
/-!
# Calls

A build touches the world by starting commands and, once, by making the cache directory. `Calls` is a
run of tries to start commands, one after another: each starts in the world that the one before it left.
A try that fails leaves the world as it was, so the record of started commands grows by the others.

Each phase of a build is told by its calls: which commands they try, in what order, and what came of the
last one if the phase failed.
-/

namespace VariantBuild

/-- Processes may take effect in the order in which they are queued. -/
theorem Host.perm_queue (_ : Option Nat) (n : Nat) : (List.range n).Perm (List.range n) :=
  .refl _

/-! ## Calls -/

/-- A try to start a command, and what came of it. -/
structure Call where
  command : Command
  result : Except SystemError Outcome

namespace Call

/-- Whether the command was started. -/
def isStarted (c : Call) : Bool :=
  c.result.isOk

/-- Whether the command was started and succeeded. -/
def isSuccess (c : Call) : Bool :=
  match c.result with
  | .ok outcome => outcome.exit.isSuccess
  | .error _ => false

/-- The commands that were started, in order. -/
def started (calls : List Call) : List Command :=
  (calls.filter isStarted).map (·.command)

@[simp] theorem started_nil : started [] = [] := rfl

@[simp] theorem started_append (as bs : List Call) : started (as ++ bs) = started as ++ started bs := by
  simp [started]

end Call

/-- Tries to start commands one after another, each in the world that the one before it left. -/
inductive Calls (host : Host) : World → List Call → World → Prop
  | nil (w : World) : Calls host w [] w
  | cons {w v w' : World} {c : Command} {result : Except SystemError Outcome} {rest : List Call}
      (first : w.start host c = (result, v)) (others : Calls host v rest w') :
      Calls host w (⟨c, result⟩ :: rest) w'

/-- A started command is recorded, and one that cannot be started leaves no trace. -/
theorem World.started_start {host : Host} {c : Command} {w v : World}
    {result : Except SystemError Outcome} (h : w.start host c = (result, v)) :
    v.started = w.started ++ Call.started [⟨c, result⟩] := by
  rw [World.start] at h
  split at h
  · cases h
    exact (List.append_nil _).symm
  · split at h
    · cases h
      exact (List.append_nil _).symm
    · cases h
      rfl

theorem World.run_of_start_eq_ok {host : Host} {c : Command} {w v : World} {outcome : Outcome}
    (h : w.start host c = (.ok outcome, v)) : host.run c w.disk = .ok (outcome, v.disk) := by
  rw [start] at h
  split at h
  · cases h
  · split at h
    · cases h
    next heq =>
      cases h
      exact heq

/-- A command that cannot be started changes nothing. -/
theorem World.eq_of_start_eq_error {host : Host} {c : Command} {w v : World} {cause : SystemError}
    (h : w.start host c = (.error cause, v)) : v = w := by
  rw [start] at h
  split at h
  · cases h
    rfl
  · split at h
    · cases h
      rfl
    · cases h

namespace Calls

variable {host : Host} {w v w' : World} {as bs : List Call}

theorem singleton {c : Command} {result : Except SystemError Outcome}
    (h : w.start host c = (result, v)) : Calls host w [⟨c, result⟩] v :=
  .cons h (.nil v)

theorem append (ha : Calls host w as v) (hb : Calls host v bs w') : Calls host w (as ++ bs) w' := by
  induction ha with
  | nil _ => exact hb
  | cons first _ ih => exact .cons first (ih hb)

/-- The record grows by the commands that were started. -/
theorem started_eq (h : Calls host w as w') : w'.started = w.started ++ Call.started as := by
  induction h with
  | nil w => simp
  | @cons w v w' c result rest first _ ih =>
    have hsplit : Call.started (⟨c, result⟩ :: rest) =
        Call.started [⟨c, result⟩] ++ Call.started rest := Call.started_append [⟨c, result⟩] rest
    rw [ih, World.started_start first, hsplit, List.append_assoc]

end Calls

namespace Activity

variable {ε : Type} {host : Host} {c : Command} {failed : SystemError → ε} {w w' : World}

/-- A command that was started was called. -/
theorem run_start_eq_ok_iff {outcome : Outcome} :
    (start host c failed).run w = .ok outcome w' ↔ w.start host c = (.ok outcome, w') := by
  change start host c failed w = _ ↔ _
  rw [start]
  rcases w.start host c with ⟨_ | _, v⟩ <;> simp

theorem run_start_eq_error_iff {e : ε} :
    (start host c failed).run w = .error e w' ↔
      ∃ cause, w.start host c = (.error cause, w') ∧ e = failed cause := by
  change start host c failed w = _ ↔ _
  rw [start]
  rcases w.start host c with ⟨cause | _, v⟩
  · constructor
    · intro h
      cases h
      exact ⟨cause, rfl, rfl⟩
    · rintro ⟨cause', heq, rfl⟩
      cases heq
      rfl
  · simp

end Activity

/-! ## Package queries -/

namespace PackageFlags

/-- The queries for packages, in order. -/
def commands (packages : List String) : List Command :=
  if packages.isEmpty then []
  else ["--cflags", "--libs"].map fun mode => ⟨program, mode :: packages, ⟨"."⟩, []⟩

variable {host : Host} {packages : List String} {mode : String} {w w' : World}

theorem calls_of_ask_eq_ok {words : List String} (h : (ask host packages mode).run w = .ok words w') :
    ∃ result, Calls host w [⟨⟨program, mode :: packages, ⟨"."⟩, []⟩, result⟩] w' := by
  obtain ⟨outcome, v, hstart, hrest⟩ := Activity.run_bind_eq_ok_iff.1 h
  split at hrest
  · cases hrest
    exact ⟨_, .singleton (Activity.run_start_eq_ok_iff.1 hstart)⟩
  · cases hrest

theorem calls_of_ask_eq_error {e : BuildError} (h : (ask host packages mode).run w = .error e w') :
    (∃ result, Calls host w [⟨⟨program, mode :: packages, ⟨"."⟩, []⟩, result⟩] w') ∧
      ((∃ cause, e = .spawn program cause) ∨ ∃ text, e = .packages packages text) := by
  rcases Activity.run_bind_eq_error_iff.1 h with hstart | ⟨outcome, v, hstart, hrest⟩
  · obtain ⟨cause, hcall, rfl⟩ := Activity.run_start_eq_error_iff.1 hstart
    exact ⟨⟨_, .singleton hcall⟩, .inl ⟨cause, rfl⟩⟩
  · split at hrest
    · cases hrest
    · cases hrest
      exact ⟨⟨_, .singleton (Activity.run_start_eq_ok_iff.1 hstart)⟩, .inr ⟨_, rfl⟩⟩

/-- A query that succeeded made all its calls. -/
theorem calls_of_query_eq_ok {pkg : PackageFlags} (h : (query host packages).run w = .ok pkg w') :
    ∃ calls, Calls host w calls w' ∧ calls.map (·.command) = commands packages := by
  rw [query] at h
  split at h
  next hempty =>
    cases h
    exact ⟨[], .nil w, by simp [commands, hempty]⟩
  next hempty =>
    obtain ⟨cflags, v, hcflags, hrest⟩ := Activity.run_bind_eq_ok_iff.1 h
    obtain ⟨libs, v', hlibs, hlast⟩ := Activity.run_bind_eq_ok_iff.1 hrest
    cases hlast
    obtain ⟨_, hfirst⟩ := calls_of_ask_eq_ok hcflags
    obtain ⟨_, hsecond⟩ := calls_of_ask_eq_ok hlibs
    exact ⟨_, hfirst.append hsecond, by simp [commands, hempty]⟩

/-- A query that failed stopped at the call that failed. -/
theorem calls_of_query_eq_error {e : BuildError} (h : (query host packages).run w = .error e w') :
    (∃ calls, Calls host w calls w' ∧ calls.map (·.command) <+: commands packages) ∧
      ((∃ cause, e = .spawn program cause) ∨ ∃ text, e = .packages packages text) := by
  rw [query] at h
  split at h
  next => cases h
  next hempty =>
    rcases Activity.run_bind_eq_error_iff.1 h with hcflags | ⟨cflags, v, hcflags, hrest⟩
    · obtain ⟨⟨_, hfirst⟩, hkind⟩ := calls_of_ask_eq_error hcflags
      exact ⟨⟨_, hfirst, by simp [commands, hempty]⟩, hkind⟩
    · obtain ⟨_, hfirst⟩ := calls_of_ask_eq_ok hcflags
      rcases Activity.run_bind_eq_error_iff.1 hrest with hlibs | ⟨libs, v', hlibs, hlast⟩
      · obtain ⟨⟨_, hsecond⟩, hkind⟩ := calls_of_ask_eq_error hlibs
        exact ⟨⟨_, hfirst.append hsecond, by simp [commands, hempty]⟩, hkind⟩
      · cases hlast

end PackageFlags

/-! ## Pre-build commands -/

namespace TaskRunner

variable {host : Host} {r : TaskRunner} {w w' : World}

/-- The processes that run a list of commands. -/
def shells (r : TaskRunner) (commands : List (Path × String)) : List Command :=
  commands.map fun (source, command) => r.shell source command

theorem calls_of_run_eq_ok {source : Path} {command : String} {result : TaskResult}
    (h : (r.run host source command).run w = .ok result w') :
    ∃ outcome, Calls host w [⟨r.shell source command, .ok outcome⟩] w' ∧
      (r.failOnError = true → outcome.exit.codeOr 1 = 0) := by
  obtain ⟨outcome, v, hstart, hrest⟩ := Activity.run_bind_eq_ok_iff.1 h
  dsimp only at hrest
  split at hrest
  next => cases hrest
  next hfine =>
    cases hrest
    refine ⟨outcome, .singleton (Activity.run_start_eq_ok_iff.1 hstart), fun hstrict => ?_⟩
    simpa [hstrict] using hfine

theorem calls_of_run_eq_error {source : Path} {command : String} {e : BuildError}
    (h : (r.run host source command).run w = .error e w') :
    (∃ cause, e = .spawn command cause ∧
      Calls host w [⟨r.shell source command, .error cause⟩] w') ∨
    (∃ outcome, e = .taskFailed source command (outcome.exit.codeOr 1) ∧ r.failOnError = true ∧
      outcome.exit.codeOr 1 ≠ 0 ∧ Calls host w [⟨r.shell source command, .ok outcome⟩] w') := by
  rcases Activity.run_bind_eq_error_iff.1 h with hstart | ⟨outcome, v, hstart, hrest⟩
  · obtain ⟨cause, hcall, rfl⟩ := Activity.run_start_eq_error_iff.1 hstart
    exact .inl ⟨cause, rfl, .singleton hcall⟩
  · dsimp only at hrest
    split at hrest
    next hfailed =>
      cases hrest
      exact .inr ⟨outcome, rfl, hfailed.1, hfailed.2,
        .singleton (Activity.run_start_eq_ok_iff.1 hstart)⟩
    next => cases hrest

/-- Commands that all ran were called in order, and succeeded if a failing one is an error. -/
theorem calls_of_runEach_eq_ok {commands : List (Path × String)} {results : List TaskResult}
    (h : (r.runEach host commands).run w = .ok results w') :
    ∃ calls, Calls host w calls w' ∧ calls.map (·.command) = r.shells commands ∧
      ∀ c ∈ calls, ∃ outcome, c.result = .ok outcome ∧
        (r.failOnError = true → outcome.exit.codeOr 1 = 0) := by
  induction commands generalizing w results with
  | nil =>
    cases h
    exact ⟨[], .nil _, rfl, by simp⟩
  | cons command rest ih =>
    obtain ⟨result, v, hfirst, hrest⟩ := Activity.run_bind_eq_ok_iff.1 h
    obtain ⟨others, v', hothers, hlast⟩ := Activity.run_bind_eq_ok_iff.1 hrest
    cases hlast
    obtain ⟨outcome, hcall, hfine⟩ := calls_of_run_eq_ok hfirst
    obtain ⟨calls, hcalls, hcommands, hall⟩ := ih hothers
    refine ⟨_, hcall.append hcalls, by simp [shells, hcommands], ?_⟩
    intro c hc
    rcases List.mem_cons.1 hc with rfl | hc
    · exact ⟨outcome, rfl, hfine⟩
    · exact hall c hc

/-- Commands stop at the first that cannot be started, or that fails where this is an error. -/
theorem calls_of_runEach_eq_error {commands : List (Path × String)} {e : BuildError}
    (h : (r.runEach host commands).run w = .error e w') :
    ∃ before last source command, Calls host w (before ++ [last]) w' ∧
      last.command = r.shell source command ∧
      (before ++ [last]).map (·.command) <+: r.shells commands ∧
      ((∃ cause, e = .spawn command cause ∧ last.result = .error cause) ∨
        ∃ outcome, e = .taskFailed source command (outcome.exit.codeOr 1) ∧ r.failOnError = true ∧
          outcome.exit.codeOr 1 ≠ 0 ∧ last.result = .ok outcome) := by
  induction commands generalizing w with
  | nil => cases h
  | cons first rest ih =>
    obtain ⟨source, command⟩ := first
    rcases Activity.run_bind_eq_error_iff.1 h with hfirst | ⟨result, v, hfirst, hrest⟩
    · -- the first command stops the phase
      rcases calls_of_run_eq_error hfirst with ⟨cause, he, hcall⟩ | ⟨outcome, he, hstrict, hne, hcall⟩
      · exact ⟨[], _, source, command, hcall, rfl, by simp [shells], .inl ⟨cause, he, rfl⟩⟩
      · exact ⟨[], _, source, command, hcall, rfl, by simp [shells],
          .inr ⟨outcome, he, hstrict, hne, rfl⟩⟩
    · rcases Activity.run_bind_eq_error_iff.1 hrest with hothers | ⟨others, v', hothers, hlast⟩
      · obtain ⟨outcome, hcall, -⟩ := calls_of_run_eq_ok hfirst
        obtain ⟨before, last, source', command', hcalls, hlast, hprefix, hcause⟩ := ih hothers
        refine ⟨⟨r.shell source command, .ok outcome⟩ :: before, last, source', command',
          hcall.append hcalls, hlast, ?_, hcause⟩
        simpa [shells] using hprefix
      · cases hlast

/-- Running a queue reports what came of its commands, and fails as they do. -/
theorem run_runAll_eq_ok {tasks : List CompileTask} {report : TaskReport}
    (h : (r.runAll host tasks).run w = .ok report w') :
    ∃ results, (r.runEach host (commands tasks)).run w = .ok results w' := by
  obtain ⟨results, v, hresults, hlast⟩ := Activity.run_bind_eq_ok_iff.1 h
  cases hlast
  exact ⟨results, hresults⟩

theorem run_runAll_eq_error {tasks : List CompileTask} {e : BuildError}
    (h : (r.runAll host tasks).run w = .error e w') :
    (r.runEach host (commands tasks)).run w = .error e w' := by
  rcases Activity.run_bind_eq_error_iff.1 h with hresults | ⟨results, v, hresults, hlast⟩
  · exact hresults
  · cases hlast

end TaskRunner

/-! ## Compilers -/

namespace Compiler

theorem call_of_compileOne (host : Host) (c : Compiler) (f : FlagSet) (t : CompileTask) (w : World) :
    ∃ result, w.start host (c.command f t) = (result, (compileOne host c f t w).2) ∧
      Call.isSuccess ⟨c.command f t, result⟩ = (compileOne host c f t w).1 := by
  rw [compileOne]
  rcases w.start host (c.command f t) with ⟨_ | outcome, v⟩
  · exact ⟨_, rfl, rfl⟩
  · exact ⟨_, rfl, rfl⟩

/-- Every task at a place of the list is tried once, whatever comes of the others; the places that
are reported are those whose call did not succeed. -/
theorem calls_of_compileAt (host : Host) (c : Compiler) (f : FlagSet) {tasks : List CompileTask}
    {places : List Nat} (w : World) (hplaces : ∀ i ∈ places, i < tasks.length)
    (hnodup : places.Nodup) :
    ∃ outcome : Nat → Call,
      Calls host w (places.map outcome) (compileAt host c f tasks places w).2 ∧
      (∀ i ∈ places, ∀ t, tasks[i]? = some t → (outcome i).command = c.command f t) ∧
      (compileAt host c f tasks places w).1 = places.filter fun i => !(outcome i).isSuccess := by
  induction places generalizing w with
  | nil => exact ⟨fun _ => ⟨⟨"", [], ⟨""⟩, []⟩, .error .notFound⟩, .nil w, by simp, rfl⟩
  | cons i rest ih =>
    obtain ⟨hi, hrest⟩ := List.forall_mem_cons.1 hplaces
    obtain ⟨hnot, hnodup⟩ := List.nodup_cons.1 hnodup
    have hget : tasks[i]? = some tasks[i] := List.getElem?_eq_getElem hi
    -- the first place is tried, and the rest goes on from there, whatever came of it
    obtain ⟨result, hstart, hsuccess⟩ := call_of_compileOne host c f tasks[i] w
    obtain ⟨outcome, hcalls, hcommands, hfailed⟩ :=
      ih (compileOne host c f tasks[i] w).2 hrest hnodup
    rw [compileAt, hget]
    -- the place is new, so its call can join the others
    let call : Call := ⟨c.command f tasks[i], result⟩
    have hsame : ∀ j ∈ rest, Function.update outcome i call j = outcome j :=
      fun j hj => Function.update_of_ne (fun heq : j = i => hnot (heq ▸ hj)) call outcome
    have hself : Function.update outcome i call i = call := Function.update_self i call outcome
    refine ⟨Function.update outcome i call, ?_, ?_, ?_⟩
    · rw [List.map_cons, hself, List.map_congr_left hsame]
      exact .cons hstart hcalls
    · intro j hj t ht
      rcases List.mem_cons.1 hj with rfl | hj
      · obtain rfl : tasks[j] = t := Option.some.inj (hget.symm.trans ht)
        rw [hself]
      · rw [hsame j hj]
        exact hcommands j hj t ht
    · have hfilter : rest.filter (fun j => !(Function.update outcome i call j).isSuccess) =
          rest.filter fun j => !(outcome j).isSuccess :=
        List.filter_congr fun j hj => by rw [hsame j hj]
      rw [List.filter_cons, hself, hsuccess, hfilter, ← hfailed]
      cases hone : (compileOne host c f tasks[i] w).1 <;> simp [hone]

/-- A queue is compiled with one call for every place of it, and the report lists the sources of the
places whose call did not succeed, in the order of the queue. -/
theorem calls_of_compile (host : Host) (c : Compiler) (f : FlagSet) (tasks : List CompileTask)
    (w : World) :
    ∃ (calls : List Call) (outcome : Nat → Call),
      Calls host w calls (c.compile host f tasks w).2 ∧
      calls.Perm ((List.range tasks.length).map outcome) ∧
      (∀ i t, tasks[i]? = some t → (outcome i).command = c.command f t) ∧
      (c.compile host f tasks w).1 = ⟨tasks.length,
        (tasks.zipIdx.filter fun (_, i) => !(outcome i).isSuccess).map (·.1.source)⟩ := by
  have hperm := host.order_perm c.limit tasks.length
  have hmem : ∀ i, i ∈ host.order c.limit tasks.length ↔ i < tasks.length := fun i => by
    rw [hperm.mem_iff, List.mem_range]
  obtain ⟨outcome, hcalls, hcommands, hfailed⟩ := calls_of_compileAt host c f w
    (fun i hi => (hmem i).1 hi) (hperm.nodup_iff.2 List.nodup_range)
  refine ⟨_, outcome, hcalls, hperm.map outcome, ?_, ?_⟩
  · intro i t ht
    exact hcommands i ((hmem i).2 (List.getElem?_eq_some_iff.1 ht).1) t ht
  · change report tasks (compileAt host c f tasks (host.order c.limit tasks.length) w).1 = _
    rw [report, hfailed]
    congr 2
    refine List.filter_congr ?_
    rintro ⟨t, i⟩ hi
    have hlt : i < tasks.length := by simpa using (List.mem_zipIdx hi).2.1
    simp [hmem, hlt]

end Compiler

/-! ## The final tool -/

namespace Linker

variable {host : Host} {l : Linker} {f : FlagSet} {endFlags : List String} {objects : List Path}
  {output : Path} {w w' : World}

theorem call_of_run_eq_ok (h : (l.run host f endFlags objects output).run w = .ok () w') :
    ∃ outcome, w.start host (l.command f endFlags objects output) = (.ok outcome, w') := by
  obtain ⟨outcome, v, hstart, hrest⟩ := Activity.run_bind_eq_ok_iff.1 h
  split at hrest
  · cases hrest
    exact ⟨outcome, Activity.run_start_eq_ok_iff.1 hstart⟩
  · cases hrest

theorem call_of_run_eq_error {e : BuildError}
    (h : (l.run host f endFlags objects output).run w = .error e w') :
    ∃ result, w.start host (l.command f endFlags objects output) = (result, w') ∧
      ((∃ cause, result = .error cause ∧ e = .spawn l.tool cause) ∨
        ∃ outcome, result = .ok outcome ∧ e = .link l.tool output (outcome.exit.codeOr (-1))) := by
  rcases Activity.run_bind_eq_error_iff.1 h with hstart | ⟨outcome, v, hstart, hrest⟩
  · obtain ⟨cause, hcall, rfl⟩ := Activity.run_start_eq_error_iff.1 hstart
    exact ⟨_, hcall, .inl ⟨cause, rfl, rfl⟩⟩
  · split at hrest
    · cases hrest
    · cases hrest
      exact ⟨_, Activity.run_start_eq_ok_iff.1 hstart, .inr ⟨outcome, rfl, rfl⟩⟩

end Linker

end VariantBuild
