import Mathlib.Algebra.BigOperators.Group.Finset.Piecewise
import Mathlib.Algebra.Order.BigOperators.Group.Finset
import Mathlib.Data.Nat.Find
import VariantBuild.Proofs.Build.Processes
/-!
# Batches of compiler processes

Each task of a queue gets a process. Without a limit all of them are started in the order of the queue, and
then their ends are awaited in that order. Under a limit a pool runs at most so many at a time, in any order,
and the ends are gone through once they are all there. In between, the processes take their turns in any order
(`Compiler.Step`).

Nothing of that can be told from what a queue comes to (`Compiler.unobservable`): no batch gets stuck or goes
on for ever, and at its end the report and the files are those of `Compiler.HasOutcome`, as they are if the
processes take effect one after the other.
-/

namespace VariantBuild

/-- The report with one more task in it. -/
def CompileReport.record (r : CompileReport) (source : Path) (success : Bool) : CompileReport :=
  ⟨r.completed + 1, if success then r.failures else r.failures ++ [source]⟩

/-- A queue on its way: the disk, how far the process at each place is, and the report so far. -/
structure Batch (m : Machine) where
  disk : Disk
  stages : Nat → Stage m.State
  report : CompileReport

namespace Batch

variable {m : Machine} {b : Batch m} {limit : Option Nat} {n i : Nat}

/-- A queue before anything is started. -/
def start (m : Machine) (d : Disk) : Batch m :=
  ⟨d, fun _ => .waiting, ⟨0, []⟩⟩

/-- Something that happens in a batch. -/
inductive Action where
  | turn (place : Nat)
  | record
deriving DecidableEq

/-- The batch after the process at a place has taken a turn. -/
def advance (b : Batch m) (command : Command) (i : Nat) : Batch m :=
  { b with
    disk := (m.turn command (b.stages i) b.disk).2
    stages := Function.update b.stages i (m.turn command (b.stages i) b.disk).1 }

theorem stages_advance_self (b : Batch m) (command : Command) (i : Nat) :
    (b.advance command i).stages i = (m.turn command (b.stages i) b.disk).1 :=
  Function.update_self ..

theorem stages_advance_of_ne (b : Batch m) (command : Command) {i j : Nat} (h : j ≠ i) :
    (b.advance command i).stages j = b.stages j :=
  Function.update_of_ne h ..

/-- How many of the first processes are running. -/
def running (b : Batch m) (n : Nat) : Nat :=
  ((List.range n).filter fun i => (b.stages i).isRunning).length

/-- Whether a process that waits may be started: after all before it, or when a worker is free. -/
def MayStart (limit : Option Nat) (n : Nat) (b : Batch m) (i : Nat) : Prop :=
  match limit with
  | none => ∀ j < i, b.stages j ≠ .waiting
  | some workers => b.running n < workers

/-- Whether an end may be recorded: when all processes have been started, or when all have ended. -/
def MayRecord (limit : Option Nat) (n : Nat) (b : Batch m) : Prop :=
  match limit with
  | none => ∀ i < n, b.stages i ≠ .waiting
  | some _ => ∀ i < n, (b.stages i).isEnded = true

theorem mayRecord_of_isEnded (h : ∀ i < n, (b.stages i).isEnded = true) : MayRecord limit n b := by
  cases limit with
  | none =>
    intro i hi hwaiting
    have hended := h i hi
    rw [hwaiting] at hended
    cases hended
  | some workers => exact h

theorem running_eq_zero (h : ∀ i < n, (b.stages i).isRunning = false) : b.running n = 0 := by
  rw [running, List.length_eq_zero_iff, List.filter_eq_nil_iff]
  intro i hi
  rw [h i (List.mem_range.1 hi)]
  exact Bool.false_ne_true

/-- If some process waits and none is running, one may be started. -/
theorem exists_mayStart (hpos : ∀ workers ∈ limit, 0 < workers)
    (hidle : ∀ i < n, (b.stages i).isRunning = false) (hwaiting : ∃ i < n, b.stages i = .waiting) :
    ∃ i < n, b.stages i = .waiting ∧ MayStart limit n b i := by
  classical
  obtain ⟨hlt, hfirst⟩ := Nat.find_spec hwaiting
  refine ⟨Nat.find hwaiting, hlt, hfirst, ?_⟩
  cases limit with
  | none => exact fun j hj hjwaiting => Nat.find_min hwaiting hj ⟨hj.trans hlt, hjwaiting⟩
  | some workers =>
    rw [MayStart, running_eq_zero hidle]
    exact hpos workers rfl

end Batch

namespace Compiler

/-- The compiler under another limit. -/
def withJobs (c : Compiler) (jobs : Option Nat) : Compiler :=
  { c with jobs }

/-- What may happen next in a batch: a process that has not ended takes a turn, the first of which starts it,
or the end of the next process in the queue is recorded. -/
inductive Step (m : Machine) (c : Compiler) (f : FlagSet) (tasks : List CompileTask) :
    Batch m → Batch.Action → Batch m → Prop
  | turn {b : Batch m} {i : Nat} {t : CompileTask} (queued : tasks[i]? = some t)
      (unended : (b.stages i).isEnded = false)
      (free : b.stages i = .waiting → Batch.MayStart c.limit tasks.length b i) :
      Step m c f tasks b (.turn i) (b.advance (c.command f t) i)
  | record {b : Batch m} {t : CompileTask} {result : Except SystemError Outcome}
      (next : tasks[b.report.completed]? = some t)
      (ended : b.stages b.report.completed = .ended result)
      (free : Batch.MayRecord c.limit tasks.length b) :
      Step m c f tasks b .record { b with
        report := b.report.record t.source (Call.isSuccess ⟨c.command f t, result⟩) }

/-- What may happen in a batch one after the other. -/
inductive Run (m : Machine) (c : Compiler) (f : FlagSet) (tasks : List CompileTask) :
    Batch m → List Batch.Action → Batch m → Prop
  | nil (b : Batch m) : Run m c f tasks b [] b
  | snoc {b b' b'' : Batch m} {actions : List Batch.Action} {a : Batch.Action}
      (before : Run m c f tasks b actions b') (last : Step m c f tasks b' a b'') :
      Run m c f tasks b (actions ++ [a]) b''

/-- How many turns the process at each place has taken. -/
def turnsIn (actions : List Batch.Action) (i : Nat) : Nat :=
  actions.count (.turn i)

/-- Where a batch is after some actions. -/
structure Follows (host : Host) (m : Machine) (c : Compiler) (f : FlagSet)
    (inputs : CompileTask → List Path) (tasks : List CompileTask) (w : World) (actions : List Batch.Action)
    (b : Batch m) : Prop where
  interleaved : Interleaved m c f inputs tasks w.disk (turnsIn actions) b.disk
  stages : ∀ i t, tasks[i]? = some t →
    b.stages i = (m.alone (c.command f t) w.disk (turnsIn actions i)).1
  /-- No process takes more turns than it needs. -/
  turns_le : ∀ i t, tasks[i]? = some t → ∀ k,
    (m.alone (c.command f t) w.disk k).1.isEnded = true → turnsIn actions i ≤ k
  completed_le : b.report.completed ≤ tasks.length
  ended : ∀ i < b.report.completed, (b.stages i).isEnded = true
  failures : b.report.failures =
    ((tasks.take b.report.completed).filter fun t => !(c.compileOne host f t w).1).map (·.source)
  length_eq : actions.length = ∑ i ∈ Finset.range tasks.length, turnsIn actions i + b.report.completed

variable {m : Machine} {host : Host} {c : Compiler} {f : FlagSet} {inputs : CompileTask → List Path}
  {tasks : List CompileTask} {t : CompileTask} {w : World} {b b' : Batch m} {actions : List Batch.Action}
  {a : Batch.Action} {i k : Nat}

/-! ## One step -/

theorem turnsIn_turn (actions : List Batch.Action) (i : Nat) :
    turnsIn (actions ++ [.turn i]) = Function.update (turnsIn actions) i (turnsIn actions i + 1) := by
  funext j
  by_cases hji : j = i
  · rw [hji, Function.update_self]
    simp [turnsIn]
  · rw [Function.update_of_ne hji]
    simp [turnsIn, List.count_append, Ne.symm hji]

theorem turnsIn_record (actions : List Batch.Action) : turnsIn (actions ++ [.record]) = turnsIn actions := by
  funext j
  simp [turnsIn, List.count_append]

/-- One more turn at one place is one more turn in all. -/
theorem sum_turnsIn_turn {n : Nat} (hi : i < n) : ∑ j ∈ Finset.range n, turnsIn (actions ++ [.turn i]) j =
    ∑ j ∈ Finset.range n, turnsIn actions j + 1 := by
  have hmem : i ∈ Finset.range n := Finset.mem_range.2 hi
  rw [turnsIn_turn, Finset.sum_update_of_mem hmem,
    Finset.sum_eq_add_sum_sdiff_singleton_of_mem hmem (turnsIn actions)]
  omega

namespace Follows

theorem start (host : Host) (m : Machine) (c : Compiler) (f : FlagSet) (inputs : CompileTask → List Path)
    (tasks : List CompileTask) (w : World) :
    Follows host m c f inputs tasks w [] (Batch.start m w.disk) where
  interleaved := Interleaved.start m c f inputs tasks w.disk
  stages _ _ _ := rfl
  turns_le _ _ _ k _ := Nat.zero_le k
  completed_le := Nat.zero_le _
  ended i hi := absurd hi (Nat.not_lt_zero i)
  failures := rfl
  length_eq := by simp [turnsIn, Batch.start]

theorem turn (h : Follows host m c f inputs tasks w actions b) (hdistinct : Distinct inputs tasks)
    (hisolated : Isolated m c f inputs tasks w.disk) (hi : tasks[i]? = some t)
    (hunended : (b.stages i).isEnded = false) :
    Follows host m c f inputs tasks w (actions ++ [.turn i]) (b.advance (c.command f t) i) := by
  have hstage := h.stages i t hi
  obtain ⟨hnext, hinterleaved⟩ := h.interleaved.turn hdistinct hisolated hi
  rw [← hstage] at hnext hinterleaved
  refine ⟨?_, fun j u hj => ?_, fun j u hj k hk => ?_, h.completed_le, fun j hj => ?_, h.failures, ?_⟩
  · rw [turnsIn_turn]
    exact hinterleaved
  · rw [turnsIn_turn]
    by_cases hji : j = i
    · subst hji
      obtain rfl := Option.some.inj (hi.symm.trans hj)
      rw [Batch.stages_advance_self, Function.update_self]
      exact hnext
    · rw [Batch.stages_advance_of_ne b _ hji, Function.update_of_ne hji]
      exact h.stages j u hj
  · rw [turnsIn_turn]
    have hle := h.turns_le j u hj k hk
    by_cases hji : j = i
    · subst hji
      obtain rfl := Option.some.inj (hi.symm.trans hj)
      rw [Function.update_self]
      -- at its last turn the process has ended already
      refine Nat.succ_le_of_lt (lt_of_le_of_ne hle fun heq => ?_)
      rw [← heq, ← hstage, hunended] at hk
      cases hk
    · rw [Function.update_of_ne hji]
      exact hle
  · have hji : j ≠ i := by
      rintro rfl
      rw [h.ended j hj] at hunended
      cases hunended
    rw [Batch.stages_advance_of_ne b _ hji]
    exact h.ended j hj
  · rw [List.length_append, h.length_eq, sum_turnsIn_turn (List.getElem?_eq_some_iff.1 hi).1,
      List.length_singleton]
    exact Nat.add_right_comm _ _ 1

theorem record (h : Follows host m c f inputs tasks w actions b)
    (hperformed : m.PerformedBy host (c.command f t)) {result : Except SystemError Outcome}
    (hnext : tasks[b.report.completed]? = some t) (hended : b.stages b.report.completed = .ended result) :
    Follows host m c f inputs tasks w (actions ++ [.record]) { b with
      report := b.report.record t.source (Call.isSuccess ⟨c.command f t, result⟩) } := by
  obtain ⟨hlt, hget⟩ := List.getElem?_eq_some_iff.1 hnext
  have hstage := (h.stages _ t hnext).symm.trans hended
  obtain ⟨hsuccess, -⟩ := compileOne_of_ended hperformed w hstage
  refine ⟨?_, ?_, ?_, Nat.succ_le_of_lt hlt, fun j hj => ?_, ?_, ?_⟩
  · rw [turnsIn_record]
    exact h.interleaved
  · rw [turnsIn_record]
    exact h.stages
  · rw [turnsIn_record]
    exact h.turns_le
  · rcases Nat.lt_succ_iff_lt_or_eq.1 hj with hj | rfl
    · exact h.ended j hj
    · rw [hended]
      rfl
  · have htake : tasks.take (b.report.completed + 1) = tasks.take b.report.completed ++ [t] := by
      rw [List.take_add_one, hnext]
      rfl
    change (if _ then b.report.failures else b.report.failures ++ [t.source]) = List.map _ (List.filter _
      (tasks.take (b.report.completed + 1)))
    rw [htake, List.filter_append, List.map_append, ← h.failures, ← hsuccess]
    cases hone : (c.compileOne host f t w).1 <;> simp [hone]
  · rw [turnsIn_record, List.length_append, h.length_eq, List.length_singleton]
    exact Nat.add_assoc _ _ 1

/-- Whatever happens next, the batch is where it has to be. -/
theorem step (h : Follows host m c f inputs tasks w actions b)
    (hperformed : ∀ t ∈ tasks, m.PerformedBy host (c.command f t)) (hdistinct : Distinct inputs tasks)
    (hisolated : Isolated m c f inputs tasks w.disk) (hstep : Step m c f tasks b a b') :
    Follows host m c f inputs tasks w (actions ++ [a]) b' := by
  cases hstep with
  | turn hqueued hunended _ => exact h.turn hdistinct hisolated hqueued hunended
  | record hnext hended _ => exact h.record (hperformed _ (List.mem_of_getElem? hnext)) hnext hended

end Follows

/-! ## Whole runs -/

/-- A batch follows what its processes do alone. -/
theorem follows_of_run (hperformed : ∀ t ∈ tasks, m.PerformedBy host (c.command f t))
    (hdistinct : Distinct inputs tasks) (hisolated : Isolated m c f inputs tasks w.disk)
    (hrun : Run m c f tasks (Batch.start m w.disk) actions b) :
    Follows host m c f inputs tasks w actions b := by
  induction hrun with
  | nil => exact Follows.start host m c f inputs tasks w
  | snoc _ hlast ih => exact ih.step hperformed hdistinct hisolated hlast

/-- At its end a batch has come to the outcome of its tasks. -/
theorem Follows.hasOutcome (h : Follows host m c f inputs tasks w actions b)
    (hperformed : ∀ t ∈ tasks, m.PerformedBy host (c.command f t))
    (hcomplete : b.report.completed = tasks.length) : HasOutcome host c f tasks w b.report b.disk := by
  have hreport : b.report =
      ⟨tasks.length, (tasks.filter fun t => !(c.compileOne host f t w).1).map (·.source)⟩ := by
    have hfailures := h.failures
    rw [hcomplete, List.take_length] at hfailures
    rw [← hcomplete, ← hfailures]
  rw [hreport]
  refine hasOutcome_of_ended hperformed h.interleaved fun i t hi => ?_
  have hlt : i < b.report.completed := hcomplete ▸ (List.getElem?_eq_some_iff.1 hi).1
  rw [← h.stages i t hi]
  cases hstage : b.stages i with
  | ended result => exact ⟨result, rfl⟩
  | _ =>
    have hended := h.ended i hlt
    rw [hstage] at hended
    cases hended

/-- A batch that is not at its end goes on. -/
theorem exists_step (b : Batch m) (hlt : b.report.completed < tasks.length) :
    ∃ a b', Step m c f tasks b a b' := by
  have hget : ∀ {i}, i < tasks.length → ∃ t, tasks[i]? = some t := fun hi =>
    ⟨_, List.getElem?_eq_getElem hi⟩
  by_cases hrunning : ∃ i < tasks.length, (b.stages i).isRunning = true
  · obtain ⟨i, hi, hstage⟩ := hrunning
    obtain ⟨t, ht⟩ := hget hi
    refine ⟨_, _, .turn ht ?_ fun hwaiting => ?_⟩
    · cases hb : b.stages i <;> simp_all [Stage.isRunning, Stage.isEnded]
    · rw [hwaiting] at hstage
      cases hstage
  have hidle : ∀ i < tasks.length, (b.stages i).isRunning = false := fun i hi =>
    Bool.eq_false_iff.2 fun hstage => hrunning ⟨i, hi, hstage⟩
  by_cases hwaiting : ∃ i < tasks.length, b.stages i = .waiting
  · have hpos : ∀ workers ∈ c.limit, 0 < workers := fun workers h => by
      simpa using (Option.mem_filter_iff.1 h).2
    obtain ⟨i, hi, hstage, hfree⟩ := Batch.exists_mayStart hpos hidle hwaiting
    obtain ⟨t, ht⟩ := hget hi
    refine ⟨_, _, .turn ht ?_ fun _ => hfree⟩
    rw [hstage]
    rfl
  · have hended : ∀ i < tasks.length, (b.stages i).isEnded = true := fun i hi => by
      cases hb : b.stages i with
      | waiting => exact absurd ⟨i, hi, hb⟩ hwaiting
      | running s =>
        have hstage := hidle i hi
        rw [hb] at hstage
        cases hstage
      | ended result => rfl
    obtain ⟨t, ht⟩ := hget hlt
    cases hb : b.stages b.report.completed with
    | ended result => exact ⟨_, _, .record ht hb (Batch.mayRecord_of_isEnded hended)⟩
    | _ =>
      have hstage := hended _ hlt
      rw [hb] at hstage
      cases hstage

/-- A run is no longer than its processes and its queue. -/
theorem Follows.length_le (h : Follows host m c f inputs tasks w actions b) {ends : Nat → Nat}
    (hends : ∀ i t, tasks[i]? = some t → (m.alone (c.command f t) w.disk (ends i)).1.isEnded = true) :
    actions.length ≤ ∑ i ∈ Finset.range tasks.length, ends i + tasks.length := by
  rw [h.length_eq]
  refine Nat.add_le_add (Finset.sum_le_sum fun i hi => ?_) h.completed_le
  have hget := List.getElem?_eq_getElem (Finset.mem_range.1 hi)
  exact h.turns_le i _ hget _ (hends i _ hget)

/-! ## Every order, every limit -/

/-- The limit has no part in what a process may read and write. -/
theorem Isolated.withJobs (h : Isolated m c f inputs tasks w.disk) (jobs : Option Nat) :
    Isolated m (c.withJobs jobs) f inputs tasks w.disk where
  reads := h.reads
  writes t ht stage d hd :=
    let hwrites := h.writes t ht stage d hd
    ⟨hwrites.directories, hwrites.elsewhere, hwrites.others⟩

/-- The limit has no part in what a task comes to alone. -/
theorem HasOutcome.of_withJobs {jobs : Option Nat} {report : CompileReport} {d : Disk}
    (h : HasOutcome host (c.withJobs jobs) f tasks w report d) : HasOutcome host c f tasks w report d :=
  ⟨h.report, h.objects, h.elsewhere, h.directories⟩

/-- The sources that failed are among the tasks that were completed. -/
theorem HasOutcome.failures_length_le {report : CompileReport} {d : Disk}
    (h : HasOutcome host c f tasks w report d) : report.failures.length ≤ report.completed := by
  rw [h.report, List.length_map]
  exact List.length_filter_le _ tasks

/-- Neither the limit nor the order in which processes run and end can be told from what a queue comes to. -/
structure Unobservable (m : Machine) (host : Host) (c : Compiler) (f : FlagSet) (tasks : List CompileTask)
    (w : World) : Prop where
  /-- Processes that take effect one after the other, in any order that a host has them in. -/
  compile : ∀ host', (∀ t ∈ tasks, m.PerformedBy host' (c.command f t)) → ∀ jobs,
    HasOutcome host c f tasks w ((c.withJobs jobs).compile host' f tasks w).1
      ((c.withJobs jobs).compile host' f tasks w).2.disk
  /-- Processes that take turns. -/
  run : ∀ jobs actions b, Run m (c.withJobs jobs) f tasks (Batch.start m w.disk) actions b →
    b.report.completed = tasks.length → HasOutcome host c f tasks w b.report b.disk
  /-- Every batch gets to its end. -/
  progress : ∀ jobs actions b, Run m (c.withJobs jobs) f tasks (Batch.start m w.disk) actions b →
    b.report.completed = tasks.length ∨ ∃ a b', Step m (c.withJobs jobs) f tasks b a b'
  bounded : ∃ bound, ∀ jobs actions b, Run m (c.withJobs jobs) f tasks (Batch.start m w.disk) actions b →
    actions.length ≤ bound
  /-- There is one report, and one disk as far as it can be read. -/
  unique : ∀ report d report' d', HasOutcome host c f tasks w report d →
    HasOutcome host c f tasks w report' d' → report' = report ∧ ∀ p, d'.readBytes p = d.readBytes p
  counted : ∀ report d, HasOutcome host c f tasks w report d →
    report.succeeded + report.failures.length = report.completed

/-- If every process reads only its inputs and writes only its object, the objects are distinct, and none is
what another task reads, then the limit and the order cannot be told from the report and the files. -/
theorem unobservable (hperformed : ∀ t ∈ tasks, m.PerformedBy host (c.command f t))
    (hdistinct : Distinct inputs tasks) (hisolated : Isolated m c f inputs tasks w.disk) :
    Unobservable m host c f tasks w where
  compile host' hperformed' jobs :=
    (hasOutcome_compile (c := c.withJobs jobs) hperformed hperformed' hdistinct
      (hisolated.withJobs jobs)).of_withJobs
  run jobs actions b hrun hcomplete :=
    ((follows_of_run (c := c.withJobs jobs) hperformed hdistinct (hisolated.withJobs jobs) hrun).hasOutcome
      hperformed hcomplete).of_withJobs
  progress jobs actions b hrun := by
    have hfollows := follows_of_run (c := c.withJobs jobs) hperformed hdistinct (hisolated.withJobs jobs) hrun
    exact (Nat.lt_or_eq_of_le hfollows.completed_le).symm.imp_right (exists_step b)
  bounded := by
    have hends : ∀ i : Nat, ∃ k, ∀ t, tasks[i]? = some t →
        (m.alone (c.command f t) w.disk k).1.isEnded = true := by
      intro i
      cases hi : tasks[i]? with
      | none => exact ⟨0, by simp⟩
      | some t =>
        obtain ⟨k, hk⟩ := hperformed t (List.mem_of_getElem? hi) w
        refine ⟨k, fun u hu => ?_⟩
        rw [← Option.some.inj hu, hk]
        rfl
    choose ends hends using hends
    refine ⟨∑ i ∈ Finset.range tasks.length, ends i + tasks.length, fun jobs actions b hrun => ?_⟩
    have hfollows := follows_of_run (c := c.withJobs jobs) hperformed hdistinct (hisolated.withJobs jobs) hrun
    exact hfollows.length_le hends
  unique _ _ _ _ h h' := h.unique h'
  counted report _ h := Nat.sub_add_cancel h.failures_length_le

end Compiler

/-! ## A compiler that copies -/

namespace Copying

open Compiler

/-- What a command is to copy, and where to. -/
def files (command : Command) : Option (Path × Path) :=
  match command.arguments with
  | [source, _, _, object] => some (command.directory.join ⟨source⟩, command.directory.join ⟨object⟩)
  | _ => none

/-- The end of a process with a code. -/
def ended (code : Int) : Outcome :=
  ⟨.code code, [], []⟩

/-- Puts what has been read into the object. -/
def write (object : Path) (bytes : ByteArray) (d : Disk) : Outcome × Disk :=
  match d.writeStamped object bytes d.clock with
  | .ok d => (ended 0, d)
  | .error _ => (ended 1, d)

/-- A program that reads its source and then writes it to its object. -/
def machine : Machine where
  State := Option ByteArray
  spawn command _ := if (files command).isSome then .ok none else .error .notFound
  step command s d :=
    match files command, s with
    | none, _ => (.inr (ended 1), d)
    | some (source, _), none =>
      match d.readBytes source with
      | .ok bytes => (.inl (some bytes), d)
      | .error _ => (.inr (ended 1), d)
    | some (_, object), some bytes => (.inr (write object bytes d).1, (write object bytes d).2)

/-- Runs that program at once; the last of a queue takes effect first. -/
def atOnce : Host where
  run command d :=
    match files command with
    | none => .error .notFound
    | some (source, object) =>
      match d.readBytes source with
      | .ok bytes => .ok (write object bytes d)
      | .error _ => .ok (ended 1, d)
  order _ n := (List.range n).reverse
  order_perm _ _ := List.reverse_perm _

theorem performedBy_atOnce (command : Command) : machine.PerformedBy atOnce command := by
  intro w
  by_cases hnul : command.texts.any holdsNul = true
  · exact ⟨1, by simp [Machine.alone, Machine.turn, Machine.launch, World.start, hnul]⟩
  cases hfiles : files command with
  | none =>
    exact ⟨1, by simp [Machine.alone, Machine.turn, Machine.launch, World.start, hnul, machine, atOnce, hfiles]⟩
  | some paths =>
    obtain ⟨source, object⟩ := paths
    cases hread : w.disk.readBytes source with
    | error e =>
      exact ⟨2, by
        simp [Machine.alone, Machine.turn, Machine.launch, World.start, hnul, machine, atOnce, hfiles, hread]⟩
    | ok bytes =>
      exact ⟨3, by
        simp [Machine.alone, Machine.turn, Machine.launch, World.start, hnul, machine, atOnce, hfiles, hread]⟩

/-- A file that can be written is there afterwards, and nothing else was changed. -/
theorem exists_write {d : Disk} {p : Path} {l : Location} (bytes : ByteArray) (hl : d.locate p = .ok l)
    (hnot : ∀ u, d.node? l ≠ some (.directory u)) :
    ∃ d', write p bytes d = (ended 0, d') ∧ Disk.Writes l d.clock d d' ∧
      d'.node? l = some (.file bytes d.clock) := by
  have hwritten : ∃ d', d.writeStamped p bytes d.clock = .ok d' ∧ d'.node? l = some (.file bytes d.clock) := by
    rw [Disk.writeStamped, hl]
    simp only [bind, Except.bind]
    rcases hn : d.node? l with _ | u | ⟨contents, u⟩
    · exact ⟨_, rfl, Disk.node?_set_self _ l _⟩
    · exact absurd hn (hnot u)
    · exact ⟨_, rfl, Disk.node?_set_self _ l _⟩
  obtain ⟨d', hwrite, hnode⟩ := hwritten
  obtain ⟨l', hl', hwrites⟩ := Disk.writes_of_writeStamped hwrite
  obtain rfl : l = l' := Except.ok.inj (hl.symm.trans hl')
  exact ⟨d', by rw [write, hwrite], hwrites, hnode⟩

/-- The task that makes an object of a source. -/
def task (source object : String) : CompileTask :=
  ⟨⟨source⟩, [], [], ⟨object⟩, [], .missingObject⟩

/-- Three tasks, one of which has no source. -/
def queue : List CompileTask :=
  [task "a.c" "a.o", task "missing.c" "missing.o", task "b.c" "b.o"]

/-- A task reads its source. -/
def inputs (t : CompileTask) : List Path :=
  [t.source]

/-- Two processes at a time. -/
def compiler : Compiler :=
  ⟨"cc", ⟨"/w"⟩, some 2⟩

def flags : FlagSet :=
  .new "host" "cc"

def disk : Disk where
  nodes := [([], .directory 0), (["w"], .directory 0), (["w", "a.c"], .file "a".toUTF8 0),
    (["w", "b.c"], .file "b".toUTF8 0)]
  here := []
  clock := 1

variable {t u : CompileTask} {q : Path} {d d' : Disk} {bytes : ByteArray}

theorem files_command (ht : t ∈ queue) : files (compiler.command flags t) =
    some (compiler.directory.join t.source, compiler.objectFile t) := by
  revert t
  decide

theorem locate_disk (ht : t ∈ queue) (hq : q ∈ t.object :: inputs t) (h : disk.SameDirectories d) :
    d.locate (compiler.directory.join q) = .ok ["w", q.text] := by
  have hall : ∀ t ∈ queue, ∀ q ∈ t.object :: inputs t,
      disk.locate (compiler.directory.join q) = .ok ["w", q.text] := by decide
  exact h.locate_eq (hall t ht q hq)

/-- The objects go into a directory, in which nothing is in their way. -/
theorem exists_write_object (ht : t ∈ queue) (h : disk.SameDirectories d) (bytes : ByteArray) :
    (∃ u, d.node? ["w"] = some (.directory u)) ∧ ∃ d', write (compiler.objectFile t) bytes d = (ended 0, d') ∧
      Disk.Writes ["w", t.object.text] d.clock d d' ∧
      d'.node? ["w", t.object.text] = some (.file bytes d.clock) := by
  have hfree : ∀ t ∈ queue, disk.node? ["w", t.object.text] = none := by decide
  refine ⟨(h.directory ["w"]).2 ⟨0, by decide⟩,
    exists_write bytes (locate_disk ht List.mem_cons_self h) fun u hu => ?_⟩
  obtain ⟨u', hu'⟩ := (h.directory _).1 ⟨u, hu⟩
  rw [hfree t ht] at hu'
  cases hu'

theorem writesOnly_write (ht : t ∈ queue) (h : disk.SameDirectories d) (bytes : ByteArray) :
    WritesOnly compiler inputs queue t d (write (compiler.objectFile t) bytes d).2 := by
  obtain ⟨hparent, d', hwrite, hwrites, -⟩ := exists_write_object ht h bytes
  rw [hwrite]
  refine ⟨hwrites.sameDirectories hparent, fun l hl => hwrites.file?_eq hparent ?_, fun u hu q hq hne => ?_⟩
  · rintro rfl
    exact hl (locate_disk ht List.mem_cons_self h)
  · have htext : q.text ≠ t.object.text := fun htext =>
      hne (congrArg Path.components (congrArg Path.mk htext : q = t.object))
    exact hwrites.readBytes_eq (locate_disk hu hq h) (by simpa using htext) (by simp)

theorem turn_reading {command : Command} {source object : Path} (h : files command = some (source, object))
    (d : Disk) : machine.turn command (.running none) d =
      match d.readBytes source with
      | .ok bytes => (.running (some bytes), d)
      | .error _ => (.ended (.ok (ended 1)), d) := by
  simp only [Machine.turn, machine, h]
  cases d.readBytes source <;> rfl

theorem turn_writing {command : Command} {source object : Path} (h : files command = some (source, object))
    (bytes : ByteArray) (d : Disk) : machine.turn command (.running (some bytes)) d =
      (.ended (.ok (write object bytes d).1), (write object bytes d).2) := by
  simp only [Machine.turn, machine, h]

/-- The program reads its source and its object, and writes its object. -/
theorem isolated : Isolated machine compiler flags inputs queue disk where
  reads t ht stage d d' hd hd' hagree := by
    have hfiles := files_command ht
    match stage with
    | .waiting => exact ⟨rfl, hagree⟩
    | .ended result => exact ⟨rfl, hagree⟩
    | .running none =>
      have hsource := hagree _ (List.mem_cons_of_mem _ List.mem_cons_self)
      rw [turn_reading hfiles, turn_reading hfiles, hsource]
      cases d.readBytes (compiler.directory.join t.source) <;> exact ⟨rfl, hagree⟩
    | .running (some bytes) =>
      obtain ⟨-, e, hwrite, hwrites, hnode⟩ := exists_write_object ht hd bytes
      obtain ⟨-, e', hwrite', hwrites', hnode'⟩ := exists_write_object ht hd' bytes
      rw [turn_writing hfiles, turn_writing hfiles, hwrite, hwrite']
      refine ⟨rfl, List.forall_mem_cons.2 ⟨?_, List.forall_mem_singleton.2 ?_⟩⟩
      · rw [Disk.readBytes_of_locate (hwrites.locate_eq (locate_disk ht List.mem_cons_self hd)),
          Disk.readBytes_of_locate (hwrites'.locate_eq (locate_disk ht List.mem_cons_self hd')), hnode, hnode']
      · have hne : ∀ t ∈ queue, t.source.text ≠ t.object.text := by decide
        have hmem : t.source ∈ t.object :: inputs t := List.mem_cons_of_mem _ List.mem_cons_self
        have hplace : ["w", t.source.text] ≠ ["w", t.object.text] := by simpa using hne t ht
        rw [hwrites.readBytes_eq (locate_disk ht hmem hd) hplace (by simp),
          hwrites'.readBytes_eq (locate_disk ht hmem hd') hplace (by simp)]
        exact hagree _ (List.mem_map_of_mem hmem)
  writes t ht stage d hd := by
    have hfiles := files_command ht
    have hkept : WritesOnly compiler inputs queue t d d := ⟨.refl d, fun _ _ => rfl, fun _ _ _ _ _ => rfl⟩
    match stage with
    | .waiting => exact hkept
    | .ended result => exact hkept
    | .running none =>
      rw [turn_reading hfiles]
      cases d.readBytes (compiler.directory.join t.source) <;> exact hkept
    | .running (some bytes) =>
      rw [turn_writing hfiles]
      exact writesOnly_write ht hd bytes

theorem queue_unobservable : (∀ t ∈ queue, machine.PerformedBy atOnce (compiler.command flags t)) ∧
    Distinct inputs queue ∧ Isolated machine compiler flags inputs queue (World.ofDisk disk).disk ∧
    Unobservable machine atOnce compiler flags queue (.ofDisk disk) :=
  have hdistinct : Distinct inputs queue := by unfold Distinct; decide
  ⟨fun _ _ => performedBy_atOnce _, hdistinct, isolated,
    unobservable (fun _ _ => performedBy_atOnce _) hdistinct isolated⟩

-- the last of the queue takes effect first, and the missing source is reported all the same
example : (compiler.compile atOnce flags queue (.ofDisk disk)).1 = ⟨3, [⟨"missing.c"⟩]⟩ := by decide

end Copying

end VariantBuild
