import Mathlib.Logic.Function.Basic
import VariantBuild.Proofs.Build.Calls
import VariantBuild.Proofs.Disk.Reading
/-!
# Processes that run side by side

A process takes effect a little at a time: it is started, goes on from state to state, reads and writes the
disk on its way, and ends (`Machine`). The processes of a queue of tasks take their turns in any order.

A process that reads only its own inputs and writes only its own object (`Isolated`) does not notice the
others. After any turns of all of them, each is where it would be if it were alone, and the disk looks to it
as if it were (`Interleaved`). What a queue comes to can therefore be told task by task (`Outcome`), and
compiling in whatever order comes to that (`Compiler.hasOutcome_compile`).
-/

namespace VariantBuild

/-! ## Processes -/

/-- How far a process is. -/
inductive Stage (State : Type) where
  | waiting
  | running (s : State)
  | ended (result : Except SystemError Outcome)

namespace Stage

variable {State : Type}

/-- Whether the process is neither to be started nor at its end. -/
def isRunning : Stage State → Bool
  | running _ => true
  | _ => false

/-- Whether the process is at its end, or could not be started. -/
def isEnded : Stage State → Bool
  | ended _ => true
  | _ => false

end Stage

/-- What programs do, one step at a time. -/
structure Machine where
  State : Type
  /-- Starts a command, or says why it cannot be started. -/
  spawn : Command → Disk → Except SystemError State
  /-- The next step of a process, after which it goes on or ends. -/
  step : Command → State → Disk → (State ⊕ Outcome) × Disk

namespace Machine

variable {m : Machine} {host : Host} {c : Command} {d : Disk} {w : World}

/-- A process that is just being started. A command with a NUL in it does not get so far. -/
def launch (m : Machine) (c : Command) (d : Disk) : Stage m.State :=
  if c.texts.any holdsNul then .ended (.error .nulInCommand)
  else match m.spawn c d with
    | .ok s => .running s
    | .error e => .ended (.error e)

/-- A process and the disk after its next turn. -/
def turn (m : Machine) (c : Command) : Stage m.State → Disk → Stage m.State × Disk
  | .waiting, d => (m.launch c d, d)
  | .running s, d =>
    match m.step c s d with
    | (.inl s, d) => (.running s, d)
    | (.inr outcome, d) => (.ended (.ok outcome), d)
  | .ended result, d => (.ended result, d)

/-- A process and the disk after some turns, if nothing else happens. -/
def alone (m : Machine) (c : Command) (d : Disk) : Nat → Stage m.State × Disk
  | 0 => (.waiting, d)
  | k + 1 => m.turn c (m.alone c d k).1 (m.alone c d k).2

/-- A host runs a command from its start to its end. -/
def PerformedBy (m : Machine) (host : Host) (c : Command) : Prop :=
  ∀ w : World, ∃ k, m.alone c w.disk k = (.ended (w.start host c).1, (w.start host c).2.disk)

/-- An ended process does nothing more. -/
theorem alone_add_of_ended {k : Nat} {result : Except SystemError Outcome}
    (h : (m.alone c d k).1 = .ended result) (n : Nat) : m.alone c d (k + n) = m.alone c d k := by
  induction n with
  | zero => rfl
  | succ n ih =>
    rw [← Nat.add_assoc, alone, ih, h, turn, ← h]

/-- A process that is alone has one end. -/
theorem alone_eq_of_ended {k k' : Nat} {result result' : Except SystemError Outcome}
    (h : (m.alone c d k).1 = .ended result) (h' : (m.alone c d k').1 = .ended result') :
    m.alone c d k = m.alone c d k' := by
  rcases Nat.le_total k k' with hle | hle
  · obtain ⟨n, rfl⟩ := Nat.exists_eq_add_of_le hle
    exact (alone_add_of_ended h n).symm
  · obtain ⟨n, rfl⟩ := Nat.exists_eq_add_of_le hle
    exact alone_add_of_ended h' n

/-- A process that has ended has come to what the host makes of it. -/
theorem PerformedBy.alone_eq (h : m.PerformedBy host c) (w : World) {k : Nat}
    {result : Except SystemError Outcome} (hended : (m.alone c w.disk k).1 = .ended result) :
    m.alone c w.disk k = (.ended (w.start host c).1, (w.start host c).2.disk) := by
  obtain ⟨K, hK⟩ := h w
  rw [alone_eq_of_ended hended (congrArg Prod.fst hK), hK]

end Machine

/-! ## Processes that keep to themselves -/

namespace Compiler

/-- The file that a task is to make. -/
def objectFile (c : Compiler) (t : CompileTask) : Path :=
  c.directory.join t.object

/-- The files that a task has to do with: its object and what it reads, which is its source, its dependencies
and what these include. -/
def view (c : Compiler) (inputs : CompileTask → List Path) (t : CompileTask) : List Path :=
  (t.object :: inputs t).map c.directory.join

/-- The objects are pairwise distinct, and none is what another task reads. -/
def Distinct (inputs : CompileTask → List Path) (tasks : List CompileTask) : Prop :=
  tasks.Pairwise fun t u => ¬ t.object.SamePlace u.object ∧
    (∀ q ∈ inputs u, ¬ q.SamePlace t.object) ∧ ∀ q ∈ inputs t, ¬ q.SamePlace u.object

/-- Nothing has been changed but the object of a task: no directory, no other file, and nothing that another
path of the queue reads. -/
structure WritesOnly (c : Compiler) (inputs : CompileTask → List Path) (tasks : List CompileTask)
    (t : CompileTask) (d d' : Disk) : Prop where
  directories : d.SameDirectories d'
  elsewhere : ∀ l, d.locate (c.objectFile t) ≠ .ok l → d'.file? l = d.file? l
  others : ∀ u ∈ tasks, ∀ q ∈ u.object :: inputs u, ¬ q.SamePlace t.object →
    d'.readBytes (c.directory.join q) = d.readBytes (c.directory.join q)

/-- On disks with the directories of a given one, the processes of a queue read only what their tasks have to
do with, and write only their objects. -/
structure Isolated (m : Machine) (c : Compiler) (f : FlagSet) (inputs : CompileTask → List Path)
    (tasks : List CompileTask) (d₀ : Disk) : Prop where
  reads : ∀ t ∈ tasks, ∀ stage d d', d₀.SameDirectories d → d₀.SameDirectories d' →
    d.AgreeOn (c.view inputs t) d' →
      (m.turn (c.command f t) stage d').1 = (m.turn (c.command f t) stage d).1 ∧
        (m.turn (c.command f t) stage d).2.AgreeOn (c.view inputs t) (m.turn (c.command f t) stage d').2
  writes : ∀ t ∈ tasks, ∀ stage d, d₀.SameDirectories d →
    WritesOnly c inputs tasks t d (m.turn (c.command f t) stage d).2

/-- The disk after the process at each place of a queue has taken some turns: it looks to each as if the
others had taken none, and a file that is no object is as it was. -/
structure Interleaved (m : Machine) (c : Compiler) (f : FlagSet) (inputs : CompileTask → List Path)
    (tasks : List CompileTask) (d₀ : Disk) (turns : Nat → Nat) (d : Disk) : Prop where
  directories : d₀.SameDirectories d
  elsewhere : ∀ l, (∀ t ∈ tasks, d₀.locate (c.objectFile t) ≠ .ok l) → d.file? l = d₀.file? l
  views : ∀ i t, tasks[i]? = some t →
    (m.alone (c.command f t) d₀ (turns i)).2.AgreeOn (c.view inputs t) d

variable {m : Machine} {host : Host} {c : Compiler} {f : FlagSet} {inputs : CompileTask → List Path}
  {tasks : List CompileTask} {t u : CompileTask} {d₀ d : Disk} {turns : Nat → Nat} {i j : Nat} {w w₀ : World}

/-- No file of a task is the object of the task at another place. -/
theorem Distinct.not_samePlace (h : Distinct inputs tasks) (hi : tasks[i]? = some t)
    (hj : tasks[j]? = some u) (hne : i ≠ j) : ∀ q ∈ u.object :: inputs u, ¬ q.SamePlace t.object := by
  obtain ⟨hilt, rfl⟩ := List.getElem?_eq_some_iff.1 hi
  obtain ⟨hjlt, rfl⟩ := List.getElem?_eq_some_iff.1 hj
  have hpair := List.pairwise_iff_getElem.1 h
  refine List.forall_mem_cons.2 ?_
  rcases Nat.lt_or_gt_of_ne hne with hlt | hlt
  · obtain ⟨hobject, hinputs, -⟩ := hpair i j hilt hjlt hlt
    exact ⟨fun hsame => hobject hsame.symm, hinputs⟩
  · obtain ⟨hobject, -, hinputs⟩ := hpair j i hjlt hilt hlt
    exact ⟨hobject, hinputs⟩

namespace Isolated

/-- A process that is alone keeps all directories. -/
theorem directories_alone (h : Isolated m c f inputs tasks d₀) (ht : t ∈ tasks) (k : Nat) :
    d₀.SameDirectories (m.alone (c.command f t) d₀ k).2 := by
  induction k with
  | zero => exact .refl d₀
  | succ k ih => exact ih.trans (h.writes t ht _ _ ih).directories

end Isolated

namespace Interleaved

theorem start (m : Machine) (c : Compiler) (f : FlagSet) (inputs : CompileTask → List Path)
    (tasks : List CompileTask) (d₀ : Disk) : Interleaved m c f inputs tasks d₀ (fun _ => 0) d₀ where
  directories := .refl d₀
  elsewhere _ _ := rfl
  views _ _ _ _ _ := rfl

/-- A process takes its turn as if it were alone, and the others do not notice. -/
theorem turn (h : Interleaved m c f inputs tasks d₀ turns d) (hdistinct : Distinct inputs tasks)
    (hisolated : Isolated m c f inputs tasks d₀) (hi : tasks[i]? = some t) :
    (m.turn (c.command f t) (m.alone (c.command f t) d₀ (turns i)).1 d).1 =
        (m.alone (c.command f t) d₀ (turns i + 1)).1 ∧
      Interleaved m c f inputs tasks d₀ (Function.update turns i (turns i + 1))
        (m.turn (c.command f t) (m.alone (c.command f t) d₀ (turns i)).1 d).2 := by
  have ht : t ∈ tasks := List.mem_of_getElem? hi
  obtain ⟨hstage, hview⟩ := hisolated.reads t ht (m.alone (c.command f t) d₀ (turns i)).1 _ _
    (hisolated.directories_alone ht _) h.directories (h.views i t hi)
  have hwrites := hisolated.writes t ht (m.alone (c.command f t) d₀ (turns i)).1 d h.directories
  refine ⟨hstage, h.directories.trans hwrites.directories, fun l hl => ?_, fun j u hj => ?_⟩
  · -- the object is where it was at first
    have hnot : d.locate (c.objectFile t) ≠ .ok l := fun heq =>
      hl t ht (h.directories.locate_eq_ok_iff.1 heq)
    exact (hwrites.elsewhere l hnot).trans (h.elsewhere l hl)
  · by_cases hji : j = i
    · subst hji
      obtain rfl := Option.some.inj (hi.symm.trans hj)
      rw [Function.update_self]
      exact hview
    · rw [Function.update_of_ne hji]
      refine (h.views j u hj).trans fun p hp => ?_
      obtain ⟨q, hq, rfl⟩ := List.mem_map.1 hp
      exact hwrites.others u (List.mem_of_getElem? hj) q hq
        (hdistinct.not_samePlace hi hj (Ne.symm hji) q hq)

/-- A process that starts now and takes all its turns at once comes as far as from the first disk. -/
theorem alone (h : Interleaved m c f inputs tasks d₀ turns d) (hdistinct : Distinct inputs tasks)
    (hisolated : Isolated m c f inputs tasks d₀) (hi : tasks[i]? = some t) (hzero : turns i = 0) (k : Nat) :
    (m.alone (c.command f t) d k).1 = (m.alone (c.command f t) d₀ k).1 ∧
      Interleaved m c f inputs tasks d₀ (Function.update turns i k) (m.alone (c.command f t) d k).2 := by
  induction k with
  | zero =>
    have hsame : Function.update turns i 0 = turns := by
      conv_lhs => rw [← hzero, Function.update_eq_self]
    exact ⟨rfl, by rw [hsame]; exact h⟩
  | succ k ih =>
    obtain ⟨hstage, hinterleaved⟩ := ih
    have hnext := hinterleaved.turn hdistinct hisolated hi
    rw [Function.update_self, Function.update_idem] at hnext
    rw [Machine.alone, hstage]
    exact hnext

end Interleaved

/-! ## What a queue comes to -/

/-- A report on a queue and a disk, told task by task: what is reported of each, and the object that is
there, are those of the task if it is compiled alone. -/
structure HasOutcome (host : Host) (c : Compiler) (f : FlagSet) (tasks : List CompileTask) (w : World)
    (report : CompileReport) (d : Disk) : Prop where
  report : report =
    ⟨tasks.length, (tasks.filter fun t => !(c.compileOne host f t w).1).map (·.source)⟩
  objects : ∀ t ∈ tasks,
    d.readBytes (c.objectFile t) = (c.compileOne host f t w).2.disk.readBytes (c.objectFile t)
  elsewhere : ∀ l, (∀ t ∈ tasks, w.disk.locate (c.objectFile t) ≠ .ok l) → d.file? l = w.disk.file? l
  directories : w.disk.SameDirectories d

/-- What a queue comes to is settled: the report, and what every path reads. -/
theorem HasOutcome.unique {report report' : CompileReport} {d' : Disk}
    (h : HasOutcome host c f tasks w report d) (h' : HasOutcome host c f tasks w report' d') :
    report' = report ∧ ∀ p, d'.readBytes p = d.readBytes p := by
  have hdirectories : d.SameDirectories d' := h.directories.symm.trans h'.directories
  refine ⟨h'.report.trans h.report.symm,
    (hdirectories.sameContents fun l => ?_).readBytes_eq hdirectories.here⟩
  by_cases hobject : ∃ t ∈ tasks, w.disk.locate (c.objectFile t) = .ok l
  · obtain ⟨t, ht, hl⟩ := hobject
    rw [Disk.contents?_of_locate (h.directories.locate_eq hl),
      Disk.contents?_of_locate (h'.directories.locate_eq hl), h.objects t ht, h'.objects t ht]
  · have hnone : ∀ t ∈ tasks, w.disk.locate (c.objectFile t) ≠ .ok l := fun t ht hl => hobject ⟨t, ht, hl⟩
    rw [Disk.contents?_eq_map_file?, Disk.contents?_eq_map_file?, h.elsewhere l hnone, h'.elsewhere l hnone]

/-- Compiling one file runs its process to the end. -/
theorem compileOne_of_ended (hperformed : m.PerformedBy host (c.command f t)) (w : World) {k : Nat}
    {result : Except SystemError Outcome} (hended : (m.alone (c.command f t) w.disk k).1 = .ended result) :
    (c.compileOne host f t w).1 = Call.isSuccess ⟨c.command f t, result⟩ ∧
      (c.compileOne host f t w).2.disk = (m.alone (c.command f t) w.disk k).2 := by
  obtain ⟨result', hstart, hsuccess⟩ := call_of_compileOne host c f t w
  have halone := hperformed.alone_eq w hended
  rw [hstart] at halone
  have hresult : result = result' := Stage.ended.inj (hended.symm.trans (congrArg Prod.fst halone))
  exact ⟨hresult ▸ hsuccess.symm, (congrArg Prod.snd halone).symm⟩

/-- When every process has ended, each object is the one that its task alone makes. -/
theorem hasOutcome_of_ended (hperformed : ∀ t ∈ tasks, m.PerformedBy host (c.command f t))
    (h : Interleaved m c f inputs tasks w.disk turns d)
    (hended : ∀ i t, tasks[i]? = some t →
      ∃ result, (m.alone (c.command f t) w.disk (turns i)).1 = .ended result) :
    HasOutcome host c f tasks w
      ⟨tasks.length, (tasks.filter fun t => !(c.compileOne host f t w).1).map (·.source)⟩ d where
  report := rfl
  objects t ht := by
    obtain ⟨i, hi⟩ := List.getElem?_of_mem ht
    obtain ⟨result, hresult⟩ := hended i t hi
    rw [(compileOne_of_ended (hperformed t ht) w hresult).2]
    exact h.views i t hi _ (List.mem_map_of_mem List.mem_cons_self)
  elsewhere := h.elsewhere
  directories := h.directories

/-! ## Compiling one after the other -/

variable {host' : Host}

/-- Whether the task at a place fails if it is compiled alone. -/
def failsAt (host : Host) (c : Compiler) (f : FlagSet) (tasks : List CompileTask) (w : World) (i : Nat) : Bool :=
  tasks[i]?.any fun t => !(c.compileOne host f t w).1

/-- A process that runs to its end among the others comes to what it comes to alone. -/
theorem Interleaved.compileOne (h : Interleaved m c f inputs tasks w₀.disk turns w.disk)
    (hperformed : m.PerformedBy host (c.command f t)) (hperformed' : m.PerformedBy host' (c.command f t))
    (hdistinct : Distinct inputs tasks) (hisolated : Isolated m c f inputs tasks w₀.disk)
    (hi : tasks[i]? = some t) (hzero : turns i = 0) :
    ∃ k result, (m.alone (c.command f t) w₀.disk k).1 = .ended result ∧
      (c.compileOne host' f t w).1 = (c.compileOne host f t w₀).1 ∧
      Interleaved m c f inputs tasks w₀.disk (Function.update turns i k) (c.compileOne host' f t w).2.disk := by
  obtain ⟨k, hk⟩ := hperformed' w
  obtain ⟨hstage, hinterleaved⟩ := h.alone hdistinct hisolated hi hzero k
  have hended := congrArg Prod.fst hk
  have hended₀ := hstage.symm.trans hended
  obtain ⟨hsuccess', hdisk'⟩ := compileOne_of_ended hperformed' w hended
  obtain ⟨hsuccess, -⟩ := compileOne_of_ended hperformed w₀ hended₀
  exact ⟨k, _, hended₀, hsuccess'.trans hsuccess.symm, hdisk' ▸ hinterleaved⟩

/-- Compiling at some places, one after the other, runs the processes there to their ends; the places that
fail are those of tasks that fail alone. -/
theorem exists_interleaved_compileAt {places : List Nat}
    (hperformed : ∀ t ∈ tasks, m.PerformedBy host (c.command f t))
    (hperformed' : ∀ t ∈ tasks, m.PerformedBy host' (c.command f t)) (hdistinct : Distinct inputs tasks)
    (hisolated : Isolated m c f inputs tasks w₀.disk) (hplaces : ∀ i ∈ places, i < tasks.length)
    (hnodup : places.Nodup) (hzero : ∀ i ∈ places, turns i = 0)
    (h : Interleaved m c f inputs tasks w₀.disk turns w.disk) :
    ∃ turns', Interleaved m c f inputs tasks w₀.disk turns' (compileAt host' c f tasks places w).2.disk ∧
      (∀ i, i ∉ places → turns' i = turns i) ∧
      (∀ i ∈ places, ∀ t, tasks[i]? = some t →
        ∃ result, (m.alone (c.command f t) w₀.disk (turns' i)).1 = .ended result) ∧
      (compileAt host' c f tasks places w).1 = places.filter (failsAt host c f tasks w₀) := by
  induction places generalizing turns w with
  | nil => exact ⟨turns, h, fun _ _ => rfl, by simp, rfl⟩
  | cons i rest ih =>
    obtain ⟨hi, hrest⟩ := List.forall_mem_cons.1 hplaces
    obtain ⟨hnot, hnodup⟩ := List.nodup_cons.1 hnodup
    obtain ⟨hzeroi, hzero⟩ := List.forall_mem_cons.1 hzero
    have hget : tasks[i]? = some tasks[i] := List.getElem?_eq_getElem hi
    have hmem : tasks[i] ∈ tasks := List.getElem_mem hi
    obtain ⟨k, result, hended, hsuccess, hone⟩ := h.compileOne (hperformed _ hmem) (hperformed' _ hmem)
      hdistinct hisolated hget hzeroi
    have hothers : ∀ j ∈ rest, Function.update turns i k j = turns j := fun j hj =>
      Function.update_of_ne (fun heq : j = i => hnot (heq ▸ hj)) k turns
    obtain ⟨turns', hinterleaved, hkept, hends, hfailed⟩ :=
      ih hrest hnodup (fun j hj => (hothers j hj).trans (hzero j hj)) hone
    rw [compileAt, hget]
    refine ⟨turns', hinterleaved, fun j hj => ?_, fun j hj t ht => ?_, ?_⟩
    · obtain ⟨hji, hj⟩ := not_or.1 (mt List.mem_cons.2 hj)
      rw [hkept j hj, Function.update_of_ne hji]
    · rcases List.mem_cons.1 hj with rfl | hj
      · obtain rfl : tasks[j] = t := Option.some.inj (hget.symm.trans ht)
        rw [hkept j hnot, Function.update_self]
        exact ⟨result, hended⟩
      · exact hends j hj t ht
    · have hfails : failsAt host c f tasks w₀ i = !(c.compileOne host f tasks[i] w₀).1 := by
        rw [failsAt, hget, Option.any_some]
      rw [List.filter_cons, hfails, ← hsuccess, ← hfailed]
      cases hone : (c.compileOne host' f tasks[i] w).1 <;> simp [hone]

/-- The report lists the sources of the tasks that fail alone, in the order of the queue. -/
theorem report_of_failsAt {failed : List Nat}
    (h : ∀ i < tasks.length, i ∈ failed ↔ failsAt host c f tasks w i = true) :
    report tasks failed =
      ⟨tasks.length, (tasks.filter fun t => !(c.compileOne host f t w).1).map (·.source)⟩ := by
  let fails : CompileTask → Bool := fun t => !(c.compileOne host f t w).1
  have hfilter : (tasks.zipIdx.filter fun x => failed.contains x.2) = tasks.zipIdx.filter (fails ∘ Prod.fst) := by
    refine List.filter_congr ?_
    rintro ⟨t, i⟩ hi
    obtain ⟨-, hlt, ht⟩ := List.mem_zipIdx hi
    have hget : tasks[i]? = some t := by simp [ht]
    have hiff := h i (List.getElem?_eq_some_iff.1 hget).1
    rw [failsAt, hget, Option.any_some] at hiff
    exact Bool.eq_iff_iff.2 (List.contains_iff_mem.trans hiff)
  have hsources : (tasks.zipIdx.filter (fails ∘ Prod.fst)).map (·.1.source) =
      (tasks.filter fails).map (·.source) :=
    calc (tasks.zipIdx.filter (fails ∘ Prod.fst)).map (·.1.source)
        = ((tasks.zipIdx.filter (fails ∘ Prod.fst)).map Prod.fst).map (·.source) := by rw [List.map_map]; rfl
      _ = ((tasks.zipIdx.map Prod.fst).filter fails).map (·.source) := by rw [List.filter_map]
      _ = (tasks.filter fails).map (·.source) := by rw [List.zipIdx_map_fst]
  calc report tasks failed
      = ⟨tasks.length, (tasks.zipIdx.filter fun x => failed.contains x.2).map (·.1.source)⟩ := rfl
    _ = ⟨tasks.length, (tasks.filter fails).map (·.source)⟩ := by rw [hfilter, hsources]

/-- Compiling a queue comes to the outcome of its tasks, whatever order its processes take effect in. -/
theorem hasOutcome_compile (hperformed : ∀ t ∈ tasks, m.PerformedBy host (c.command f t))
    (hperformed' : ∀ t ∈ tasks, m.PerformedBy host' (c.command f t)) (hdistinct : Distinct inputs tasks)
    (hisolated : Isolated m c f inputs tasks w.disk) :
    HasOutcome host c f tasks w (c.compile host' f tasks w).1 (c.compile host' f tasks w).2.disk := by
  have hperm := host'.order_perm c.limit tasks.length
  have hmem : ∀ i, i ∈ host'.order c.limit tasks.length ↔ i < tasks.length := fun i => by
    rw [hperm.mem_iff, List.mem_range]
  obtain ⟨turns, hinterleaved, -, hended, hfailed⟩ := exists_interleaved_compileAt hperformed hperformed'
    hdistinct hisolated (fun i hi => (hmem i).1 hi) (hperm.nodup_iff.2 List.nodup_range) (fun _ _ => rfl)
    (Interleaved.start m c f inputs tasks w.disk)
  have hreport : (c.compile host' f tasks w).1 =
      ⟨tasks.length, (tasks.filter fun t => !(c.compileOne host f t w).1).map (·.source)⟩ := by
    refine report_of_failsAt fun i hi => ?_
    rw [hfailed, List.mem_filter, hmem]
    exact and_iff_right hi
  rw [hreport]
  exact hasOutcome_of_ended hperformed hinterleaved fun i t hi =>
    hended i ((hmem i).2 (List.getElem?_eq_some_iff.1 hi).1) t hi

end Compiler

end VariantBuild
