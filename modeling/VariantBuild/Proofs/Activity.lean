import VariantBuild.Command
import VariantBuild.Proofs.Disk.Shape
/-!
# Activities

An activity that follows another starts in the world that the other left, and does not start if the other
failed.

An activity may start programs and give notices, and still do nothing but answer: it comes to one result in
every world, and all that happens to the disk meanwhile is that time passes (`Activity.Yields`). Such
activities can be computed without the world: one after another they yield what their results yield in
`Except`.
-/

namespace VariantBuild

/-- Nothing but time has passed. -/
def Disk.Waits (d d' : Disk) : Prop :=
  ∃ t, d' = { d with clock := t }

namespace Disk.Waits

variable {d d' d'' : Disk}

theorem refl (d : Disk) : d.Waits d :=
  ⟨d.clock, rfl⟩

theorem trans (h : d.Waits d') (h' : d'.Waits d'') : d.Waits d'' := by
  obtain ⟨t, rfl⟩ := h
  obtain ⟨t', rfl⟩ := h'
  exact ⟨t', rfl⟩

theorem node?_eq (h : d.Waits d') (l : Location) : d'.node? l = d.node? l := by
  obtain ⟨t, rfl⟩ := h
  rfl

theorem sameShape (h : d.Waits d') : d.SameShape d' := by
  obtain ⟨t, rfl⟩ := h
  exact ⟨rfl, fun _ => rfl⟩

theorem readText_eq (h : d.Waits d') (p : Path) : d'.readText p = d.readText p := by
  obtain ⟨t, rfl⟩ := h
  exact readText_clock d t p

end Disk.Waits

namespace Activity

variable {ε α β : Type} {x : Activity ε α} {f : α → Activity ε β} {w v w' : World}

/-! ## One step after another -/

theorem run_bind_of_ok {a : α} {v : World} (h : x.run w = .ok a v) :
    (x >>= f).run w = (f a).run v := by
  change EStateM.bind x f w = _
  rw [EStateM.run] at h
  rw [EStateM.bind, h]
  rfl

theorem run_bind_of_error {e : ε} {v : World} (h : x.run w = .error e v) :
    (x >>= f).run w = .error e v := by
  change EStateM.bind x f w = _
  rw [EStateM.run] at h
  rw [EStateM.bind, h]

theorem run_bind_eq_ok_iff {b : β} :
    (x >>= f).run w = .ok b w' ↔ ∃ a v, x.run w = .ok a v ∧ (f a).run v = .ok b w' := by
  cases hx : x.run w with
  | ok a v =>
    rw [run_bind_of_ok hx]
    constructor
    · intro h
      exact ⟨a, v, rfl, h⟩
    · rintro ⟨a', v', heq, h⟩
      cases heq
      exact h
  | error e v =>
    rw [run_bind_of_error hx]
    simp

theorem run_bind_eq_error_iff {e : ε} :
    (x >>= f).run w = .error e w' ↔
      x.run w = .error e w' ∨ ∃ a v, x.run w = .ok a v ∧ (f a).run v = .error e w' := by
  cases hx : x.run w with
  | ok a v =>
    rw [run_bind_of_ok hx]
    constructor
    · intro h
      exact .inr ⟨a, v, rfl, h⟩
    · rintro (heq | ⟨a', v', heq, h⟩)
      · cases heq
      · cases heq
        exact h
  | error e' v =>
    rw [run_bind_of_error hx]
    simp

theorem run_ofDisk_eq_ok_iff {g : Disk → Except ε α} {a : α} :
    (ofDisk g).run w = .ok a w' ↔ g w.disk = .ok a ∧ w' = w := by
  change ofDisk g w = _ ↔ _
  rw [ofDisk]
  cases g w.disk <;> simp [eq_comm]

theorem run_ofDisk_eq_error_iff {g : Disk → Except ε α} {e : ε} :
    (ofDisk g).run w = .error e w' ↔ g w.disk = .error e ∧ w' = w := by
  change ofDisk g w = _ ↔ _
  rw [ofDisk]
  cases g w.disk <;> simp [eq_comm]

theorem run_changeDisk_eq_ok_iff {g : Disk → Except ε Disk} {u : Unit} :
    (changeDisk g).run w = .ok u w' ↔ ∃ d, g w.disk = .ok d ∧ w' = { w with disk := d } := by
  change changeDisk g w = _ ↔ _
  rw [changeDisk]
  cases g w.disk <;> simp [eq_comm]

theorem run_ofStep (g : World → α × World) (w : World) :
    (ofStep g : Activity ε α).run w = .ok (g w).1 (g w).2 := rfl

theorem run_of_perform_ok {a : α} (h : x.perform w = (.ok a, v)) : x.run w = .ok a v := by
  rw [perform] at h
  split at h
  next heq =>
    cases h
    exact heq
  next => cases h

theorem run_of_perform_error {e : ε} (h : x.perform w = (.error e, v)) : x.run w = .error e v := by
  rw [perform] at h
  split at h
  next => cases h
  next heq =>
    cases h
    exact heq

theorem perform_bind_of_ok {a : α} (h : x.perform w = (.ok a, v)) :
    (x >>= f).perform w = (f a).perform v := by
  rw [perform, run_bind_of_ok (run_of_perform_ok h), perform]

theorem perform_bind_of_error {e : ε} (h : x.perform w = (.error e, v)) :
    (x >>= f).perform w = (.error e, v) := by
  rw [perform, run_bind_of_error (run_of_perform_error h)]

theorem perform_ofDisk_of_ok {g : Disk → Except ε α} {a : α} (h : g w.disk = .ok a) :
    (ofDisk g).perform w = (.ok a, w) := by
  simp only [perform, EStateM.run, ofDisk, h]

theorem perform_changeDisk_of_ok {g : Disk → Except ε Disk} {d : Disk} (h : g w.disk = .ok d) :
    (changeDisk g).perform w = (.ok (), { w with disk := d }) := by
  simp only [perform, EStateM.run, changeDisk, h]

/-! ## Answers -/

/-- An activity comes to a result in every world, and all that passes on the disk is time. -/
def Yields (x : Activity ε α) (result : Except ε α) : Prop :=
  ∀ w, ∃ v, x.perform w = (result, v) ∧ w.disk.Waits v.disk

namespace Yields

variable {result : Except ε α} {g : α → Except ε β}

theorem pure (a : α) : (Pure.pure a : Activity ε α).Yields (.ok a) :=
  fun w => ⟨w, rfl, .refl w.disk⟩

theorem notify (n : Notice) : (Activity.notify n : Activity ε Unit).Yields (.ok ()) :=
  fun w => ⟨w.notify n, rfl, .refl w.disk⟩

theorem bind (hx : x.Yields result) (hf : ∀ a, (f a).Yields (g a)) : (x >>= f).Yields (result >>= g) := by
  intro w
  obtain ⟨v, hv, hwaits⟩ := hx w
  cases result with
  | error e => exact ⟨v, perform_bind_of_error hv, hwaits⟩
  | ok a =>
    obtain ⟨u, hu, hwaits'⟩ := hf a v
    exact ⟨u, (perform_bind_of_ok hv).trans hu, hwaits.trans hwaits'⟩

/-- What is said on the way does not count. -/
theorem notify_bind {n : Notice} {y : Activity ε β} {result : Except ε β} (hy : y.Yields result) :
    ((Activity.notify n : Activity ε Unit) >>= fun _ => y).Yields result :=
  bind (notify n) fun _ => hy

theorem mapM (hf : ∀ a, (f a).Yields (g a)) (xs : List α) : (xs.mapM f).Yields (xs.mapM g) := by
  induction xs with
  | nil => exact pure []
  | cons a xs ih =>
    rw [List.mapM_cons, List.mapM_cons]
    exact bind (hf a) fun b => bind ih fun bs => pure (b :: bs)

end Yields

end Activity

end VariantBuild
