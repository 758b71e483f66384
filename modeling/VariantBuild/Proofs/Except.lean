import Mathlib.Data.List.Forall2
/-!
# Readers that may fail

How a sequence of steps in `Except` ends: with the first fault, or with all results.
-/

namespace VariantBuild

variable {ε α β : Type}

theorem except_bind_eq_ok_iff {x : Except ε α} {f : α → Except ε β} {b : β} :
    (x >>= f) = .ok b ↔ ∃ a, x = .ok a ∧ f a = .ok b := by
  cases x with
  | ok a =>
    change f a = _ ↔ _
    simp
  | error e =>
    change Except.error e = _ ↔ _
    simp

theorem except_bind_eq_error_iff {x : Except ε α} {f : α → Except ε β} {e : ε} :
    (x >>= f) = .error e ↔ x = .error e ∨ ∃ a, x = .ok a ∧ f a = .error e := by
  cases x with
  | ok a =>
    change f a = _ ↔ _
    simp
  | error e' =>
    change Except.error e' = _ ↔ _
    simp

theorem except_map_eq_ok_iff {x : Except ε α} {f : α → β} {b : β} :
    x.map f = .ok b ↔ ∃ a, x = .ok a ∧ f a = b := by
  cases x <;> simp [Except.map]

/-- A list of steps fails at the first that fails. -/
theorem mapM_eq_error_iff {f : α → Except ε β} {xs : List α} {e : ε} :
    xs.mapM f = .error e ↔ ∃ before x after, xs = before ++ x :: after ∧
      (∀ b ∈ before, ∃ y, f b = .ok y) ∧ f x = .error e := by
  induction xs with
  | nil =>
    constructor
    · intro h
      cases h
    · rintro ⟨before, x, after, h, -⟩
      exact absurd h (by simp)
  | cons x xs ih =>
    rw [List.mapM_cons, except_bind_eq_error_iff]
    constructor
    · rintro (hx | ⟨y, hy, hrest⟩)
      · exact ⟨[], x, xs, rfl, by simp, hx⟩
      · rcases except_bind_eq_error_iff.1 hrest with hxs | ⟨ys, -, hlast⟩
        · obtain ⟨before, z, after, rfl, hbefore, hz⟩ := ih.1 hxs
          exact ⟨x :: before, z, after, rfl, List.forall_mem_cons.2 ⟨⟨y, hy⟩, hbefore⟩, hz⟩
        · cases hlast
    · rintro ⟨_ | ⟨b, before⟩, z, after, heq, hbefore, hz⟩
      · obtain ⟨rfl, rfl⟩ := List.cons.inj heq
        exact .inl hz
      · obtain ⟨rfl, rfl⟩ := List.cons.inj heq
        obtain ⟨⟨y, hy⟩, hbefore⟩ := List.forall_mem_cons.1 hbefore
        have hxs := ih.2 ⟨before, z, after, rfl, hbefore, hz⟩
        exact .inr ⟨y, hy, except_bind_eq_error_iff.2 (.inl hxs)⟩

theorem exists_eq_error_of_mapM {f : α → Except ε β} {xs : List α} {e : ε}
    (h : xs.mapM f = .error e) : ∃ x ∈ xs, f x = .error e := by
  obtain ⟨before, x, after, rfl, -, hx⟩ := mapM_eq_error_iff.1 h
  exact ⟨x, by simp, hx⟩

/-- A list of steps succeeds when each of them does. -/
theorem mapM_eq_ok_iff {f : α → Except ε β} {xs : List α} {ys : List β} :
    xs.mapM f = .ok ys ↔ List.Forall₂ (fun x y => f x = .ok y) xs ys := by
  induction xs generalizing ys with
  | nil =>
    constructor
    · intro h
      cases h
      exact .nil
    · intro h
      cases h
      rfl
  | cons x xs ih =>
    rw [List.mapM_cons, except_bind_eq_ok_iff]
    constructor
    · rintro ⟨y, hy, hrest⟩
      obtain ⟨zs, hzs, hlast⟩ := except_bind_eq_ok_iff.1 hrest
      cases hlast
      exact .cons hy (ih.1 hzs)
    · intro h
      cases h with
      | cons hy hzs => exact ⟨_, hy, except_bind_eq_ok_iff.2 ⟨_, ih.2 hzs, rfl⟩⟩

/-- What is related to one of two lists is related to a member of the other. -/
theorem exists_mem_of_forall₂ {R : α → β → Prop} {xs : List α} {ys : List β} {y : β}
    (h : List.Forall₂ R xs ys) (hy : y ∈ ys) : ∃ x ∈ xs, R x y := by
  induction h with
  | nil => cases hy
  | cons hxy _ ih =>
    rcases List.mem_cons.1 hy with rfl | hy
    · exact ⟨_, List.mem_cons_self, hxy⟩
    · obtain ⟨x, hx, hxy⟩ := ih hy
      exact ⟨x, List.mem_cons_of_mem _ hx, hxy⟩

/-- What every step guarantees holds of all results. -/
theorem forall_of_mapM_eq_ok {f : α → Except ε β} {P : β → Prop} (hf : ∀ x y, f x = .ok y → P y)
    {xs : List α} {ys : List β} (h : xs.mapM f = .ok ys) : ∀ y ∈ ys, P y := by
  induction mapM_eq_ok_iff.1 h with
  | nil => exact List.forall_mem_nil P
  | cons hy hys ih => exact List.forall_mem_cons.2 ⟨hf _ _ hy, ih (mapM_eq_ok_iff.2 hys)⟩

end VariantBuild
