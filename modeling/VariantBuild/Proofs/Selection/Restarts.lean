import VariantBuild.Proofs.Selection.Attempt
/-!
# The restart loop

`Selector.Restarts` is the loop of `Selector.settle` without its limit, as a relation: which flags the
restarts add, one after another, and where they lead. Without the limit the loop either settles
(`Selector.Settles`), fails at a file, or goes on forever; what the limit makes of it is said by
`resolve_eq_ok_iff` and `resolve_eq_diverged_iff`.

Where restarts lead depends on the flags they add and not on the prunes in between
(`Restarts.pruneWidths_eq`). How they go on depends on no order or repetition of tokens
(`Settles.congr`), and there is only one way (`Settles.unique`).
-/

namespace VariantBuild

namespace FlagSet

variable {f : FlagSet} {t : String} {added : List String}

@[simp] theorem extend_nil (f : FlagSet) : f.extend [] = f := by
  simp [extend]

/-- A prune before more flags are added makes no difference to a prune afterwards. -/
theorem pruneWidths_extend_pruneWidths (f : FlagSet) (added : List String) :
    (f.pruneWidths.extend added).pruneWidths = (f.extend added).pruneWidths := by
  simp only [pruneWidths, pruneExclusive, extend, pruneTokens_pruneTokens_append]

theorem push_extend (f : FlagSet) (t : String) (added : List String) :
    (f.push t).extend added = f.extend (t :: added) := by
  simp [push, extend]

end FlagSet

namespace Selector

/-- Runs of the loop without its limit: every restart adds one flag of `added`, in this order, to the
flags as they were pruned for the attempt. -/
inductive Restarts (s : Selector) (d : Disk) (entries : List SourceEntry) :
    FlagSet → List String → FlagSet → Prop
  | refl (f : FlagSet) : Restarts s d entries f [] f
  | step {f g : FlagSet} {t : String} {added : List String}
      (restart : s.attempt d f.pruneWidths entries = .ok (.restart (f.pruneWidths.push t)))
      (rest : Restarts s d entries (f.pruneWidths.push t) added g) :
      Restarts s d entries f (t :: added) g

/-- The loop without a limit reaches a stable attempt from `f`, after it has added `added`. -/
def Settles (s : Selector) (d : Disk) (entries : List SourceEntry) (f : FlagSet) (added : List String)
    (selection : Selection) : Prop :=
  ∃ g, s.Restarts d entries f added g ∧ s.attempt d g.pruneWidths entries = .ok (.stable selection)

variable {s : Selector} {d : Disk} {entries : List SourceEntry} {f g : FlagSet} {t : String}
  {added : List String} {selection : Selection}

/-! ## Steps and runs -/

/-- A restart of the loop adds the flag that the attempt requires. -/
theorem attempt_eq_restart_push_iff :
    s.attempt d f entries = .ok (.restart (f.push t)) ↔ s.Requires d f entries t := by
  rw [attempt_eq_restart_iff]
  constructor
  · rintro ⟨u, hu, hpush⟩
    have htokens : f.tokens ++ [t] = f.tokens ++ [u] := congrArg FlagSet.tokens hpush
    have htu : t = u := by simpa using htokens
    rwa [htu]
  · intro h
    exact ⟨t, h, rfl⟩

theorem restarts_nil_iff : s.Restarts d entries f [] g ↔ g = f := by
  constructor
  · intro h
    cases h
    rfl
  · rintro rfl
    exact .refl g

theorem restarts_cons_iff :
    s.Restarts d entries f (t :: added) g ↔
      s.Requires d f.pruneWidths entries t ∧ s.Restarts d entries (f.pruneWidths.push t) added g := by
  rw [← attempt_eq_restart_push_iff]
  constructor
  · intro h
    cases h with
    | step restart rest => exact ⟨restart, rest⟩
  · rintro ⟨restart, rest⟩
    exact .step restart rest

theorem settles_nil_iff :
    s.Settles d entries f [] selection ↔
      s.attempt d f.pruneWidths entries = .ok (.stable selection) := by
  simp only [Settles, restarts_nil_iff, exists_eq_left]

theorem settles_cons_iff :
    s.Settles d entries f (t :: added) selection ↔
      s.Requires d f.pruneWidths entries t ∧
        s.Settles d entries (f.pruneWidths.push t) added selection := by
  simp only [Settles, restarts_cons_iff, and_assoc, exists_and_left]

/-- Pruning before every attempt comes to the same as pruning at the end. -/
theorem Restarts.pruneWidths_eq (h : s.Restarts d entries f added g) :
    g.pruneWidths = (f.extend added).pruneWidths := by
  induction h with
  | refl f => rw [FlagSet.extend_nil]
  | step _ _ ih =>
    -- the prune before the flag is swallowed by the one at the end
    rw [ih, FlagSet.push_extend, FlagSet.pruneWidths_extend_pruneWidths]

theorem Settles.attempt_eq (h : s.Settles d entries f added selection) :
    s.attempt d (f.extend added).pruneWidths entries = .ok (.stable selection) := by
  obtain ⟨g, hrun, hstable⟩ := h
  rwa [← hrun.pruneWidths_eq]

/-- Only flags that some entry may require are ever added. -/
theorem Restarts.mem_useTokens {sets : List ManifestSet}
    (h : s.Restarts d (ManifestSet.allEntries sets) f added g) :
    ∀ t ∈ added, t ∈ ManifestSet.useTokens sets := by
  induction h with
  | refl f => simp
  | step restart _ ih =>
    intro u hu
    rcases List.mem_cons.1 hu with rfl | hu
    · exact (attempt_eq_restart_push_iff.1 restart).mem_useTokens
    · exact ih u hu

/-! ## One way only -/

/-- From flag sets that are alike once pruned, the loop settles in the same way. -/
theorem Settles.congr (a : f.pruneWidths.Alike g.pruneWidths)
    (h : s.Settles d entries f added selection) : s.Settles d entries g added selection := by
  induction added generalizing f g with
  | nil =>
    rw [settles_nil_iff] at h ⊢
    exact (attempt_stable_congr a).1 h
  | cons t added ih =>
    rw [settles_cons_iff] at h ⊢
    exact ⟨(requires_congr a).1 h.1, ih (a.push_pruneWidths t) h.2⟩

/-- The loop never settles in two ways. -/
theorem Settles.unique {added' : List String} {selection' : Selection}
    (h : s.Settles d entries f added selection) (h' : s.Settles d entries f added' selection') :
    added = added' ∧ selection = selection' := by
  -- an attempt that is stable requires no flag, so neither run stops before the other
  induction added generalizing f added' with
  | nil =>
    rw [settles_nil_iff] at h
    cases added' with
    | nil =>
      rw [settles_nil_iff, h] at h'
      cases h'
      exact ⟨rfl, rfl⟩
    | cons t added' =>
      have hreq := (settles_cons_iff.1 h').1
      rw [hreq.attempt_eq] at h
      cases h
  | cons t added ih =>
    obtain ⟨hreq, hrest⟩ := settles_cons_iff.1 h
    cases added' with
    | nil =>
      rw [settles_nil_iff, hreq.attempt_eq] at h'
      cases h'
    | cons t' added' =>
      obtain ⟨hreq', hrest'⟩ := settles_cons_iff.1 h'
      obtain rfl := hreq.unique hreq'
      obtain ⟨rfl, hsel⟩ := ih hrest hrest'
      exact ⟨rfl, hsel⟩

/-! ## The limit -/

variable {allowed restarts : Nat}

/-- What settles without a limit settles within any limit that allows its restarts. -/
theorem Settles.settle_eq (h : s.Settles d entries f added selection) (hlen : added.length ≤ allowed) :
    s.settle d entries allowed restarts f =
      .ok ⟨(f.extend added).pruneWidths, selection, restarts + added.length⟩ := by
  induction added generalizing f allowed restarts with
  | nil =>
    rw [settle, settles_nil_iff.1 h]
    simp
  | cons t added ih =>
    obtain ⟨hreq, hrest⟩ := settles_cons_iff.1 h
    cases allowed with
    | zero => simp at hlen
    | succ allowed =>
      have hlen' : added.length ≤ allowed := Nat.le_of_succ_le_succ hlen
      rw [settle, hreq.attempt_eq]
      simp only [ih hrest hlen', FlagSet.push_extend, FlagSet.pruneWidths_extend_pruneWidths,
        List.length_cons, Nat.add_assoc, Nat.add_comm 1]

/-- One restart more than the limit allows, and the loop gives up. -/
theorem Restarts.settle_eq (h : s.Restarts d entries f added g) (hlen : allowed < added.length) :
    s.settle d entries allowed restarts f = .error (.diverged (restarts + allowed + 1)) := by
  induction h generalizing allowed restarts with
  | refl f => simp at hlen
  | step restart _ ih =>
    cases allowed with
    | zero => rw [settle, restart]
    | succ allowed =>
      rw [settle, restart]
      simp only [ih (Nat.lt_of_succ_lt_succ hlen), Nat.add_assoc, Nat.add_comm 1]

/-- How the loop ends under its limit: it settles, runs out of restarts, or fails at a file. -/
theorem settle_cases (s : Selector) (d : Disk) (entries : List SourceEntry) (allowed restarts : Nat)
    (f : FlagSet) :
    (∃ added selection, added.length ≤ allowed ∧ s.Settles d entries f added selection ∧
      s.settle d entries allowed restarts f =
        .ok ⟨(f.extend added).pruneWidths, selection, restarts + added.length⟩) ∨
    (∃ added g, added.length = allowed + 1 ∧ s.Restarts d entries f added g ∧
      s.settle d entries allowed restarts f = .error (.diverged (restarts + allowed + 1))) ∨
    (∃ added g e, added.length ≤ allowed ∧ s.Restarts d entries f added g ∧
      s.attempt d g.pruneWidths entries = .error e ∧
      s.settle d entries allowed restarts f = .error e) := by
  -- the first attempt decides, or hands over to a loop that may restart once less
  induction allowed generalizing restarts f with
  | zero =>
    rcases s.attempt_cases d f.pruneWidths entries with ⟨-, ha⟩ | ⟨t, hreq, -⟩ | ⟨_, e, -, -, -, ha⟩
    · have hsettles := settles_nil_iff.2 ha
      exact .inl ⟨[], _, Nat.le_refl 0, hsettles, hsettles.settle_eq (Nat.le_refl 0)⟩
    · have hrun := restarts_cons_iff.2 ⟨hreq, .refl _⟩
      exact .inr (.inl ⟨[t], _, rfl, hrun, hrun.settle_eq (Nat.lt_succ_self 0)⟩)
    · exact .inr (.inr ⟨[], f, e, Nat.le_refl 0, .refl f, ha, by rw [settle, ha]⟩)
  | succ allowed ih =>
    rcases s.attempt_cases d f.pruneWidths entries with ⟨-, ha⟩ | ⟨t, hreq, ha⟩ | ⟨_, e, -, -, -, ha⟩
    · have hsettles := settles_nil_iff.2 ha
      exact .inl ⟨[], _, Nat.zero_le _, hsettles, hsettles.settle_eq (Nat.zero_le _)⟩
    · -- one restart, and what the loop does with one restart less allowed
      have hnext : s.settle d entries (allowed + 1) restarts f =
          s.settle d entries allowed (restarts + 1) (f.pruneWidths.push t) := by
        rw [settle, ha]
      rcases ih (restarts + 1) (f.pruneWidths.push t) with
        ⟨added, selection, hlen, hsettles, -⟩ | ⟨added, g, hlen, hrun, -⟩ |
          ⟨added, g, e, hlen, hrun, hfail, heq⟩
      · have hcons := settles_cons_iff.2 ⟨hreq, hsettles⟩
        have hlen' : (t :: added).length ≤ allowed + 1 := Nat.succ_le_succ hlen
        exact .inl ⟨t :: added, selection, hlen', hcons, hcons.settle_eq hlen'⟩
      · have hcons := restarts_cons_iff.2 ⟨hreq, hrun⟩
        have hlen' : (t :: added).length = allowed + 1 + 1 := congrArg Nat.succ hlen
        exact .inr (.inl ⟨t :: added, g, hlen', hcons, hcons.settle_eq (by omega)⟩)
      · have hcons := restarts_cons_iff.2 ⟨hreq, hrun⟩
        exact .inr (.inr ⟨t :: added, g, e, Nat.succ_le_succ hlen, hcons, hfail, hnext.trans heq⟩)
    · exact .inr (.inr ⟨[], f, e, Nat.zero_le _, .refl f, ha, by rw [settle, ha]⟩)

/-! ## Resolution -/

variable {sets : List ManifestSet} {r : Resolution} {n : Nat}

/-- Resolution succeeds where the loop settles within as many restarts as there are flags that some
entry may require. -/
theorem resolve_eq_ok_iff :
    s.resolve d sets f = .ok r ↔ ∃ added, added.length ≤ (ManifestSet.useTokens sets).length ∧
      s.Settles d (ManifestSet.allEntries sets) f added r.selection ∧
      r.flags = (f.extend added).pruneWidths ∧ r.restarts = added.length := by
  constructor
  · intro h
    rcases s.settle_cases d (ManifestSet.allEntries sets) (ManifestSet.useTokens sets).length 0 f with
      ⟨added, selection, hlen, hsettles, heq⟩ | ⟨added, g, -, -, heq⟩ | ⟨added, g, e, -, -, -, heq⟩
    · rw [resolve, heq] at h
      cases h
      exact ⟨added, hlen, hsettles, rfl, Nat.zero_add _⟩
    · rw [resolve, heq] at h
      cases h
    · rw [resolve, heq] at h
      cases h
  · rintro ⟨added, hlen, hsettles, hflags, hrestarts⟩
    rw [resolve, hsettles.settle_eq hlen, ← hflags, Nat.zero_add, ← hrestarts]

/-- Resolution gives up where the loop without a limit goes on for one restart more. -/
theorem resolve_eq_diverged_iff :
    s.resolve d sets f = .error (.diverged n) ↔ n = (ManifestSet.useTokens sets).length + 1 ∧
      ∃ added g, added.length = (ManifestSet.useTokens sets).length + 1 ∧
        s.Restarts d (ManifestSet.allEntries sets) f added g := by
  constructor
  · intro h
    rcases s.settle_cases d (ManifestSet.allEntries sets) (ManifestSet.useTokens sets).length 0 f with
      ⟨added, selection, -, -, heq⟩ | ⟨added, g, hlen, hrun, heq⟩ | ⟨added, g, e, -, -, hfail, heq⟩
    · rw [resolve, heq] at h
      cases h
    · rw [resolve, heq, Nat.zero_add] at h
      cases h
      exact ⟨rfl, added, g, hlen, hrun⟩
    · rw [resolve, heq] at h
      cases h
      obtain ⟨p, cause, he⟩ := exists_io_of_attempt_eq_error hfail
      cases he
  · rintro ⟨rfl, added, g, hlen, hrun⟩
    rw [resolve, hrun.settle_eq (by omega), Nat.zero_add]

end Selector

end VariantBuild
