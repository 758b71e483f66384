import VariantBuild.Proofs.Selection.Settled
/-!
# Resolution on another disk

The loop of restarts looks at the disk only for staleness, and what it finds there decides nothing but what
is compiled, unless a file cannot be queried. So on another disk the same flags are added one after another,
and the same files are selected, up to the first attempt in which a file that could be queried before
cannot be queried now (`resolve_replay_cases`).
-/

namespace VariantBuild.Selector

/-- An attempt breaks on another disk: it admits an entry whose files can be queried on the first disk and
cannot on the second. -/
def Breaks (s : Selector) (d d' : Disk) (f : FlagSet) (entries : List SourceEntry) (e : BuildError) :
    Prop :=
  ∃ entry ∈ entries, entry.2.admitted f = true ∧
    (∃ reason, s.staleness d f entry = .ok reason) ∧ s.staleness d' f entry = .error e

variable {s : Selector} {d d' : Disk} {entries : List SourceEntry} {f g : FlagSet} {t : String}
  {added : List String} {selection : Selection} {e : BuildError}

/-! ## One attempt -/

/-- A flag that is required on one disk is required on another, unless the attempt breaks before. -/
theorem Requires.replay (h : s.Requires d f entries t) (d' : Disk) :
    s.Requires d' f entries t ∨
      ∃ e, s.Breaks d d' f entries e ∧ s.attempt d' f entries = .error e := by
  obtain ⟨entry, hfind, hj⟩ := h
  obtain ⟨-, before, after, rfl, hbefore⟩ := find?_not_eq_some_iff.1 hfind
  -- the entries before the one that requires the flag were passed on the first disk; on the other
  -- disk the first of them that is not passed can only be one that cannot be queried
  cases hother : before.find? (!s.clears d' f ·) with
  | none =>
    left
    refine requires_append_cons (fun b hb => ?_) hj
    simpa using List.find?_eq_none.1 hother b hb
  | some other =>
    right
    have hmem := List.mem_of_find?_eq_some hother
    have hstop := (find?_not_eq_some_iff.1 hother).1
    rcases clears_eq_false_iff.1 hstop with ⟨u, hu⟩ | ⟨hadmitted, e, he⟩
    · -- an entry that requires a flag stops the attempt on any disk
      have hcleared := hbefore other hmem
      rw [clears_eq_false_iff.2 (.inl ⟨u, hu⟩)] at hcleared
      cases hcleared
    · refine ⟨e, ⟨other, List.mem_append_left _ hmem, hadmitted,
        exists_staleness_eq_of_clears (hbefore other hmem) hadmitted, he⟩, ?_⟩
      obtain ⟨-, front, back, rfl, hfront⟩ := find?_not_eq_some_iff.1 hother
      rw [List.append_assoc]
      apply attempt_append_of_clears hfront
      · rw [List.cons_append, attempt, judge_eq_admitted_iff.2 ⟨hadmitted, rfl⟩, he]
      · intro selection h
        cases h

/-- An attempt that is stable on one disk is stable on another with the same files, unless it breaks. -/
theorem attempt_replay (h : s.attempt d f entries = .ok (.stable selection)) (d' : Disk) :
    s.attempt d' f entries = .ok (.stable (s.selectionUnder d' f entries)) ∨
      ∃ e, s.Breaks d d' f entries e ∧ s.attempt d' f entries = .error e := by
  have hclears := (attempt_eq_stable_iff.1 h).1
  rcases s.attempt_cases d' f entries with ⟨-, hstable⟩ | ⟨t, hreq, -⟩ | ⟨entry, e, hfind, ha, he, hfail⟩
  · exact .inl hstable
  · -- an entry that requires a flag would have stopped the attempt on the first disk as well
    obtain ⟨entry, hfind, hj⟩ := hreq
    have hcleared := hclears entry (List.mem_of_find?_eq_some hfind)
    rw [clears_eq_false_iff.2 (.inl ⟨t, hj⟩)] at hcleared
    cases hcleared
  · have hmem := List.mem_of_find?_eq_some hfind
    exact .inr ⟨e, ⟨entry, hmem, ha, exists_staleness_eq_of_clears (hclears entry hmem) ha, he⟩, hfail⟩

/-! ## The loop -/

/-- What the restarts of a run come to on another disk: they are the same, or one of them breaks. -/
theorem Restarts.replay (h : s.Restarts d entries f added g) (d' : Disk) :
    s.Restarts d' entries f added g ∨
      ∃ front t back g' e, added = front ++ t :: back ∧ s.Restarts d entries f front g' ∧
        s.Restarts d' entries f front g' ∧ s.Requires d g'.pruneWidths entries t ∧
        s.Breaks d d' g'.pruneWidths entries e ∧ s.attempt d' g'.pruneWidths entries = .error e := by
  -- induction on the restarts: each replays, or it is the first that breaks
  induction h with
  | refl f => exact .inl (.refl f)
  | @step f g t added restart rest ih =>
    have hreq := attempt_eq_restart_push_iff.1 restart
    rcases hreq.replay d' with hreq' | ⟨e, hbreaks, hfail⟩
    · have hstep := attempt_eq_restart_push_iff.2 hreq'
      rcases ih with hrest | ⟨front, u, back, g', e, rfl, hrun, hrun', hu, hbreaks, hfail⟩
      · exact .inl (.step hstep hrest)
      · exact .inr ⟨t :: front, u, back, g', e, rfl, .step restart hrun, .step hstep hrun', hu, hbreaks,
          hfail⟩
    · exact .inr ⟨[], t, added, f, e, rfl, .refl f, .refl f, hreq, hbreaks, hfail⟩

/-- A file that cannot be queried ends the loop at once. -/
theorem Restarts.settle_eq_error {allowed restarts : Nat} (h : s.Restarts d entries f added g)
    (hlen : added.length ≤ allowed) (hfail : s.attempt d g.pruneWidths entries = .error e) :
    s.settle d entries allowed restarts f = .error e := by
  induction h generalizing allowed restarts with
  | refl f => rw [settle, hfail]
  | step restart _ ih =>
    cases allowed with
    | zero => simp at hlen
    | succ allowed =>
      rw [settle, restart]
      exact ih (Nat.le_of_succ_le_succ hlen) hfail

variable {sets : List ManifestSet} {r : Resolution}

/-- On another disk resolution comes to the same flags and files after the same restarts, and compiles what
is stale there, unless an attempt breaks: one that was given up on the first disk, or the one under the
settled flags. -/
theorem resolve_replay_cases (h : s.resolve d sets f = .ok r) (d' : Disk) :
    s.resolve d' sets f =
        .ok ⟨r.flags, s.selectionUnder d' r.flags (ManifestSet.allEntries sets), r.restarts⟩ ∨
      ∃ added g e, s.Restarts d (ManifestSet.allEntries sets) f added g ∧
        ((∃ t, s.Requires d g.pruneWidths (ManifestSet.allEntries sets) t) ∨ g.pruneWidths = r.flags) ∧
        s.Breaks d d' g.pruneWidths (ManifestSet.allEntries sets) e ∧
        s.attempt d' g.pruneWidths (ManifestSet.allEntries sets) = .error e ∧
        s.resolve d' sets f = .error e := by
  obtain ⟨added, hlen, ⟨g, hrun, hstable⟩, hflags, hrestarts⟩ := resolve_eq_ok_iff.1 h
  rcases hrun.replay d' with hrun' | ⟨front, t, back, g', e, rfl, hfront, hfront', ht, hbreaks,
    hfail⟩
  · have hsame : g.pruneWidths = r.flags := hrun.pruneWidths_eq.trans hflags.symm
    rcases attempt_replay hstable d' with hstable' | ⟨e, hbreaks, hfail⟩
    · rw [hsame] at hstable'
      refine .inl (resolve_eq_ok_iff.2 ⟨added, hlen, ⟨g, hrun', ?_⟩, hflags, hrestarts⟩)
      rw [hsame]
      exact hstable'
    · exact .inr ⟨added, g, e, hrun, .inr hsame, hbreaks, hfail, hrun'.settle_eq_error hlen hfail⟩
  · refine .inr ⟨front, g', e, hfront, .inl ⟨t, ht⟩, hbreaks, hfail, ?_⟩
    rw [resolve]
    refine hfront'.settle_eq_error ?_ hfail
    rw [List.length_append] at hlen
    omega

/-- Where all objects of the settled flags are fresh, nothing is left to compile. -/
theorem selectionUnder_eq_of_fresh
    (hfresh : ∀ entry ∈ entries, entry.2.admitted f = true → s.staleness d f entry = .ok none) :
    s.selectionUnder d f entries = ⟨(entries.filter (·.2.admitted f)).map (·.1), []⟩ := by
  have hnone : (entries.filter (·.2.admitted f)).filterMap (s.compileTask? d f) = [] := by
    rw [List.filterMap_eq_nil_iff]
    intro entry he
    obtain ⟨hentry, hadmitted⟩ := List.mem_filter.1 he
    rw [compileTask?, hfresh entry hentry hadmitted]
  exact congrArg (Selection.mk _) hnone

end VariantBuild.Selector
