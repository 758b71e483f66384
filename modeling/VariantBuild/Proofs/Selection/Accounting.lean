import VariantBuild.Proofs.Selection.Settled
/-!
# Restart accounting

What a restart adds was missing when it was required, so it can only be added a second time if a prune
took it away in between, and a prune takes a width away only for another one. Where the entries do not
require both widths, every restart therefore uses up a flag (`Restarts.fresh`), and there are as many
restarts at most as there are flags to require.
-/

namespace VariantBuild

/-- Two widths are the same among tokens that do not have both. -/
theorem FlagSet.eq_of_mem_widths {tokens : List String} {t u : String}
    (hfree : ¬ (width32 ∈ tokens ∧ width64 ∈ tokens)) (ht : t ∈ tokens) (hu : u ∈ tokens)
    (htw : t ∈ widths) (huw : u ∈ widths) : t = u := by
  simp only [widths, List.mem_cons, List.not_mem_nil, or_false] at htw huw
  rcases htw with rfl | rfl <;> rcases huw with rfl | rfl
  · rfl
  · exact absurd ⟨ht, hu⟩ hfree
  · exact absurd ⟨hu, ht⟩ hfree
  · rfl

namespace Selector

variable {s : Selector} {d : Disk} {entries : List SourceEntry} {f g : FlagSet}
  {added tokens : List String}

/-- Without a conflict of widths no flag is added twice, and none that is active from the start. -/
theorem Restarts.fresh (h : s.Restarts d entries f added g) (hsub : added ⊆ tokens)
    (hfree : ¬ (FlagSet.width32 ∈ tokens ∧ FlagSet.width64 ∈ tokens)) :
    added.Nodup ∧ ∀ t ∈ added, t ∉ f.pruneWidths.tokens := by
  induction h with
  | refl f => simp
  | @step f g t added restart _ ih =>
    have hmissing : t ∉ f.pruneWidths.tokens := (attempt_eq_restart_push_iff.1 restart).notMem
    have ht : t ∈ tokens := hsub List.mem_cons_self
    have hrest : added ⊆ tokens := fun u hu => hsub (List.mem_cons_of_mem t hu)
    obtain ⟨hnodup, hnew⟩ := ih hrest
    -- `t` is active after the restart, so it is not among what is added later
    have hnot : t ∉ added := fun h => hnew t h (FlagSet.mem_pruneWidths_push_iff.2 (.inl rfl))
    refine ⟨List.nodup_cons.2 ⟨hnot, hnodup⟩, ?_⟩
    intro u hu hactive
    rcases List.mem_cons.1 hu with rfl | hu
    · exact hmissing hactive
    · -- an active flag that is added later was taken away for `t`, so both are widths
      have hpruned : t ∈ FlagSet.widths ∧ u ∈ FlagSet.widths := by
        by_contra hkept
        exact hnew u hu (FlagSet.mem_pruneWidths_push_iff.2 (.inr ⟨hactive, hkept⟩))
      have htu : t = u := FlagSet.eq_of_mem_widths hfree ht (hrest hu) hpruned.1 hpruned.2
      exact hmissing (htu ▸ hactive)

/-- Without a conflict of widths there are no more restarts than flags to require. -/
theorem Restarts.length_le {sets : List ManifestSet}
    (h : s.Restarts d (ManifestSet.allEntries sets) f added g)
    (hfree : ¬ (FlagSet.width32 ∈ ManifestSet.useTokens sets ∧
      FlagSet.width64 ∈ ManifestSet.useTokens sets)) :
    added.length ≤ (ManifestSet.useTokens sets).length := by
  have hsub : added ⊆ ManifestSet.useTokens sets := h.mem_useTokens
  exact List.Nodup.length_le_of_subset (h.fresh hsub hfree).1 hsub

/-- Without a conflict of widths resolution never gives up, every restart adds another flag that was not
active, and one prune at the end does what the prunes of all restarts did. -/
theorem resolve_accounting (s : Selector) (d : Disk) (sets : List ManifestSet) (f : FlagSet)
    (hfree : ¬ (FlagSet.width32 ∈ ManifestSet.useTokens sets ∧
      FlagSet.width64 ∈ ManifestSet.useTokens sets)) :
    (∀ n, s.resolve d sets f ≠ .error (.diverged n)) ∧
    ∀ r, s.resolve d sets f = .ok r → ∃ added : List String,
      added.Nodup ∧
      (∀ t ∈ added, t ∈ ManifestSet.useTokens sets ∧ t ∉ f.pruneWidths.tokens) ∧
      r.restarts = added.length ∧
      r.flags.tokens = FlagSet.pruneTokens FlagSet.widths (f.tokens ++ added) := by
  constructor
  · intro n h
    obtain ⟨-, added, g, hlen, hrun⟩ := resolve_eq_diverged_iff.1 h
    have hle := hrun.length_le hfree
    omega
  · intro r h
    obtain ⟨added, -, ⟨g, hrun, -⟩, hflags, hrestarts⟩ := resolve_eq_ok_iff.1 h
    obtain ⟨hnodup, hnew⟩ := hrun.fresh hrun.mem_useTokens hfree
    refine ⟨added, hnodup, fun t ht => ⟨hrun.mem_useTokens t ht, hnew t ht⟩, hrestarts, ?_⟩
    rw [hflags]
    rfl

/-- The sample requires one width only. From flags with both of them and a repetition, two restarts
add two new flags. -/
theorem sample_accounting :
    Sample.selector.resolve Sample.disk [Sample.widened]
        (Sample.flags ["-m32", "-O0", "-m64", "-O0"]) =
      .ok ⟨Sample.flags ["-O0", "-O0", "-fPIC", "-m32"], Sample.selection, 2⟩ ∧
    ∃ added : List String, added.Nodup ∧
      (∀ t ∈ added, t ∈ ManifestSet.useTokens [Sample.widened] ∧
        t ∉ (Sample.flags ["-m32", "-O0", "-m64", "-O0"]).pruneWidths.tokens) ∧
      2 = added.length ∧
      ["-O0", "-O0", "-fPIC", "-m32"] =
        FlagSet.pruneTokens FlagSet.widths (["-m32", "-O0", "-m64", "-O0"] ++ added) := by
  have hfree : ¬ (FlagSet.width32 ∈ ManifestSet.useTokens [Sample.widened] ∧
      FlagSet.width64 ∈ ManifestSet.useTokens [Sample.widened]) := by decide
  have h : Sample.selector.resolve Sample.disk [Sample.widened]
      (Sample.flags ["-m32", "-O0", "-m64", "-O0"]) =
        .ok ⟨Sample.flags ["-O0", "-O0", "-fPIC", "-m32"], Sample.selection, 2⟩ := by decide +kernel
  exact ⟨h, (resolve_accounting _ _ _ _ hfree).2 _ h⟩

end Selector

end VariantBuild
