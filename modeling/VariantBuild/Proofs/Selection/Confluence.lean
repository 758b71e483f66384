import VariantBuild.Proofs.Selection.Accounting
/-!
# Confluence

Where no filter asks for the absence of a flag and no width is required, more flags only ever let more
entries through. What an entry requires under some flags it then also requires under more of them, so
flags that are stable for the same entries in another order bound everything that resolution can reach
(`Restarts.within`). Two resolutions bound each other, and end with the same flags.
-/

namespace VariantBuild

namespace FlagSet

variable {f : FlagSet} {added : List String}

/-- Flags that are no widths stand beside the pruned ones. -/
theorem tokens_pruneWidths_extend (h : ∀ t ∈ added, t ∉ widths) :
    (f.extend added).pruneWidths.tokens = f.pruneWidths.tokens ++ added := by
  have hno : ¬ ∃ t ∈ added, t ∈ widths := fun ⟨t, ht, htw⟩ => h t ht htw
  exact pruneTokens_append_of_no_member hno

theorem within_pruneWidths_extend (h : ∀ t ∈ added, t ∉ widths) :
    f.pruneWidths.Within (f.extend added).pruneWidths := by
  refine ⟨?_, rfl, rfl, rfl⟩
  rw [tokens_pruneWidths_extend h]
  exact List.subset_append_left _ _

end FlagSet

namespace Selector

variable {s : Selector} {d : Disk} {entries entries' : List SourceEntry} {f g m : FlagSet}
  {t : String} {added added' : List String} {selection selection' : Selection}

/-- No `@options` filter asks for the absence of a flag. -/
def Positive (entries : List SourceEntry) : Prop :=
  ∀ entry ∈ entries, ∀ group, .options group ∈ entry.2.flags → group.excluded = []

/-! ## Resolution stays within stable flags -/

/-- What some flags require is active under more flags, if an attempt goes past all entries there. -/
theorem Requires.mem_of_within (h : s.Requires d f entries t) (hpos : Positive entries)
    (hclears : ∀ entry ∈ entries, s.clears d m entry = true) (a : f.Within m) : t ∈ m.tokens := by
  obtain ⟨entry, hentry, before, after, hflags, hbefore⟩ := h.exists_use
  by_contra hnot
  -- what lets the entry through up to its `@use` still does so, and the flag would be required again
  have hbefore' : ∀ b ∈ before, b.passes m = true := by
    intro b hb
    refine Directive.passes_mono a ?_ (hbefore b hb)
    rintro group rfl
    refine hpos entry hentry group ?_
    rw [hflags]
    exact List.mem_append_left _ hb
  have hreq : judge m entry.2.flags = .required t :=
    judge_eq_required_iff.2 ⟨hnot, before, after, hflags, hbefore'⟩
  have hstop : s.clears d m entry = false := clears_eq_false_iff.2 (.inl ⟨t, hreq⟩)
  rw [hclears entry hentry] at hstop
  cases hstop

/-- Restarts never leave flags under which an attempt goes past all entries. -/
theorem Restarts.within (h : s.Restarts d entries f added g) (hpos : Positive entries)
    (hclears : ∀ entry ∈ entries, s.clears d m entry = true) (a : f.pruneWidths.Within m) :
    g.pruneWidths.Within m := by
  induction h with
  | refl f => exact a
  | step restart _ ih =>
    have hreq := attempt_eq_restart_push_iff.1 restart
    have ht := hreq.mem_of_within hpos hclears a
    exact ih (a.push_pruneWidths ht)

/-- If the loop settles for the same entries in another order, it settles within those flags. -/
theorem Settles.within (h : s.Settles d entries f added selection)
    (h' : s.Settles d entries' f added' selection') (hmem : ∀ entry ∈ entries, entry ∈ entries')
    (hpos : Positive entries) (hadded' : ∀ t ∈ added', t ∉ FlagSet.widths) :
    (f.extend added).pruneWidths.Within (f.extend added').pruneWidths := by
  obtain ⟨g, hrun, -⟩ := h
  have hclears := (attempt_eq_stable_iff.1 h'.attempt_eq).1
  rw [← hrun.pruneWidths_eq]
  exact hrun.within hpos (fun entry he => hclears entry (hmem entry he))
    (FlagSet.within_pruneWidths_extend hadded')

/-! ## The same flags, in some order -/

/-- Where no width is required, each flag is added once, and none that is active from the start. -/
theorem Settles.added_of_no_width {sets : List ManifestSet}
    (h : s.Settles d (ManifestSet.allEntries sets) f added selection)
    (huse : ∀ t ∈ ManifestSet.useTokens sets, t ∉ FlagSet.widths) :
    (∀ t ∈ added, t ∉ FlagSet.widths) ∧ added.Nodup ∧ ∀ t ∈ added, t ∉ f.pruneWidths.tokens := by
  obtain ⟨g, hrun, -⟩ := h
  have hfree : ¬ (FlagSet.width32 ∈ ManifestSet.useTokens sets ∧
      FlagSet.width64 ∈ ManifestSet.useTokens sets) := fun hboth =>
    huse _ hboth.1 List.mem_cons_self
  exact ⟨fun t ht => huse t (hrun.mem_useTokens t ht), hrun.fresh hrun.mem_useTokens hfree⟩

/-- Flags that were all missing at the start are among any others that end with the same ones. -/
theorem subset_of_within (hadded : ∀ t ∈ added, t ∉ FlagSet.widths)
    (hadded' : ∀ t ∈ added', t ∉ FlagSet.widths) (hnew : ∀ t ∈ added, t ∉ f.pruneWidths.tokens)
    (a : (f.extend added).pruneWidths.Within (f.extend added').pruneWidths) : added ⊆ added' := by
  intro t ht
  have hsub := a.subset
  rw [FlagSet.tokens_pruneWidths_extend hadded, FlagSet.tokens_pruneWidths_extend hadded'] at hsub
  rcases List.mem_append.1 (hsub (List.mem_append_right _ ht)) with h | h
  · exact absurd h (hnew t ht)
  · exact h

/-- Entries in another order are selected in another order. -/
theorem selectionUnder_perm (s : Selector) (d : Disk) (f : FlagSet) (h : entries.Perm entries') :
    (s.selectionUnder d f entries).included.Perm (s.selectionUnder d f entries').included ∧
      (s.selectionUnder d f entries).toCompile.Perm (s.selectionUnder d f entries').toCompile := by
  have hadmitted : (entries.filter (·.2.admitted f)).Perm (entries'.filter (·.2.admitted f)) :=
    h.filter _
  exact ⟨hadmitted.map _, hadmitted.filterMap _⟩

/-- Resolution does not depend on the order of the entries, where no filter asks for the absence of a
flag and no width is required. -/
theorem resolve_confluent (s : Selector) (d : Disk) (sets sets' : List ManifestSet) (f : FlagSet)
    (r r' : Resolution)
    (hperm : (ManifestSet.allEntries sets).Perm (ManifestSet.allEntries sets'))
    (huse : ∀ t ∈ ManifestSet.useTokens sets, t ∉ FlagSet.widths)
    (hpos : Positive (ManifestSet.allEntries sets))
    (h : s.resolve d sets f = .ok r) (h' : s.resolve d sets' f = .ok r') :
    r.flags.tokens.Perm r'.flags.tokens ∧ r.restarts = r'.restarts ∧
      r.selection.included.Perm r'.selection.included ∧
      r.selection.toCompile.Perm r'.selection.toCompile := by
  obtain ⟨added, -, hsettles, hflags, hrestarts⟩ := resolve_eq_ok_iff.1 h
  obtain ⟨added', -, hsettles', hflags', hrestarts'⟩ := resolve_eq_ok_iff.1 h'
  have huse' : ∀ t ∈ ManifestSet.useTokens sets', t ∉ FlagSet.widths := by
    intro t ht
    refine huse t ?_
    rw [ManifestSet.useTokens, ManifestSet.mem_distinct, List.mem_flatMap] at ht ⊢
    obtain ⟨entry, hentry, hte⟩ := ht
    exact ⟨entry, hperm.mem_iff.2 hentry, hte⟩
  have hpos' : Positive (ManifestSet.allEntries sets') :=
    fun entry he => hpos entry (hperm.mem_iff.2 he)
  obtain ⟨hadded, hnodup, hnew⟩ := hsettles.added_of_no_width huse
  obtain ⟨hadded', hnodup', hnew'⟩ := hsettles'.added_of_no_width huse'
  -- each run stays within the flags of the other
  have hwithin := hsettles.within hsettles' (fun _ => hperm.mem_iff.1) hpos hadded'
  have hwithin' := hsettles'.within hsettles (fun _ => hperm.mem_iff.2) hpos' hadded
  have hsub : added ⊆ added' := subset_of_within hadded hadded' hnew hwithin
  have hsub' : added' ⊆ added := subset_of_within hadded' hadded hnew' hwithin'
  have hsame : added.Perm added' :=
    (List.perm_ext_iff_of_nodup hnodup hnodup').2 fun t => ⟨fun ht => hsub ht, fun ht => hsub' ht⟩
  refine ⟨?_, ?_, ?_⟩
  · rw [hflags, hflags', FlagSet.tokens_pruneWidths_extend hadded,
      FlagSet.tokens_pruneWidths_extend hadded']
    exact hsame.append_left _
  · rw [hrestarts, hrestarts', hsame.length_eq]
  · have hselection := (attempt_eq_stable_iff.1 hsettles.attempt_eq).2
    have hselection' := (attempt_eq_stable_iff.1 hsettles'.attempt_eq).2
    rw [selectionUnder_congr (hwithin'.antisymm hwithin)] at hselection'
    rw [hselection, hselection']
    exact selectionUnder_perm s d _ hperm

/-- Two files that require one flag each, and one that takes part because of the first. -/
def Sample.requiring : List SourceEntry := [
  Sample.file "shared.c" [.options ⟨[.allow "-fPIC"]⟩, .raw "-DS"],
  Sample.file "pic.c" [.use "-fPIC"],
  Sample.file "fast.c" [.use "-O3"]]

/-- Their tasks under `-m32`, `-fPIC` and `-O3`. -/
def Sample.requiringTasks : List CompileTask := [
  Sample.task "shared.c" "16g4etw-shared-2p3cs0p0l1rtc.o" ["-DS"],
  Sample.task "pic.c" "16g4etw-pic-2p3cs0p0l1rtc.o" [],
  Sample.task "fast.c" "16g4etw-fast-2p3cs0p0l1rtc.o" []]

/-- Read backwards, the files get their flags in the other order and the same objects. -/
theorem sample_confluent :
    ∃ r r', Sample.selector.resolve Sample.disk [Sample.manifest Sample.requiring]
        (Sample.flags ["-m32"]) = .ok r ∧
      Sample.selector.resolve Sample.disk [Sample.manifest Sample.requiring.reverse]
        (Sample.flags ["-m32"]) = .ok r' ∧
      r.flags.tokens = ["-m32", "-fPIC", "-O3"] ∧ r'.flags.tokens = ["-m32", "-O3", "-fPIC"] ∧
      r.flags.tokens.Perm r'.flags.tokens ∧ r.restarts = r'.restarts ∧
      r.selection.included.Perm r'.selection.included ∧
      r.selection.toCompile.Perm r'.selection.toCompile := by
  have h : Sample.selector.resolve Sample.disk [Sample.manifest Sample.requiring]
      (Sample.flags ["-m32"]) =
        .ok ⟨Sample.flags ["-m32", "-fPIC", "-O3"],
          ⟨[⟨"shared.c"⟩, ⟨"pic.c"⟩, ⟨"fast.c"⟩], Sample.requiringTasks⟩, 2⟩ := by
    decide +kernel
  have h' : Sample.selector.resolve Sample.disk [Sample.manifest Sample.requiring.reverse]
      (Sample.flags ["-m32"]) =
        .ok ⟨Sample.flags ["-m32", "-O3", "-fPIC"],
          ⟨[⟨"fast.c"⟩, ⟨"pic.c"⟩, ⟨"shared.c"⟩], Sample.requiringTasks.reverse⟩, 2⟩ := by
    decide +kernel
  have hperm : (ManifestSet.allEntries [Sample.manifest Sample.requiring]).Perm
      (ManifestSet.allEntries [Sample.manifest Sample.requiring.reverse]) := by
    decide +kernel
  have huse : ∀ t ∈ ManifestSet.useTokens [Sample.manifest Sample.requiring],
      t ∉ FlagSet.widths := by
    decide
  have hpos : Positive (ManifestSet.allEntries [Sample.manifest Sample.requiring]) := by
    intro entry hentry group hgroup
    have hmem : entry ∈ Sample.requiring := by
      simpa [ManifestSet.allEntries, Sample.manifest] using hentry
    simp only [Sample.requiring, List.mem_cons, List.not_mem_nil, or_false] at hmem
    rcases hmem with rfl | rfl | rfl
    · have hg : group = ⟨[.allow "-fPIC"]⟩ := by simpa [Sample.file] using hgroup
      rw [hg]
      rfl
    · simp [Sample.file] at hgroup
    · simp [Sample.file] at hgroup
  exact ⟨_, _, h, h', rfl, rfl, resolve_confluent _ _ _ _ _ _ _ hperm huse hpos h h'⟩

end Selector

end VariantBuild
