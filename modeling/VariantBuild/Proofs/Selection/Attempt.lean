import VariantBuild.Proofs.Selection.Verdict
/-!
# What an attempt does

An attempt goes past the entries that it skips and past the admitted ones whose files can be queried.
The first entry that it does not go past decides how it ends (`attempt_cases`): in a restart
if the entry requires a flag, in an error if a query failed. Without such an entry the attempt is
stable, and its selection is read off the entries one by one (`Selector.selectionUnder`).
-/

namespace VariantBuild

namespace Staleness

theorem exists_io_of_checkDependencies_eq_error {d : Disk} {objectTime : Time} {ps : List Path}
    {e : BuildError} (h : checkDependencies d objectTime ps = .error e) :
    ∃ p cause, e = .io p cause := by
  induction ps with
  | nil => cases h
  | cons p ps ih =>
    rw [checkDependencies] at h
    split at h
    · split at h
      · cases h
      · exact ih h
    · cases h
    · cases h
      exact ⟨_, _, rfl⟩

/-- A check fails only if a file cannot be queried. -/
theorem exists_io_of_check_eq_error {d : Disk} {source object : Path} {dependencies : List Path}
    {e : BuildError} (h : check d source object dependencies = .error e) :
    ∃ p cause, e = .io p cause := by
  rw [check] at h
  split at h
  · cases h
  · cases h
    exact ⟨_, _, rfl⟩
  · split at h
    · cases h
      exact ⟨_, _, rfl⟩
    · split at h
      · cases h
      · exact exists_io_of_checkDependencies_eq_error h

end Staleness

namespace Selector

/-- Whether an attempt goes past an entry. -/
def clears (s : Selector) (d : Disk) (f : FlagSet) (entry : SourceEntry) : Bool :=
  match judge f entry.2.flags with
  | .skipped _ => true
  | .required _ => false
  | .admitted _ => (s.staleness d f entry).isOk

/-- The task for an entry, if its object is stale. -/
def compileTask? (s : Selector) (d : Disk) (f : FlagSet) (entry : SourceEntry) : Option CompileTask :=
  match s.staleness d f entry with
  | .ok (some reason) => some (s.task f entry entry.2.rawArguments reason)
  | _ => none

/-- The admitted entries, and the tasks for those whose objects are stale. -/
def selectionUnder (s : Selector) (d : Disk) (f : FlagSet) (entries : List SourceEntry) : Selection :=
  let admitted := entries.filter (·.2.admitted f)
  ⟨admitted.map (·.1), admitted.filterMap (s.compileTask? d f)⟩

/-- The first entry that an attempt does not go past requires the flag. -/
def Requires (s : Selector) (d : Disk) (f : FlagSet) (entries : List SourceEntry) (t : String) : Prop :=
  ∃ entry, entries.find? (!s.clears d f ·) = some entry ∧ judge f entry.2.flags = .required t

variable {s : Selector} {d : Disk} {f g : FlagSet} {entry : SourceEntry} {entries : List SourceEntry}
  {t : String}

/-! ## One entry -/

@[simp] theorem task_source (arguments : List String) (reason : StaleReason) :
    (s.task f entry arguments reason).source = entry.1 := rfl

theorem clears_of_admitted {arguments : List String}
    (h : judge f entry.2.flags = .admitted arguments) :
    s.clears d f entry = (s.staleness d f entry).isOk := by
  simp only [clears, h]

/-- What stops an attempt: a required flag, or an admitted entry with a file that cannot be queried. -/
theorem clears_eq_false_iff :
    s.clears d f entry = false ↔ (∃ t, judge f entry.2.flags = .required t) ∨
      (entry.2.admitted f = true ∧ ∃ e, s.staleness d f entry = .error e) := by
  cases hj : judge f entry.2.flags with
  | skipped cause =>
    have ha : ¬ entry.2.admitted f = true := fun ha => by
      rw [judge_eq_admitted_iff.2 ⟨ha, rfl⟩] at hj
      cases hj
    simp [clears, hj, ha]
  | required token => simp [clears, hj]
  | admitted arguments =>
    rw [clears_of_admitted hj]
    have ha := (judge_eq_admitted_iff.1 hj).1
    cases s.staleness d f entry <;> simp [ha, Except.isOk, Except.toBool]

/-! ## All entries -/

/-- An attempt that goes past all entries selects every admitted one. -/
theorem attempt_eq_stable_of_clears (h : ∀ entry ∈ entries, s.clears d f entry = true) :
    s.attempt d f entries = .ok (.stable (s.selectionUnder d f entries)) := by
  induction entries with
  | nil => rfl
  | cons entry entries ih =>
    have hentry := h entry List.mem_cons_self
    have hrest := ih fun e he => h e (List.mem_cons_of_mem entry he)
    cases hj : judge f entry.2.flags with
    | required token => simp [clears, hj] at hentry
    | skipped cause =>
      have ha : entry.2.admitted f = false := by
        rw [Bool.eq_false_iff]
        intro ha
        rw [judge_eq_admitted_iff.2 ⟨ha, rfl⟩] at hj
        cases hj
      simp [attempt, hj, hrest, selectionUnder, ha]
    | admitted arguments =>
      obtain ⟨ha, rfl⟩ := judge_eq_admitted_iff.1 hj
      rw [clears_of_admitted hj] at hentry
      cases hs : s.staleness d f entry with
      | error e => simp [hs, Except.isOk, Except.toBool] at hentry
      | ok reason =>
        -- the entry is linked in any case, and compiled if there is a reason
        cases reason <;>
          simp [attempt, hj, hs, hrest, selectionUnder, ha, prepend, compileTask?]

/-- Entries that an attempt goes past do not change how it ends, unless it is stable. -/
theorem attempt_append_of_clears {before rest : List SourceEntry} {result : Except BuildError Attempt}
    (h : ∀ entry ∈ before, s.clears d f entry = true) (hr : s.attempt d f rest = result)
    (hns : ∀ selection, result ≠ .ok (.stable selection)) :
    s.attempt d f (before ++ rest) = result := by
  induction before with
  | nil => exact hr
  | cons entry before ih =>
    have hentry := h entry List.mem_cons_self
    have hbefore := ih fun e he => h e (List.mem_cons_of_mem entry he)
    rw [List.cons_append, attempt]
    cases hj : judge f entry.2.flags with
    | required token => simp [clears, hj] at hentry
    | skipped cause => exact hbefore
    | admitted arguments =>
      rw [clears_of_admitted hj] at hentry
      cases hs : s.staleness d f entry with
      | error e => simp [hs, Except.isOk, Except.toBool] at hentry
      | ok reason =>
        -- an admitted entry would only add itself to a stable selection
        simp only [hbefore]
        match result, hns with
        | .error e, _ => rfl
        | .ok (.restart g), _ => rfl
        | .ok (.stable selection), hns => exact absurd rfl (hns selection)

theorem requires_append_cons {before after : List SourceEntry}
    (hbefore : ∀ b ∈ before, s.clears d f b = true) (hj : judge f entry.2.flags = .required t) :
    s.Requires d f (before ++ entry :: after) t := by
  have hstop : s.clears d f entry = false := clears_eq_false_iff.2 (.inl ⟨t, hj⟩)
  exact ⟨entry, find?_not_eq_some_iff.2 ⟨hstop, before, after, rfl, hbefore⟩, hj⟩

/-- A required flag that is missing ends the attempt in a restart with that flag added. -/
theorem Requires.attempt_eq (h : s.Requires d f entries t) :
    s.attempt d f entries = .ok (.restart (f.push t)) := by
  obtain ⟨entry, hfind, hj⟩ := h
  obtain ⟨-, before, after, rfl, hbefore⟩ := find?_not_eq_some_iff.1 hfind
  have hnot : t ∉ f.tokens := (judge_eq_required_iff.1 hj).1
  apply attempt_append_of_clears hbefore
  · simp only [attempt, hj, FlagSet.add_of_notMem hnot]
  · intro selection h
    cases h

/-- How an attempt ends: it goes past all entries, or stops at one that requires a flag or whose files
cannot be queried. -/
theorem attempt_cases (s : Selector) (d : Disk) (f : FlagSet) (entries : List SourceEntry) :
    ((∀ entry ∈ entries, s.clears d f entry = true) ∧
      s.attempt d f entries = .ok (.stable (s.selectionUnder d f entries))) ∨
    (∃ t, s.Requires d f entries t ∧ s.attempt d f entries = .ok (.restart (f.push t))) ∨
    (∃ entry e, entries.find? (!s.clears d f ·) = some entry ∧ entry.2.admitted f = true ∧
      s.staleness d f entry = .error e ∧ s.attempt d f entries = .error e) := by
  cases hfind : entries.find? (!s.clears d f ·) with
  | none =>
    have hall : ∀ entry ∈ entries, s.clears d f entry = true := by
      simpa using List.find?_eq_none.1 hfind
    exact .inl ⟨hall, attempt_eq_stable_of_clears hall⟩
  | some entry =>
    obtain ⟨hstop, before, after, hentries, hbefore⟩ := find?_not_eq_some_iff.1 hfind
    rcases clears_eq_false_iff.1 hstop with ⟨t, hj⟩ | ⟨ha, e, hs⟩
    · have hreq : s.Requires d f entries t := ⟨entry, hfind, hj⟩
      exact .inr (.inl ⟨t, hreq, hreq.attempt_eq⟩)
    · refine .inr (.inr ⟨entry, e, rfl, ha, hs, ?_⟩)
      rw [hentries]
      apply attempt_append_of_clears hbefore
      · rw [attempt, judge_eq_admitted_iff.2 ⟨ha, rfl⟩, hs]
      · intro selection h
        cases h

theorem attempt_eq_stable_iff {selection : Selection} :
    s.attempt d f entries = .ok (.stable selection) ↔
      (∀ entry ∈ entries, s.clears d f entry = true) ∧
        selection = s.selectionUnder d f entries := by
  constructor
  · intro h
    rcases s.attempt_cases d f entries with ⟨hall, ha⟩ | ⟨t, -, ha⟩ | ⟨entry, e, -, -, -, ha⟩
    · rw [ha] at h
      cases h
      exact ⟨hall, rfl⟩
    · rw [ha] at h
      cases h
    · rw [ha] at h
      cases h
  · rintro ⟨hall, rfl⟩
    exact attempt_eq_stable_of_clears hall

theorem attempt_eq_restart_iff :
    s.attempt d f entries = .ok (.restart g) ↔ ∃ t, s.Requires d f entries t ∧ g = f.push t := by
  constructor
  · intro h
    rcases s.attempt_cases d f entries with ⟨-, ha⟩ | ⟨t, ht, ha⟩ | ⟨entry, e, -, -, -, ha⟩
    · rw [ha] at h
      cases h
    · rw [ha] at h
      cases h
      exact ⟨t, ht, rfl⟩
    · rw [ha] at h
      cases h
  · rintro ⟨t, ht, rfl⟩
    exact ht.attempt_eq

/-- An attempt fails only if a file cannot be queried. -/
theorem exists_io_of_attempt_eq_error {e : BuildError} (h : s.attempt d f entries = .error e) :
    ∃ p cause, e = .io p cause := by
  rcases s.attempt_cases d f entries with ⟨-, ha⟩ | ⟨t, -, ha⟩ | ⟨entry, e', -, -, hs, ha⟩
  · rw [ha] at h
    cases h
  · rw [ha] at h
    cases h
  · rw [ha] at h
    cases h
    rw [staleness] at hs
    exact Staleness.exists_io_of_check_eq_error hs

/-! ## The required flag -/

theorem Requires.notMem (h : s.Requires d f entries t) : t ∉ f.tokens := by
  obtain ⟨entry, -, hj⟩ := h
  exact (judge_eq_required_iff.1 hj).1

/-- A flag is only ever required by the `@use` of an entry. -/
theorem Requires.exists_use (h : s.Requires d f entries t) :
    ∃ entry ∈ entries, ∃ before after, entry.2.flags = before ++ .use t :: after ∧
      ∀ b ∈ before, b.passes f = true := by
  obtain ⟨entry, hfind, hj⟩ := h
  exact ⟨entry, List.mem_of_find?_eq_some hfind, (judge_eq_required_iff.1 hj).2⟩

theorem Requires.mem_useTokens {sets : List ManifestSet}
    (h : s.Requires d f (ManifestSet.allEntries sets) t) : t ∈ ManifestSet.useTokens sets := by
  obtain ⟨entry, hentry, before, after, hflags, -⟩ := h.exists_use
  rw [ManifestSet.useTokens, ManifestSet.mem_distinct, List.mem_flatMap]
  refine ⟨entry, hentry, ?_⟩
  rw [FileEntry.useTokens, hflags, List.mem_filterMap]
  exact ⟨.use t, by simp, rfl⟩

/-- An attempt restarts with one flag at most. -/
theorem Requires.unique {u : String} (h : s.Requires d f entries t) (h' : s.Requires d f entries u) :
    t = u := by
  obtain ⟨entry, hfind, hj⟩ := h
  obtain ⟨entry', hfind', hj'⟩ := h'
  rw [hfind] at hfind'
  cases hfind'
  rw [hj] at hj'
  cases hj'
  rfl

/-! ## Other flag sets -/

theorem staleness_congr (a : f.Alike g) (entry : SourceEntry) :
    s.staleness d f entry = s.staleness d g entry := by
  simp only [staleness, s.cache.objectPath_congr a]

theorem clears_congr (a : f.Alike g) (entry : SourceEntry) :
    s.clears d f entry = s.clears d g entry := by
  simp only [clears, judge_congr a, staleness_congr a]

theorem compileTask?_congr (a : f.Alike g) (entry : SourceEntry) :
    s.compileTask? d f entry = s.compileTask? d g entry := by
  simp only [compileTask?, task, staleness_congr a, s.cache.objectPath_congr a]

theorem requires_congr (a : f.Alike g) :
    s.Requires d f entries t ↔ s.Requires d g entries t := by
  simp only [Requires, clears_congr a, judge_congr a]

/-- What is selected depends on no order or repetition of tokens. -/
theorem selectionUnder_congr (a : f.Alike g) (entries : List SourceEntry) :
    s.selectionUnder d f entries = s.selectionUnder d g entries := by
  have htask : s.compileTask? d f = s.compileTask? d g := funext (compileTask?_congr a)
  simp only [selectionUnder, FileEntry.admitted_congr a, htask]

theorem attempt_stable_congr (a : f.Alike g) {selection : Selection} :
    s.attempt d f entries = .ok (.stable selection) ↔
      s.attempt d g entries = .ok (.stable selection) := by
  simp only [attempt_eq_stable_iff, clears_congr a, selectionUnder_congr a]

end Selector

end VariantBuild
