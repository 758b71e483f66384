import Mathlib.Data.Finset.Card
import VariantBuild.Proofs.Selection.Accounting
/-!
# False alarms of the divergence check

Resolution gives up after as many restarts as there are flags to require. With a conflict of widths
that can be too early. A width which another one has replaced may be required once more, and selection
still settles if some other flag has become active meanwhile.

How late it can settle is bounded all the same. A flag that is no width is added once at most, and
between two such flags a width can only be replaced once: replaced twice, the flags are those from
before, and the loop repeats itself forever (`Settles.notMem_widths_of_replaced`).
-/

namespace VariantBuild

namespace FlagSet

variable {f : FlagSet} {t u v : String} {tokens : List String}

/-- Some width is active. -/
def HasWidth (f : FlagSet) : Prop :=
  ∃ t ∈ f.tokens, t ∈ widths

/-- The tokens that are neither widths nor active. -/
def missing (tokens : List String) (f : FlagSet) : Finset String :=
  tokens.toFinset.filter fun t => t ∉ widths ∧ t ∉ f.tokens

/-- There are only two widths. -/
theorem eq_of_ne_of_mem_widths (ht : t ∈ widths) (hu : u ∈ widths) (hv : v ∈ widths) (htu : t ≠ u)
    (htv : t ≠ v) : u = v := by
  simp only [widths, List.mem_cons, List.not_mem_nil, or_false] at ht hu hv
  rcases ht with rfl | rfl <;> rcases hu with rfl | rfl <;> rcases hv with rfl | rfl <;> simp_all

theorem hasWidth_pruneWidths : f.pruneWidths.HasWidth ↔ f.HasWidth :=
  exists_member_pruneTokens

theorem HasWidth.push (h : f.HasWidth) (t : String) : (f.pruneWidths.push t).HasWidth := by
  obtain ⟨u, hu, huw⟩ := hasWidth_pruneWidths.2 h
  exact ⟨u, List.mem_append_left [t] hu, huw⟩

theorem hasWidth_push (ht : t ∈ widths) : (f.push t).HasWidth :=
  ⟨t, by simp, ht⟩

/-- A width that is added fills no gap. -/
theorem missing_push_of_mem_widths (ht : t ∈ widths) :
    missing tokens (f.pruneWidths.push t) = missing tokens f := by
  ext u
  simp only [missing, Finset.mem_filter, tokens_push, List.mem_append, List.mem_singleton, not_or]
  constructor
  · rintro ⟨hu, huw, hnot, -⟩
    exact ⟨hu, huw, fun h => hnot ((mem_pruneWidths_of_notMem_widths huw).2 h)⟩
  · rintro ⟨hu, huw, hnot⟩
    refine ⟨hu, huw, fun h => hnot ((mem_pruneWidths_of_notMem_widths huw).1 h), ?_⟩
    rintro rfl
    exact huw ht

/-- Any other flag that is added fills one, if it was missing. -/
theorem card_missing_push_of_notMem_widths (ht : t ∈ tokens) (htw : t ∉ widths)
    (hnew : t ∉ f.pruneWidths.tokens) :
    (missing tokens (f.pruneWidths.push t)).card + 1 = (missing tokens f).card := by
  have herase : missing tokens (f.pruneWidths.push t) = (missing tokens f).erase t := by
    ext u
    simp only [missing, Finset.mem_filter, Finset.mem_erase, tokens_push, List.mem_append,
      List.mem_singleton, not_or]
    constructor
    · rintro ⟨hu, huw, hnot, hne⟩
      exact ⟨hne, hu, huw, fun h => hnot ((mem_pruneWidths_of_notMem_widths huw).2 h)⟩
    · rintro ⟨hne, hu, huw, hnot⟩
      exact ⟨hu, huw, fun h => hnot ((mem_pruneWidths_of_notMem_widths huw).1 h), hne⟩
  have hmem : t ∈ missing tokens f := by
    rw [mem_pruneWidths_of_notMem_widths htw] at hnew
    simp [missing, ht, htw, hnew]
  rw [herase, Finset.card_erase_add_one hmem]

/-- Tokens that have both widths have two more than can be missing. -/
theorem card_missing_add_two_le (h32 : width32 ∈ tokens) (h64 : width64 ∈ tokens) :
    (missing tokens f).card + 2 ≤ tokens.length := by
  have h32not : width32 ∉ missing tokens f := by simp [missing, widths]
  have h64not : width64 ∉ insert width32 (missing tokens f) := by
    simp [missing, widths, width32, width64]
  -- the missing flags and the two widths are three disjoint parts of the tokens
  have hsub : insert width64 (insert width32 (missing tokens f)) ⊆ tokens.toFinset := by
    intro u hu
    simp only [Finset.mem_insert] at hu
    rcases hu with rfl | rfl | hu
    · exact List.mem_toFinset.2 h64
    · exact List.mem_toFinset.2 h32
    · exact Finset.mem_of_mem_filter u hu
  have hcard := (Finset.card_le_card hsub).trans (List.toFinset_card_le (l := tokens))
  rw [Finset.card_insert_of_notMem h64not, Finset.card_insert_of_notMem h32not] at hcard
  omega

end FlagSet

namespace Selector

/-- Resolution gives up although the loop without a limit settles. -/
def FalseAlarm (s : Selector) (d : Disk) (sets : List ManifestSet) (f : FlagSet) : Prop :=
  (∃ n, s.resolve d sets f = .error (.diverged n)) ∧
    ∃ added selection, s.Settles d (ManifestSet.allEntries sets) f added selection

variable {s : Selector} {d : Disk} {entries : List SourceEntry} {sets : List ManifestSet}
  {f : FlagSet} {t u : String} {added tokens : List String} {selection : Selection}

/-! ## How late selection can settle -/

/-- Where selection settles, a width that is replaced is not required before another flag: with it the
flags would be those from before. -/
theorem Settles.notMem_widths_of_replaced
    (h : s.Settles d entries f (t :: u :: added) selection) (hf : f.HasWidth)
    (ht : t ∈ FlagSet.widths) : u ∉ FlagSet.widths := by
  intro hu
  obtain ⟨hreq, hnext⟩ := settles_cons_iff.1 h
  obtain ⟨hreq', hrest⟩ := settles_cons_iff.1 hnext
  obtain ⟨v, hv, hvw⟩ := FlagSet.hasWidth_pruneWidths.2 hf
  have htv : t ≠ v := by
    rintro rfl
    exact hreq.notMem hv
  have htu : t ≠ u := by
    rintro rfl
    exact hreq'.notMem (FlagSet.mem_pruneWidths_push_iff.2 (.inl rfl))
  obtain rfl := FlagSet.eq_of_ne_of_mem_widths ht hu hvw htu htv
  have hback : ((f.pruneWidths.push t).pruneWidths.push u).pruneWidths.Alike f.pruneWidths := by
    refine ⟨fun w => ?_, rfl, rfl, rfl⟩
    rw [FlagSet.mem_pruneWidths_push_iff, FlagSet.mem_pruneWidths_push_iff]
    constructor
    · rintro (rfl | ⟨rfl | ⟨hw, -⟩, hkept⟩)
      · exact hv
      · exact absurd ⟨hu, ht⟩ hkept
      · exact hw
    · intro hw
      by_cases hww : w ∈ FlagSet.widths
      · exact .inl (FlagSet.eq_of_mem_pruneWidths hw hv hww hvw)
      · exact .inr ⟨.inr ⟨hw, fun h => hww h.2⟩, fun h => hww h.2⟩
  -- so the loop settles from `f` also without these two restarts, and there is one way only
  have hsame := (h.unique (hrest.congr hback)).1
  have hlen := congrArg List.length hsame
  simp only [List.length_cons] at hlen
  omega

/-- With a width active, at most one restart replaces it before each of the missing flags and one
behind them; the first is spared if no width is required first. -/
theorem Settles.length_le_of_hasWidth (h : s.Settles d entries f added selection)
    (hsub : added ⊆ tokens) (hf : f.HasWidth) :
    added.length ≤ 2 * (FlagSet.missing tokens f).card + 1 ∧
      ((∀ t ∈ added.head?, t ∉ FlagSet.widths) →
        added.length ≤ 2 * (FlagSet.missing tokens f).card) := by
  induction added generalizing f with
  | nil => simp
  | cons t added ih =>
    obtain ⟨hreq, hrest⟩ := settles_cons_iff.1 h
    have hsub' : added ⊆ tokens := fun u hu => hsub (List.mem_cons_of_mem t hu)
    obtain ⟨hle, hle'⟩ := ih hrest hsub' (hf.push t)
    rw [List.length_cons]
    by_cases ht : t ∈ FlagSet.widths
    · -- a width: what comes next is no width again
      rw [FlagSet.missing_push_of_mem_widths ht] at hle'
      have hnext : ∀ u ∈ added.head?, u ∉ FlagSet.widths := by
        cases added with
        | nil => simp
        | cons u added => simpa using h.notMem_widths_of_replaced hf ht
      have hbound := hle' hnext
      refine ⟨by omega, fun hfirst => ?_⟩
      exact absurd ht (hfirst t rfl)
    · -- any other flag fills a gap, and a gap stands for two restarts
      have hcard := FlagSet.card_missing_push_of_notMem_widths (hsub List.mem_cons_self) ht
        hreq.notMem
      exact ⟨by omega, fun _ => by omega⟩

/-- From any flags there is one restart more, which makes a width active. -/
theorem Settles.length_le_of_missing (h : s.Settles d entries f added selection)
    (hsub : added ⊆ tokens) : added.length ≤ 2 * (FlagSet.missing tokens f).card + 2 := by
  induction added generalizing f with
  | nil => simp
  | cons t added ih =>
    obtain ⟨hreq, hrest⟩ := settles_cons_iff.1 h
    have hsub' : added ⊆ tokens := fun u hu => hsub (List.mem_cons_of_mem t hu)
    rw [List.length_cons]
    by_cases ht : t ∈ FlagSet.widths
    · have hle := (hrest.length_le_of_hasWidth hsub' (FlagSet.hasWidth_push ht)).1
      rw [FlagSet.missing_push_of_mem_widths ht] at hle
      omega
    · have hle := ih hrest hsub'
      have hcard := FlagSet.card_missing_push_of_notMem_widths (hsub List.mem_cons_self) ht
        hreq.notMem
      omega

/-- Selection that settles later than resolution waits for has a conflict of widths, and restarts less
than twice for every flag that may be required. -/
theorem Settles.late_bound (h : s.Settles d (ManifestSet.allEntries sets) f added selection)
    (hlate : (ManifestSet.useTokens sets).length < added.length) :
    FlagSet.width32 ∈ ManifestSet.useTokens sets ∧ FlagSet.width64 ∈ ManifestSet.useTokens sets ∧
      added.length + 2 ≤ 2 * (ManifestSet.useTokens sets).length := by
  have ⟨g, hrun, _⟩ := h
  by_cases hboth : FlagSet.width32 ∈ ManifestSet.useTokens sets ∧
      FlagSet.width64 ∈ ManifestSet.useTokens sets
  · have hle := h.length_le_of_missing hrun.mem_useTokens
    have hcard := FlagSet.card_missing_add_two_le (f := f) hboth.1 hboth.2
    exact ⟨hboth.1, hboth.2, by omega⟩
  · have hle := hrun.length_le hboth
    omega

/-- Tokens without repetitions that are more than two are not all widths. -/
theorem exists_notMem_widths (hnodup : tokens.Nodup) (hlen : 2 < tokens.length) :
    ∃ t ∈ tokens, t ∉ FlagSet.widths := by
  by_contra hall
  have hsub : tokens ⊆ FlagSet.widths := by
    intro t ht
    by_contra htw
    exact hall ⟨t, ht, htw⟩
  have hle : tokens.length ≤ 2 := List.Nodup.length_le_of_subset hnodup hsub
  omega

/-- A false alarm is a selection that settles too late. -/
theorem falseAlarm_iff_late : s.FalseAlarm d sets f ↔ ∃ added selection,
    s.Settles d (ManifestSet.allEntries sets) f added selection ∧
      (ManifestSet.useTokens sets).length < added.length := by
  constructor
  · rintro ⟨⟨n, hn⟩, added, selection, h⟩
    refine ⟨added, selection, h, ?_⟩
    by_contra hle
    rw [resolve, h.settle_eq (Nat.le_of_not_lt hle)] at hn
    cases hn
  · rintro ⟨added, selection, h, hlate⟩
    refine ⟨?_, added, selection, h⟩
    obtain ⟨g, hrun, -⟩ := h
    exact ⟨_, hrun.settle_eq hlate⟩

/-! ## Entries that settle too late -/

namespace Seesaw

/-- A filter that no flags pass. -/
def barrier : Group :=
  ⟨[.allow "never", .exclude "never"]⟩

/-- An entry that requires a flag behind a filter, but never takes part. -/
def guarded (source : String) (group : Group) (t : String) : SourceEntry :=
  Sample.file source [.options group, .use t, .options barrier]

/-- The first two entries require the widths in turn. The third requires `a` once that has happened,
and the second is out of play then. The fourth makes the last swap, which no entry reverts. -/
def core (a : String) : List SourceEntry := [
  guarded "1.c" ⟨[.exclude FlagSet.width64]⟩ FlagSet.width32,
  guarded "2.c" ⟨[.allow FlagSet.width32, .exclude a]⟩ FlagSet.width64,
  guarded "3.c" ⟨[.allow FlagSet.width64]⟩ a,
  guarded "4.c" ⟨[.allow a]⟩ FlagSet.width32]

/-- An entry that requires one flag more. -/
def collector (t : String) : SourceEntry :=
  guarded ("use" ++ t ++ ".c") ⟨[]⟩ t

/-- The seesaw, with collectors behind it. -/
def project (a : String) (rest : List String) : List SourceEntry :=
  core a ++ rest.map collector

variable {a : String} {rest done : List String}

theorem admitsFlags_barrier (f : FlagSet) : barrier.admitsFlags f = false := by
  by_cases h : "never" ∈ f.tokens <;> simp [barrier, FlagSet.has, h]

@[simp] theorem judge_guarded_eq_required_iff {source : String} {group : Group} :
    judge f (guarded source group t).2.flags = .required u ↔
      group.admitsFlags f = true ∧ t ∉ f.tokens ∧ t = u := by
  by_cases hg : group.admitsFlags f = true <;> by_cases ht : t ∈ f.tokens <;>
    simp [guarded, Sample.file, judge, admitsFlags_barrier, hg, ht]

@[simp] theorem clears_guarded (s : Selector) (d : Disk) (f : FlagSet) (source : String)
    (group : Group) (t : String) :
    s.clears d f (guarded source group t) = (!group.admitsFlags f || f.has t) := by
  by_cases hg : group.admitsFlags f = true <;> by_cases ht : f.has t = true <;>
    simp [clears, guarded, Sample.file, judge, admitsFlags_barrier, hg, ht]

/-! One lemma for each position of the seesaw. -/

theorem requires_first (h32 : FlagSet.width32 ∉ f.tokens) (h64 : FlagSet.width64 ∉ f.tokens) :
    s.Requires d f (project a rest) FlagSet.width32 := by
  simp [Requires, project, core, h32, h64]

theorem requires_swap (h32 : FlagSet.width32 ∈ f.tokens) (h64 : FlagSet.width64 ∉ f.tokens)
    (ha : a ∉ f.tokens) : s.Requires d f (project a rest) FlagSet.width64 := by
  simp [Requires, project, core, FlagSet.has, h32, h64, ha]

theorem requires_other (h32 : FlagSet.width32 ∉ f.tokens) (h64 : FlagSet.width64 ∈ f.tokens)
    (ha : a ∉ f.tokens) : s.Requires d f (project a rest) a := by
  simp [Requires, project, core, FlagSet.has, h32, h64, ha]

theorem requires_swap_back (h32 : FlagSet.width32 ∉ f.tokens) (h64 : FlagSet.width64 ∈ f.tokens)
    (ha : a ∈ f.tokens) : s.Requires d f (project a rest) FlagSet.width32 := by
  simp [Requires, project, core, FlagSet.has, h32, h64, ha]

@[simp] theorem judge_collector_eq_required_iff :
    judge f (collector t).2.flags = .required u ↔ t ∉ f.tokens ∧ t = u := by
  simp [collector]

@[simp] theorem clears_collector (s : Selector) (d : Disk) (f : FlagSet) (t : String) :
    s.clears d f (collector t) = f.has t := by
  simp [collector]

/-- Under these flags the seesaw has come to rest. -/
structure AtRest (a : String) (done : List String) (f : FlagSet) : Prop where
  width32_mem : FlagSet.width32 ∈ f.tokens
  width64_notMem : FlagSet.width64 ∉ f.tokens
  other_mem : a ∈ f.tokens
  done_mem : ∀ t ∈ done, t ∈ f.tokens

theorem AtRest.clears (h : AtRest a done f) : ∀ entry ∈ project a done, s.clears d f entry = true := by
  intro entry hentry
  rcases List.mem_append.1 hentry with hentry | hentry
  · have hcore : ∀ e ∈ core a, s.clears d f e = true := by
      simp [core, FlagSet.has, h.width32_mem, h.width64_notMem, h.other_mem]
    exact hcore entry hentry
  · obtain ⟨t, ht, rfl⟩ := List.mem_map.1 hentry
    simpa using h.done_mem t ht

/-- One more flag that is no width leaves the seesaw at rest. -/
theorem AtRest.push (h : AtRest a done f.pruneWidths) (ht : t ∉ FlagSet.widths) :
    AtRest a (done ++ [t]) (f.pruneWidths.push t).pruneWidths := by
  have hmem : ∀ u, u ∈ (f.pruneWidths.push t).pruneWidths.tokens ↔
      u = t ∨ u ∈ f.pruneWidths.tokens := by
    intro u
    simp [FlagSet.mem_pruneWidths_push_iff, ht]
  have h64 : FlagSet.width64 ≠ t := by
    rintro rfl
    exact ht (by decide)
  refine ⟨?_, ?_, ?_, ?_⟩
  · exact (hmem _).2 (.inr h.width32_mem)
  · simp [hmem, h64, h.width64_notMem]
  · exact (hmem _).2 (.inr h.other_mem)
  · intro u hu
    rcases List.mem_append.1 hu with hu | hu
    · exact (hmem u).2 (.inr (h.done_mem u hu))
    · exact (hmem u).2 (.inl (List.mem_singleton.1 hu))

/-- At rest, the collectors get what they require one by one. -/
theorem AtRest.settles (s : Selector) (d : Disk) (h : AtRest a done f.pruneWidths)
    (hnodup : rest.Nodup) (hrest : ∀ t ∈ rest, t ∉ FlagSet.widths ∧ t ∉ f.pruneWidths.tokens) :
    ∃ selection, s.Settles d (project a (done ++ rest)) f rest selection := by
  induction rest generalizing f done with
  | nil =>
    rw [List.append_nil]
    exact ⟨_, settles_nil_iff.2 (attempt_eq_stable_of_clears h.clears)⟩
  | cons t rest ih =>
    obtain ⟨htw, hnew⟩ := hrest t List.mem_cons_self
    obtain ⟨hnot, hnodup'⟩ := List.nodup_cons.1 hnodup
    have hnext : ∀ u ∈ rest, u ∉ FlagSet.widths ∧ u ∉ (f.pruneWidths.push t).pruneWidths.tokens := by
      intro u hu
      obtain ⟨huw, hunew⟩ := hrest u (List.mem_cons_of_mem t hu)
      have hne : u ≠ t := by
        rintro rfl
        exact hnot hu
      exact ⟨huw, by simp [FlagSet.mem_pruneWidths_push_iff, hne, hunew]⟩
    obtain ⟨selection, hsettles⟩ := ih (h.push htw) hnodup' hnext
    -- the collectors so far are content, so the next one in line requires its flag
    have hsplit : project a (done ++ t :: rest) =
        project a done ++ collector t :: rest.map collector := by
      simp [project]
    have hreq : s.Requires d f.pruneWidths (project a (done ++ t :: rest)) t := by
      rw [hsplit]
      exact requires_append_cons h.clears (by simpa using hnew)
    rw [List.append_assoc, List.singleton_append] at hsettles
    exact ⟨selection, settles_cons_iff.2 ⟨hreq, hsettles⟩⟩

/-- From flags with none of those that are required, the seesaw moves four times before it comes to
rest. -/
theorem settles_project (s : Selector) (d : Disk) (h32 : FlagSet.width32 ∉ f.tokens)
    (h64 : FlagSet.width64 ∉ f.tokens) (ha : a ∉ f.tokens) (haw : a ∉ FlagSet.widths)
    (hnodup : rest.Nodup) (hrest : ∀ t ∈ rest, t ∉ FlagSet.widths ∧ t ≠ a ∧ t ∉ f.tokens) :
    ∃ selection, s.Settles d (project a rest) f
      (FlagSet.width32 :: FlagSet.width64 :: a :: FlagSet.width32 :: rest) selection := by
  have hnot : ∀ {t}, t ∉ f.tokens → t ∉ f.pruneWidths.tokens := fun ht h =>
    ht ((FlagSet.pruneTokens_sublist FlagSet.widths f.tokens).subset h)
  have hw32 : FlagSet.width32 ∈ FlagSet.widths := by decide
  have hw64 : FlagSet.width64 ∈ FlagSet.widths := by decide
  have hne : FlagSet.width32 ≠ FlagSet.width64 := by decide
  have hne32 : a ≠ FlagSet.width32 := fun h => haw (h ▸ hw32)
  have hne64 : a ≠ FlagSet.width64 := fun h => haw (h ▸ hw64)
  -- which of the three flags are active after each of the four restarts
  let f₁ := f.pruneWidths.push FlagSet.width32
  have h₁ : FlagSet.width32 ∈ f₁.pruneWidths.tokens ∧ FlagSet.width64 ∉ f₁.pruneWidths.tokens ∧
      a ∉ f₁.pruneWidths.tokens := by
    simp [f₁, FlagSet.mem_pruneWidths_push_iff, hne.symm, hne32, hnot h64, hnot ha]
  let f₂ := f₁.pruneWidths.push FlagSet.width64
  have h₂ : FlagSet.width32 ∉ f₂.pruneWidths.tokens ∧ FlagSet.width64 ∈ f₂.pruneWidths.tokens ∧
      a ∉ f₂.pruneWidths.tokens := by
    simp [f₂, FlagSet.mem_pruneWidths_push_iff, hne, hne64, hw32, hw64, h₁.2.2]
  let f₃ := f₂.pruneWidths.push a
  have h₃ : FlagSet.width32 ∉ f₃.pruneWidths.tokens ∧ FlagSet.width64 ∈ f₃.pruneWidths.tokens ∧
      a ∈ f₃.pruneWidths.tokens := by
    simp [f₃, FlagSet.mem_pruneWidths_push_iff, hne32.symm, haw, h₂.1, h₂.2.1]
  let f₄ := f₃.pruneWidths.push FlagSet.width32
  have h₄ : AtRest a [] f₄.pruneWidths := by
    constructor <;>
      simp [f₄, FlagSet.mem_pruneWidths_push_iff, hne.symm, hw32, hw64, haw, h₃.2.2]
  -- the four restarts add no flag that a collector requires
  have hrest₄ : ∀ t ∈ rest, t ∉ FlagSet.widths ∧ t ∉ f₄.pruneWidths.tokens := by
    intro t ht
    obtain ⟨htw, hta, htf⟩ := hrest t ht
    have ht32 : t ≠ FlagSet.width32 := fun h => htw (h ▸ hw32)
    have ht64 : t ≠ FlagSet.width64 := fun h => htw (h ▸ hw64)
    refine ⟨htw, ?_⟩
    simp [f₄, f₃, f₂, f₁, FlagSet.mem_pruneWidths_push_iff, ht32, ht64, hta, hnot htf]
  obtain ⟨selection, hsettles⟩ := h₄.settles s d hnodup hrest₄
  refine ⟨selection, ?_⟩
  simp only [settles_cons_iff]
  exact ⟨requires_first (hnot h32) (hnot h64), requires_swap h₁.1 h₁.2.1 h₁.2.2,
    requires_other h₂.1 h₂.2.1 h₂.2.2, requires_swap_back h₃.1 h₃.2.1 h₃.2.2, hsettles⟩

/-- The flags that the entries of the seesaw may require. -/
theorem mem_useTokens_project :
    t ∈ ManifestSet.useTokens [Sample.manifest (project a rest)] ↔
      t ∈ FlagSet.width32 :: FlagSet.width64 :: a :: rest := by
  have hrequired : t ∈ ManifestSet.useTokens [Sample.manifest (project a rest)] ↔
      FlagSet.width32 = t ∨ FlagSet.width64 = t ∨ a = t ∨ FlagSet.width32 = t ∨ t ∈ rest := by
    simp [ManifestSet.useTokens, ManifestSet.allEntries, Sample.manifest, project, core, collector,
      guarded, Sample.file, FileEntry.useTokens, Directive.requires?]
  rw [hrequired]
  simp only [List.mem_cons, @eq_comm _ t]
  constructor
  · rintro (h | h | h | h | h) <;> simp [h]
  · rintro (h | h | h | h) <;> simp [h]

/-- Any flags that have both widths and some other are those of a false alarm. -/
theorem exists_falseAlarm (s : Selector) (d : Disk) (h32 : FlagSet.width32 ∈ tokens)
    (h64 : FlagSet.width64 ∈ tokens) (ha : a ∈ tokens) (haw : a ∉ FlagSet.widths)
    (hf : ∀ t ∈ tokens, t ∉ f.tokens) :
    ∃ sets, (∀ t, t ∈ ManifestSet.useTokens sets ↔ t ∈ tokens) ∧ s.FalseAlarm d sets f := by
  let rest := (ManifestSet.distinct tokens).filter fun t => t ∉ FlagSet.widths ∧ t ≠ a
  have hmem : ∀ t, t ∈ rest ↔ t ∈ tokens ∧ t ∉ FlagSet.widths ∧ t ≠ a := by
    intro t
    simp [rest]
  have htokens : ∀ t, t ∈ ManifestSet.useTokens [Sample.manifest (project a rest)] ↔ t ∈ tokens := by
    intro t
    rw [mem_useTokens_project]
    simp only [List.mem_cons, hmem]
    constructor
    · rintro (rfl | rfl | rfl | ⟨ht, -⟩) <;> assumption
    · intro ht
      by_cases htw : t ∈ FlagSet.widths
      · rcases List.mem_cons.1 htw with h | h
        · exact .inl h
        · exact .inr (.inl (List.mem_singleton.1 h))
      · by_cases hta : t = a
        · exact .inr (.inr (.inl hta))
        · exact .inr (.inr (.inr ⟨ht, htw, hta⟩))
  have hnodup : rest.Nodup := (ManifestSet.nodup_distinct tokens).filter _
  have hrest : ∀ t ∈ rest, t ∉ FlagSet.widths ∧ t ≠ a ∧ t ∉ f.tokens := by
    intro t ht
    obtain ⟨htt, htw, hta⟩ := (hmem t).1 ht
    exact ⟨htw, hta, hf t htt⟩
  obtain ⟨selection, hsettles⟩ :=
    settles_project s d (hf _ h32) (hf _ h64) (hf a ha) haw hnodup hrest
  have hentries : ManifestSet.allEntries [Sample.manifest (project a rest)] = project a rest := by
    simp [ManifestSet.allEntries, Sample.manifest]
  rw [← hentries] at hsettles
  -- one width is required twice, so there is one restart more than there are flags
  have hcount : (ManifestSet.useTokens [Sample.manifest (project a rest)]).length ≤
      rest.length + 3 :=
    List.Nodup.length_le_of_subset (ManifestSet.nodup_distinct _)
      fun t ht => mem_useTokens_project.1 ht
  refine ⟨_, htokens, falseAlarm_iff_late.2 ⟨_, selection, hsettles, ?_⟩⟩
  simp only [List.length_cons]
  omega

end Seesaw

/-! ## When the alarm is false -/

/-- A false alarm is a selection that settles after more restarts than there are flags to require. Then
both widths are among these flags and another flag too, and the restarts are less than twice as many.
Any such flags do have one, for every selector and on every disk. -/
theorem falseAlarm_characterization (s : Selector) (d : Disk) :
    (∀ sets f, s.FalseAlarm d sets f ↔ ∃ added selection,
      s.Settles d (ManifestSet.allEntries sets) f added selection ∧
        (ManifestSet.useTokens sets).length < added.length) ∧
    (∀ sets f added selection, s.Settles d (ManifestSet.allEntries sets) f added selection →
      added.length ≤ (ManifestSet.useTokens sets).length ∨
        (FlagSet.width32 ∈ ManifestSet.useTokens sets ∧
          FlagSet.width64 ∈ ManifestSet.useTokens sets ∧
          added.length + 2 ≤ 2 * (ManifestSet.useTokens sets).length)) ∧
    ∀ (tokens : List String) (f : FlagSet), (∀ t ∈ tokens, t ∉ f.tokens) →
      ((∃ sets, (∀ t, t ∈ ManifestSet.useTokens sets ↔ t ∈ tokens) ∧ s.FalseAlarm d sets f) ↔
        FlagSet.width32 ∈ tokens ∧ FlagSet.width64 ∈ tokens ∧ ∃ t ∈ tokens, t ∉ FlagSet.widths) := by
  refine ⟨fun sets f => falseAlarm_iff_late, ?_, ?_⟩
  · intro sets f added selection h
    by_cases hlate : (ManifestSet.useTokens sets).length < added.length
    · exact .inr (h.late_bound hlate)
    · exact .inl (Nat.le_of_not_lt hlate)
  · intro tokens f hf
    constructor
    · rintro ⟨sets, hsets, halarm⟩
      obtain ⟨added, selection, h, hlate⟩ := falseAlarm_iff_late.1 halarm
      obtain ⟨h32, h64, hbound⟩ := h.late_bound hlate
      obtain ⟨t, ht, htw⟩ := exists_notMem_widths (ManifestSet.nodup_distinct _)
        (show 2 < (ManifestSet.useTokens sets).length by omega)
      exact ⟨(hsets _).1 h32, (hsets _).1 h64, t, (hsets t).1 ht, htw⟩
    · rintro ⟨h32, h64, t, ht, htw⟩
      exact Seesaw.exists_falseAlarm s d h32 h64 ht htw hf

/-- Four files that settle with `-fPIC` and `-m32` after four restarts, one more than there are flags
to require. -/
def Sample.rivals : ManifestSet :=
  Sample.manifest [
    Sample.file "a.c" [.options ⟨[.exclude FlagSet.width64]⟩, .use FlagSet.width32],
    Sample.file "b.c" [.options ⟨[.allow FlagSet.width32, .exclude "-fPIC"]⟩, .use FlagSet.width64],
    Sample.file "c.c" [.options ⟨[.allow FlagSet.width64]⟩, .use "-fPIC"],
    Sample.file "d.c" [.options ⟨[.allow "-fPIC"]⟩, .use FlagSet.width32]]

/-- Resolution gives up on them. -/
theorem sample_falseAlarm :
    Sample.selector.resolve Sample.disk [Sample.rivals] (Sample.flags []) = .error (.diverged 4) ∧
      ∃ selection, selection.included = [⟨"a.c"⟩, ⟨"d.c"⟩] ∧
        Sample.selector.Settles Sample.disk (ManifestSet.allEntries [Sample.rivals]) (Sample.flags [])
          [FlagSet.width32, FlagSet.width64, "-fPIC", FlagSet.width32] selection := by
  refine ⟨by decide +kernel,
    ⟨[⟨"a.c"⟩, ⟨"d.c"⟩], [Sample.task "a.c" "16g4etw-a-2p3cs0p0l1rsw.o" [],
      Sample.task "d.c" "16g4etw-d-2p3cs0p0l1rsw.o" []]⟩, rfl, ?_⟩
  simp only [settles_cons_iff, settles_nil_iff, ← attempt_eq_restart_push_iff]
  decide +kernel

end Selector

end VariantBuild
