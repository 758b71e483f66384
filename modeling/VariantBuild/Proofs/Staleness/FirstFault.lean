import VariantBuild.Proofs.Selection.Edits
/-!
# The first fault of a check

A check goes through the object, the source and the dependencies in this order. Its answer is decided by the
first of them that is not in order, which is to say, that is missing or newer than the object
(`firstFault?`), and by nothing behind it (`verdict_check`): there is a reason if that item can give one, and
an error if it cannot.

So what makes a file newer can only add faults to the items that it is one of, and stale objects stay stale. The
one exception is the object itself, by which all others are judged: it may be listed as a dependency, and making
it newer may put everything in order.
-/

namespace VariantBuild

namespace Disk

/-! ## One newer file -/

/-- The file that a path names has been given a later time, and everything else is as it was. -/
def MadeNewer (d d' : Disk) (p : Path) : Prop :=
  ∃ l n, d.locate p = .ok l ∧ d.node? l = some n ∧ d.Edited d' [l] (n.modified < ·)

variable {d d' : Disk} {p q : Path} {l : Location} {n n' : Node}

theorem madeNewer_set (hp : d.locate p = .ok l) (hn : d.node? l = some n) (hkind : n'.isFile = n.isFile)
    (hlater : n.modified < n'.modified) : d.MadeNewer (d.set l n') p := by
  refine ⟨l, n, hp, hn, rfl, ?_, ?_⟩
  · intro m hm
    obtain rfl := List.mem_singleton.1 hm
    exact ⟨n, n', hn, node?_set_self d m n', hkind, hlater⟩
  · intro m hm
    exact node?_set_of_ne d n' (mt List.mem_singleton.2 hm)

namespace MadeNewer

/-- A path that leads to the file is given a later time, and any other keeps what it had. -/
theorem modified_cases (h : d.MadeNewer d' p) (q : Path) : d'.modified q = d.modified q ∨
    ∃ t t', d.modified q = .ok t ∧ d'.modified q = .ok t' ∧ t < t' := by
  obtain ⟨l, n, hlocate, hnode, hedited⟩ := h
  cases hq : d.leadsInto [l] q with
  | false => exact .inl (hedited.modified_eq hq)
  | true =>
    obtain ⟨_, hmem, hlocate'⟩ := leadsInto_eq_true_iff.1 hq
    obtain rfl := List.mem_singleton.1 hmem
    obtain ⟨-, t', ht', hlater⟩ := hedited.modified_of_leadsInto hq
    have hold : d.modified q = .ok n.modified :=
      except_map_eq_ok_iff.2 ⟨n, stat_eq_ok_iff.2 ⟨_, hlocate', hnode⟩, rfl⟩
    exact .inr ⟨n.modified, t', hold, ht', hlater⟩

theorem modified_eq (h : d.MadeNewer d' p) (hq : d.locate q ≠ d.locate p) :
    d'.modified q = d.modified q := by
  obtain ⟨l, n, hlocate, -, hedited⟩ := h
  refine hedited.modified_eq (Bool.eq_false_iff.2 fun hlead => hq ?_)
  obtain ⟨_, hmem, hlocate'⟩ := leadsInto_eq_true_iff.1 hlead
  rw [hlocate', hlocate, List.mem_singleton.1 hmem]

end MadeNewer

end Disk

namespace Staleness

/-! ## Items in order -/

/-- What a check looks at. -/
inductive Item where
  | object
  | source
  | dependency (p : Path)
deriving DecidableEq

/-- The path that is looked up for an item. -/
def Item.path (source object : Path) : Item → Path
  | .object => object
  | .source => source
  | .dependency p => p

/-- The items in the order of the check. -/
def items (dependencies : List Path) : List Item :=
  .object :: .source :: dependencies.map .dependency

/-- The object and the item are there, and the item is not newer. -/
def InOrder (d : Disk) (source object : Path) (i : Item) : Prop :=
  ∃ t u, d.modified object = .ok t ∧ d.modified (i.path source object) = .ok u ∧ u ≤ t

instance (d : Disk) (source object : Path) (i : Item) : Decidable (InOrder d source object i) :=
  match ht : d.modified object, hu : d.modified (i.path source object) with
  | .ok t, .ok u => decidable_of_iff (u ≤ t) (by simp [InOrder, ht, hu])
  | .ok _, .error _ => isFalse (by simp [InOrder, hu])
  | .error _, _ => isFalse (by simp [InOrder, ht])

/-- The first of some items that is not in order. -/
def firstFault? (d : Disk) (source object : Path) (is : List Item) : Option Item :=
  is.find? fun i => ¬ InOrder d source object i

/-- The reasons that items give. -/
inductive GivesReason (d : Disk) (source object : Path) : Item → StaleReason → Prop
  | missingObject : d.modified object = .error .notFound → GivesReason d source object .object .missingObject
  | sourceNewer {t u : Time} : d.modified object = .ok t → d.modified source = .ok u → t < u →
      GivesReason d source object .source .sourceNewer
  | dependencyNewer {p : Path} {t u : Time} : d.modified object = .ok t → d.modified p = .ok u → t < u →
      GivesReason d source object (.dependency p) (.dependencyNewer p)
  | missingDependency {p : Path} : d.modified p = .error .notFound →
      GivesReason d source object (.dependency p) (.missingDependency p)

/-- What a check answers when it stops at an item, or at none. -/
inductive Verdict (d : Disk) (source object : Path) :
    Option Item → Except BuildError (Option StaleReason) → Prop
  | fresh : Verdict d source object none (.ok none)
  | stale {i : Item} {reason : StaleReason} : GivesReason d source object i reason →
      Verdict d source object (some i) (.ok (some reason))
  | failed {i : Item} {cause : SystemError} : (∀ reason, ¬ GivesReason d source object i reason) →
      d.modified (i.path source object) = .error cause →
      Verdict d source object (some i) (.error (.io (i.path source object) cause))

variable {d d' : Disk} {source object p : Path} {dependencies : List Path} {i : Item} {is : List Item}
  {t u : Time} {cause : SystemError} {reason : StaleReason}

theorem inOrder_iff (ht : d.modified object = .ok t) (hu : d.modified (i.path source object) = .ok u) :
    InOrder d source object i ↔ u ≤ t := by
  simp [InOrder, ht, hu]

theorem not_inOrder_of_error (hcause : d.modified (i.path source object) = .error cause) :
    ¬ InOrder d source object i := by
  simp [InOrder, hcause]

/-- The object is in order wherever it is there. -/
theorem inOrder_object (ht : d.modified object = .ok t) : InOrder d source object .object :=
  ⟨t, t, ht, ht, Int.le_refl t⟩

theorem firstFault?_cons_of_inOrder (h : InOrder d source object i) :
    firstFault? d source object (i :: is) = firstFault? d source object is :=
  List.find?_cons_of_neg (by rwa [decide_eq_true_iff, not_not])

theorem firstFault?_cons_of_not_inOrder (h : ¬ InOrder d source object i) :
    firstFault? d source object (i :: is) = some i :=
  List.find?_cons_of_pos (decide_eq_true h)

/-- There is no fault exactly if nothing is missing or newer. -/
theorem firstFault?_items_eq_none_iff : firstFault? d source object (items dependencies) = none ↔
    ∃ t u, d.modified object = .ok t ∧ d.modified source = .ok u ∧ u ≤ t ∧
      ∀ p ∈ dependencies, ∃ v, d.modified p = .ok v ∧ v ≤ t := by
  have hnone : firstFault? d source object (items dependencies) = none ↔
      ∀ i ∈ items dependencies, InOrder d source object i := by
    simp only [firstFault?, List.find?_eq_none, decide_eq_true_iff, not_not]
  rw [hnone]
  constructor
  · intro h
    obtain ⟨t, u, ht, hu, hle⟩ := h .source (by simp [items])
    refine ⟨t, u, ht, hu, hle, fun p hp => ?_⟩
    obtain ⟨t', v, ht', hv, hle'⟩ := h (.dependency p) (by simp [items, hp])
    obtain rfl : t = t' := Except.ok.inj (ht.symm.trans ht')
    exact ⟨v, hv, hle'⟩
  · rintro ⟨t, u, ht, hu, hle, hdependencies⟩ i hi
    cases i with
    | object => exact inOrder_object ht
    | source => exact ⟨t, u, ht, hu, hle⟩
    | dependency p =>
      obtain ⟨v, hv, hle'⟩ := hdependencies p (by simpa [items] using hi)
      exact ⟨t, v, ht, hv, hle'⟩

/-- What is newer gives a reason, whatever item it is. -/
theorem exists_givesReason_of_lt (ht : d.modified object = .ok t)
    (hu : d.modified (i.path source object) = .ok u) (hlt : t < u) :
    ∃ reason, GivesReason d source object i reason := by
  cases i with
  | object =>
    obtain rfl : t = u := Except.ok.inj (ht.symm.trans hu)
    exact absurd hlt (Int.lt_irrefl t)
  | source => exact ⟨_, .sourceNewer ht hu hlt⟩
  | dependency => exact ⟨_, .dependencyNewer ht hu hlt⟩

/-- An item gives one reason at most. -/
theorem GivesReason.unique {other : StaleReason} (h : GivesReason d source object i reason)
    (h' : GivesReason d source object i other) : reason = other := by
  cases h with
  | missingObject => cases h'; rfl
  | sourceNewer => cases h'; rfl
  | dependencyNewer _ hu =>
    cases h' with
    | dependencyNewer => rfl
    | missingDependency hmissing =>
      rw [hmissing] at hu
      cases hu
  | missingDependency hmissing =>
    cases h' with
    | dependencyNewer _ hu =>
      rw [hmissing] at hu
      cases hu
    | missingDependency => rfl

/-! ## The verdict -/

/-- Dependencies are gone through up to the first that is not in order. -/
theorem verdict_checkDependencies (ht : d.modified object = .ok t) (dependencies : List Path) :
    Verdict d source object (firstFault? d source object (dependencies.map .dependency))
      (checkDependencies d t dependencies) := by
  -- the check and the search pass over the same items and stop at the same one
  induction dependencies with
  | nil => exact .fresh
  | cons p dependencies ih =>
    rw [checkDependencies, List.map_cons]
    split
    next u hu =>
      have hiff : InOrder d source object (.dependency p) ↔ u ≤ t := inOrder_iff ht hu
      split
      next hlt =>
        rw [firstFault?_cons_of_not_inOrder (mt hiff.1 (Int.not_le.2 hlt))]
        exact .stale (.dependencyNewer ht hu hlt)
      next hle =>
        rw [firstFault?_cons_of_inOrder (hiff.2 (Int.not_lt.1 hle))]
        exact ih
    next hmissing =>
      have hfault : ¬ InOrder d source object (.dependency p) := not_inOrder_of_error hmissing
      rw [firstFault?_cons_of_not_inOrder hfault]
      exact .stale (.missingDependency hmissing)
    next cause hne hcause =>
      have hfault : ¬ InOrder d source object (.dependency p) := not_inOrder_of_error hcause
      rw [firstFault?_cons_of_not_inOrder hfault]
      refine .failed ?_ hcause
      intro reason h
      cases h with
      | dependencyNewer _ hu =>
        rw [hcause] at hu
        cases hu
      | missingDependency hmissing =>
        rw [hcause] at hmissing
        exact hne (Except.error.inj hmissing)

/-- The first item that is not in order decides the answer, and nothing behind it is looked at. -/
theorem verdict_check (d : Disk) (source object : Path) (dependencies : List Path) :
    Verdict d source object (firstFault? d source object (items dependencies))
      (check d source object dependencies) := by
  rw [check, items]
  split
  next hmissing =>
    have hfault : ¬ InOrder d source object .object := not_inOrder_of_error hmissing
    rw [firstFault?_cons_of_not_inOrder hfault]
    exact .stale (.missingObject hmissing)
  next cause hne hcause =>
    have hfault : ¬ InOrder d source object .object := not_inOrder_of_error hcause
    rw [firstFault?_cons_of_not_inOrder hfault]
    refine .failed ?_ hcause
    rintro reason ⟨hmissing⟩
    rw [hcause] at hmissing
    exact hne (Except.error.inj hmissing)
  next t ht =>
    -- an object that is there is never newer than itself
    rw [firstFault?_cons_of_inOrder (inOrder_object ht)]
    split
    next cause hcause =>
      have hfault : ¬ InOrder d source object .source := not_inOrder_of_error hcause
      rw [firstFault?_cons_of_not_inOrder hfault]
      refine .failed ?_ hcause
      rintro reason (_ | ⟨-, hu, -⟩)
      rw [hcause] at hu
      cases hu
    next u hu =>
      have hiff : InOrder d source object .source ↔ u ≤ t := inOrder_iff ht hu
      split
      next hlt =>
        rw [firstFault?_cons_of_not_inOrder (mt hiff.1 (Int.not_le.2 hlt))]
        exact .stale (.sourceNewer ht hu hlt)
      next hle =>
        rw [firstFault?_cons_of_inOrder (hiff.2 (Int.not_lt.1 hle))]
        exact verdict_checkDependencies ht dependencies

section Verdict

variable {fault : Option Item} {answer : Except BuildError (Option StaleReason)} {e : BuildError}

theorem Verdict.eq_fresh_iff (h : Verdict d source object fault answer) :
    answer = .ok none ↔ fault = none := by
  cases h <;> simp

theorem Verdict.eq_stale_iff (h : Verdict d source object fault answer) :
    answer = .ok (some reason) ↔ ∃ i, fault = some i ∧ GivesReason d source object i reason := by
  cases h with
  | fresh => simp
  | @stale i given hgives =>
    simp only [Except.ok.injEq, Option.some.injEq, exists_eq_left']
    exact ⟨fun heq => heq ▸ hgives, hgives.unique⟩
  | failed hno => simpa using hno reason

theorem Verdict.eq_error_iff (h : Verdict d source object fault answer) :
    answer = .error e ↔ ∃ i cause, fault = some i ∧ (∀ reason, ¬ GivesReason d source object i reason) ∧
      d.modified (i.path source object) = .error cause ∧ e = .io (i.path source object) cause := by
  cases h with
  | fresh => simp
  | stale hgives =>
    simp only [reduceCtorEq, Option.some.injEq, false_iff]
    rintro ⟨i, cause, rfl, hno, -⟩
    exact hno _ hgives
  | @failed i cause hno hcause =>
    constructor
    · rintro ⟨⟩
      exact ⟨i, cause, rfl, hno, hcause, rfl⟩
    · rintro ⟨_, cause', ⟨⟩, -, hcause', rfl⟩
      rw [hcause] at hcause'
      rw [Except.error.inj hcause']

end Verdict

/-! ## When a file is made newer -/

section Newer

variable (h : d.MadeNewer d' p) (hobject : d.locate object ≠ d.locate p)
include h hobject

/-- What is in order now was so before. -/
theorem inOrder_of_madeNewer (hi : InOrder d' source object i) : InOrder d source object i := by
  obtain ⟨t, u, ht, hu, hle⟩ := hi
  rw [h.modified_eq hobject] at ht
  obtain heq | ⟨u₀, u', hu₀, hu', hlt⟩ := h.modified_cases (i.path source object)
  · exact ⟨t, u, ht, heq ▸ hu, hle⟩
  · obtain rfl : u = u' := Except.ok.inj (hu.symm.trans hu')
    exact ⟨t, u₀, ht, hu₀, Int.le_trans (Int.le_of_lt hlt) hle⟩

/-- A newer item is as new or newer in the end. -/
theorem exists_givesReason_of_madeNewer_of_lt (ht : d.modified object = .ok t)
    (hu : d.modified (i.path source object) = .ok u) (hlt : t < u) :
    ∃ reason, GivesReason d' source object i reason := by
  have ht' : d'.modified object = .ok t := (h.modified_eq hobject).trans ht
  obtain heq | ⟨u₀, u', hu₀, hu', hlater⟩ := h.modified_cases (i.path source object)
  · exact exists_givesReason_of_lt ht' (heq.trans hu) hlt
  · obtain rfl : u = u₀ := Except.ok.inj (hu.symm.trans hu₀)
    exact exists_givesReason_of_lt ht' hu' (Int.lt_trans hlt hlater)

/-- What gave a reason still gives one. -/
theorem exists_givesReason_of_madeNewer (hi : GivesReason d source object i reason) :
    ∃ reason', GivesReason d' source object i reason' := by
  cases hi with
  | missingObject hmissing => exact ⟨_, .missingObject ((h.modified_eq hobject).trans hmissing)⟩
  | sourceNewer ht hu hlt => exact exists_givesReason_of_madeNewer_of_lt h hobject ht hu hlt
  | dependencyNewer ht hu hlt => exact exists_givesReason_of_madeNewer_of_lt h hobject ht hu hlt
  | @missingDependency q hmissing =>
    obtain heq | ⟨u, -, hu, -⟩ := h.modified_cases q
    · exact ⟨_, .missingDependency (heq.trans hmissing)⟩
    · rw [hmissing] at hu
      cases hu

/-- What was in order still is, or it is the file that was made newer and gives a reason. -/
theorem inOrder_or_givesReason_of_madeNewer (hi : InOrder d source object i) :
    InOrder d' source object i ∨ ∃ reason, GivesReason d' source object i reason := by
  obtain ⟨t, u, ht, hu, hle⟩ := hi
  have ht' : d'.modified object = .ok t := (h.modified_eq hobject).trans ht
  obtain heq | ⟨-, u', -, hu', -⟩ := h.modified_cases (i.path source object)
  · exact .inl ⟨t, u, ht', heq.trans hu, hle⟩
  · rcases Int.lt_or_le t u' with hlt | hge
    · exact .inr (exists_givesReason_of_lt ht' hu' hlt)
    · exact .inl ⟨t, u', ht', hu', hge⟩

/-- If the first fault gave a reason, then so does the first fault now. -/
theorem exists_firstFault?_of_madeNewer (hfault : firstFault? d source object is = some i)
    (hi : GivesReason d source object i reason) :
    ∃ i' reason', firstFault? d' source object is = some i' ∧ GivesReason d' source object i' reason' := by
  induction is with
  | nil => cases hfault
  | cons j is ih =>
    by_cases hj : InOrder d source object j
    · rw [firstFault?_cons_of_inOrder hj] at hfault
      by_cases hj' : InOrder d' source object j
      · rw [firstFault?_cons_of_inOrder hj']
        exact ih hfault
      · -- the file is looked at before the former fault
        obtain hin | ⟨reason', hreason'⟩ := inOrder_or_givesReason_of_madeNewer h hobject hj
        · exact absurd hin hj'
        · exact ⟨j, reason', firstFault?_cons_of_not_inOrder hj', hreason'⟩
    · -- the former fault is still one, and nothing before it has become one
      rw [firstFault?_cons_of_not_inOrder hj] at hfault
      obtain rfl : j = i := Option.some.inj hfault
      obtain ⟨reason', hreason'⟩ := exists_givesReason_of_madeNewer h hobject hi
      exact ⟨j, reason', firstFault?_cons_of_not_inOrder (mt (inOrder_of_madeNewer h hobject) hj),
        hreason'⟩

end Newer

/-! ## All about a check -/

/-- The answer of a check, for any list of dependencies. It is fresh exactly if object, source and all
dependencies are there and none is newer than the object. It is stale exactly if the first item that is not in
order gives the reason, and an error that names that item exactly if it gives none; one such case is a source
that cannot be queried. Making a file newer that is not the object never makes a stale object fresh. -/
theorem check_exact (d : Disk) (source object : Path) (dependencies : List Path) :
    (check d source object dependencies = .ok none ↔
      ∃ t u, d.modified object = .ok t ∧ d.modified source = .ok u ∧ u ≤ t ∧
        ∀ p ∈ dependencies, ∃ v, d.modified p = .ok v ∧ v ≤ t) ∧
    (∀ reason, check d source object dependencies = .ok (some reason) ↔
      ∃ i, firstFault? d source object (items dependencies) = some i ∧
        GivesReason d source object i reason) ∧
    (∀ e, check d source object dependencies = .error e ↔
      ∃ i cause, firstFault? d source object (items dependencies) = some i ∧
        (∀ reason, ¬ GivesReason d source object i reason) ∧
        d.modified (i.path source object) = .error cause ∧ e = .io (i.path source object) cause) ∧
    (∀ t cause, d.modified object = .ok t → d.modified source = .error cause →
      check d source object dependencies = .error (.io source cause)) ∧
    ∀ d' p reason, d.MadeNewer d' p → d.locate object ≠ d.locate p →
      check d source object dependencies = .ok (some reason) →
      ∃ reason', check d' source object dependencies = .ok (some reason') := by
  have hverdict := verdict_check d source object dependencies
  refine ⟨hverdict.eq_fresh_iff.trans firstFault?_items_eq_none_iff, fun _ => hverdict.eq_stale_iff,
    fun _ => hverdict.eq_error_iff, ?_, ?_⟩
  · intro t cause ht hcause
    rw [check, ht, hcause]
  · intro d' p reason h hobject hstale
    obtain ⟨i, hfault, hi⟩ := hverdict.eq_stale_iff.1 hstale
    obtain ⟨i', reason', hfault', hi'⟩ := exists_firstFault?_of_madeNewer h hobject hfault hi
    exact ⟨reason', (verdict_check d' source object dependencies).eq_stale_iff.2 ⟨i', hfault', hi'⟩⟩

namespace Sample

/-- A source and its header, and an object that is older than the header. -/
def older : Disk :=
  ⟨[([], .directory 0), (["a.c"], .file .empty 4), (["a.h"], .file .empty 6), (["a.o"], .file .empty 5)],
    [], 0⟩

/-- The source has been touched too. -/
def touched : Disk :=
  older.set ["a.c"] (.file .empty 9)

/-- The header and one that does not exist. -/
def headers : List Path :=
  [⟨"a.h"⟩, ⟨"b.h"⟩]

theorem madeNewer_touched : older.MadeNewer touched ⟨"a.c"⟩ :=
  Disk.madeNewer_set (by decide +kernel) rfl rfl (by decide)

end Sample

/-- The first header makes the object stale, and the second is never looked at. The object stays stale when the
source is touched, and that a source is missing is an error. -/
theorem sample_exact :
    firstFault? Sample.older ⟨"a.c"⟩ ⟨"a.o"⟩ (items Sample.headers) = some (.dependency ⟨"a.h"⟩) ∧
      check Sample.older ⟨"a.c"⟩ ⟨"a.o"⟩ Sample.headers = .ok (some (.dependencyNewer ⟨"a.h"⟩)) ∧
      Sample.older.MadeNewer Sample.touched ⟨"a.c"⟩ ∧
      (∃ reason, check Sample.touched ⟨"a.c"⟩ ⟨"a.o"⟩ Sample.headers = .ok (some reason)) ∧
      check Sample.older ⟨"b.c"⟩ ⟨"a.o"⟩ Sample.headers = .error (.io ⟨"b.c"⟩ .notFound) := by
  obtain ⟨-, hstale, -, -, hnewer⟩ := check_exact Sample.older ⟨"a.c"⟩ ⟨"a.o"⟩ Sample.headers
  obtain ⟨-, -, -, hsource, -⟩ := check_exact Sample.older ⟨"b.c"⟩ ⟨"a.o"⟩ Sample.headers
  have hobject : Sample.older.modified ⟨"a.o"⟩ = .ok 5 := by decide +kernel
  have hfault : firstFault? Sample.older ⟨"a.c"⟩ ⟨"a.o"⟩ (items Sample.headers) =
      some (.dependency ⟨"a.h"⟩) := by decide +kernel
  have hreason : GivesReason Sample.older ⟨"a.c"⟩ ⟨"a.o"⟩ (.dependency ⟨"a.h"⟩) (.dependencyNewer ⟨"a.h"⟩) :=
    .dependencyNewer (u := 6) hobject (by decide +kernel) (by decide)
  have hcheck := (hstale _).2 ⟨_, hfault, hreason⟩
  exact ⟨hfault, hcheck, Sample.madeNewer_touched,
    hnewer _ _ _ Sample.madeNewer_touched (by decide +kernel) hcheck, hsource 5 _ hobject (by decide +kernel)⟩

/-- An object that is listed among its own dependencies gets fresh when that dependency is made newer: here it
was older than its header. -/
theorem fresh_of_own_dependency :
    check Sample.older ⟨"a.c"⟩ ⟨"a.o"⟩ [⟨"a.h"⟩, ⟨"a.o"⟩] = .ok (some (.dependencyNewer ⟨"a.h"⟩)) ∧
      Sample.older.MadeNewer (Sample.older.set ["a.o"] (.file .empty 7)) ⟨"a.o"⟩ ∧
      check (Sample.older.set ["a.o"] (.file .empty 7)) ⟨"a.c"⟩ ⟨"a.o"⟩ [⟨"a.h"⟩, ⟨"a.o"⟩] = .ok none :=
  ⟨by decide +kernel, Disk.madeNewer_set (by decide +kernel) rfl rfl (by decide), by decide +kernel⟩

end Staleness

end VariantBuild
