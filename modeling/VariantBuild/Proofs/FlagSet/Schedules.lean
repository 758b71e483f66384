import VariantBuild.Proofs.FlagSet.Pruning
/-!
# Schedules of appends and prunes

A prune of an exclusive group takes every member away but the last, and moves nothing (`FlagSet.Pruned`). It can
also be told by positions: the place of the last member is found first, and one pass keeps what stands there and
what is no member (`FlagSet.pruneTokens_of_isLastPlace`).

Flags come in over time, with prunes in between. Each step of such a schedule may be put off to the end
(`FlagSet.pruneExclusive_runStep`), so with a last prune it is as if all flags had been appended first and the group
pruned once (`FlagSet.pruneExclusive_run`). Nothing prunes flags that come in after that: a schedule ends so exactly
if it leaves one member at most (`FlagSet.run_eq_iff`).
-/

namespace VariantBuild.FlagSet

/-! ## The last member -/

section Tokens

variable {group xs before after : List String} {t : String} {last k : Nat}

/-- The place of the last member of a group. -/
structure IsLastPlace (group xs : List String) (last : Nat) : Prop where
  member : ∃ t ∈ group, xs[last]? = some t
  behind : ∀ i t, last < i → xs[i]? = some t → t ∉ group

/-- The last member stays, behind those tokens before it that are no members. -/
theorem pruneTokens_append_last (ht : t ∈ group) (hafter : ∀ u ∈ after, u ∉ group) :
    pruneTokens group (before ++ t :: after) = before.filter (· ∉ group) ++ t :: after := by
  have hnone : ¬ ∃ u ∈ after, u ∈ group := fun ⟨u, hu, hg⟩ => hafter u hu hg
  have hlast : pruneTokens group (t :: after) = t :: after := by
    rw [pruneTokens, if_neg fun h => hnone h.2, pruneTokens_of_no_member hnone]
  rw [pruneTokens_append_of_member ⟨t, List.mem_cons_self, ht⟩, hlast]

/-- Tokens, cut at the last place of a group. -/
theorem IsLastPlace.exists_append (h : IsLastPlace group xs last) : ∃ before t after,
    xs = before ++ t :: after ∧ before.length = last ∧ t ∈ group ∧ ∀ u ∈ after, u ∉ group := by
  obtain ⟨t, ht, hget⟩ := h.member
  obtain ⟨hlt, rfl⟩ := List.getElem?_eq_some_iff.1 hget
  refine ⟨xs.take last, xs[last], xs.drop (last + 1), ?_, List.length_take_of_le (Nat.le_of_lt hlt), ht, ?_⟩
  · rw [← List.drop_eq_getElem_cons hlt, List.take_append_drop]
  · intro u hu
    obtain ⟨i, hi⟩ := List.mem_iff_getElem?.1 hu
    rw [List.getElem?_drop] at hi
    exact h.behind _ u (by omega) hi

/-- A group that has a member has a last one. -/
theorem exists_isLastPlace (h : ∃ t ∈ xs, t ∈ group) : ∃ last, IsLastPlace group xs last := by
  induction xs with
  | nil => simp at h
  | cons x xs ih =>
    by_cases hxs : ∃ t ∈ xs, t ∈ group
    · obtain ⟨last, ⟨t, ht, hget⟩, hbehind⟩ := ih hxs
      refine ⟨last + 1, ⟨t, ht, hget⟩, fun i u hi hu => ?_⟩
      obtain ⟨j, rfl⟩ : ∃ j, i = j + 1 := ⟨i - 1, by omega⟩
      exact hbehind j u (by omega) hu
    · -- no member follows, so the one that there is stands in front
      have hx : x ∈ group := by
        obtain ⟨t, ht, hg⟩ := h
        rcases List.mem_cons.1 ht with rfl | ht
        · exact hg
        · exact absurd ⟨t, ht, hg⟩ hxs
      refine ⟨0, ⟨x, hx, rfl⟩, fun i u hi hu hg => ?_⟩
      obtain ⟨j, rfl⟩ : ∃ j, i = j + 1 := ⟨i - 1, by omega⟩
      exact hxs ⟨u, List.mem_of_getElem? hu, hg⟩

/-- A pass that looks at places keeps what a pass that looks at tokens keeps, where the two agree. -/
theorem map_filter_zipIdx {p : String × Nat → Bool} {q : String → Bool}
    (h : ∀ u i, k ≤ i → i < k + xs.length → u ∈ xs → p (u, i) = q u) :
    ((xs.zipIdx k).filter p).map Prod.fst = xs.filter q := by
  have hsame : (xs.zipIdx k).filter p = (xs.zipIdx k).filter (q ∘ Prod.fst) := by
    refine List.filter_congr fun ⟨u, i⟩ hmem => ?_
    obtain ⟨hlow, hhigh, -⟩ := List.mem_zipIdx hmem
    exact h u i hlow hhigh (List.fst_mem_of_mem_zipIdx hmem)
  rw [hsame, ← List.filter_map, List.zipIdx_map_fst]

/-- A prune is one pass that keeps what stands at the last place and what is no member. -/
theorem pruneTokens_of_isLastPlace (h : IsLastPlace group xs last) :
    pruneTokens group xs = (xs.zipIdx.filter fun (t, i) => i = last ∨ t ∉ group).map Prod.fst := by
  obtain ⟨before, t, after, rfl, rfl, ht, hafter⟩ := h.exists_append
  have hbefore : ((before.zipIdx 0).filter fun (u, i) => i = before.length ∨ u ∉ group).map Prod.fst =
      before.filter (· ∉ group) :=
    map_filter_zipIdx fun u i _ hi _ => by
      have hne : i ≠ before.length := by omega
      simp [hne]
  have hbehind : ((after.zipIdx (0 + before.length + 1)).filter
      fun (u, i) => i = before.length ∨ u ∉ group).map Prod.fst = after.filter (· ∉ group) :=
    map_filter_zipIdx fun u _ _ _ hu => by simp [hafter u hu]
  have hall : after.filter (· ∉ group) = after :=
    List.filter_eq_self.2 fun u hu => by simpa using hafter u hu
  rw [pruneTokens_append_last ht hafter, List.zipIdx_append, List.zipIdx_cons, List.filter_append,
    List.map_append, hbefore, List.filter_cons_of_pos (by simp), List.map_cons, hbehind, hall]

/-- Tokens with one member at most are as pruned. -/
theorem pruneTokens_of_length_members_le (h : (xs.filter (· ∈ group)).length ≤ 1) :
    pruneTokens group xs = xs := by
  induction xs with
  | nil => rfl
  | cons x xs ih =>
    have hkept : ¬ (x ∈ group ∧ ∃ u ∈ xs, u ∈ group) := by
      rintro ⟨hx, u, hu, hg⟩
      have hpos : 0 < (xs.filter (· ∈ group)).length :=
        List.length_pos_of_mem (List.mem_filter.2 ⟨hu, by simpa using hg⟩)
      rw [List.filter_cons_of_pos (by simpa using hx), List.length_cons] at h
      omega
    have hxs : (xs.filter (· ∈ group)).length ≤ 1 :=
      Nat.le_trans ((List.sublist_cons_self x xs).filter _).length_le h
    rw [pruneTokens, if_neg hkept, ih hxs]

end Tokens

variable {group : List String} {f : FlagSet}

/-- What a prune of a group leaves of flags. -/
structure Pruned (group : List String) (f g : FlagSet) : Prop where
  /-- Without a member all flags stay. -/
  of_no_member : (∀ t ∈ f.tokens, t ∉ group) → g = f
  /-- The last member stays at its place, and all others go. -/
  at_place : (∃ t ∈ f.tokens, t ∈ group) → ∃ last, IsLastPlace group f.tokens last ∧
    g = { f with tokens := (f.tokens.zipIdx.filter fun (t, i) => i = last ∨ t ∉ group).map Prod.fst }
  /-- Other tokens keep their order and are there as often as before. -/
  others : g.tokens.filter (· ∉ group) = f.tokens.filter (· ∉ group)
  members_le : (g.tokens.filter (· ∈ group)).length ≤ 1
  /-- A group that has members keeps one. -/
  member_iff : (∃ t ∈ g.tokens, t ∈ group) ↔ ∃ t ∈ f.tokens, t ∈ group

theorem pruned_pruneExclusive (group : List String) (f : FlagSet) : Pruned group f (f.pruneExclusive group) where
  of_no_member hnone := by
    have hmember : ¬ ∃ t ∈ f.tokens, t ∈ group := by
      rintro ⟨t, ht, hg⟩
      exact hnone t ht hg
    rw [pruneExclusive, pruneTokens_of_no_member hmember]
  at_place hmember := by
    obtain ⟨last, hlast⟩ := exists_isLastPlace hmember
    exact ⟨last, hlast, by rw [pruneExclusive, pruneTokens_of_isLastPlace hlast]⟩
  others := filter_pruneTokens group f.tokens
  members_le := length_members_pruneTokens_le group f.tokens
  member_iff := exists_member_pruneTokens

/-! ## Schedules -/

/-- A step of a schedule: more flags, or a prune. -/
inductive Step where
  | append (tokens : List String)
  | prune
deriving DecidableEq, Repr

/-- The flags after a step. -/
def runStep (group : List String) (f : FlagSet) : Step → FlagSet
  | .append tokens => f.extend tokens
  | .prune => f.pruneExclusive group

/-- The flags after a schedule. -/
def run (group : List String) (f : FlagSet) (steps : List Step) : FlagSet :=
  steps.foldl (runStep group) f

/-- The tokens that a step appends. -/
def Step.tokens : Step → List String
  | append tokens => tokens
  | prune => []

/-- All tokens that a schedule appends, in order. -/
def appended (steps : List Step) : List String :=
  steps.flatMap Step.tokens

theorem pruneExclusive_extend_pruneExclusive (group : List String) (f : FlagSet) (ys : List String) :
    ((f.pruneExclusive group).extend ys).pruneExclusive group = (f.extend ys).pruneExclusive group := by
  simp only [pruneExclusive, extend, pruneTokens_pruneTokens_append]

/-- What a step does to a group may as well be done later. -/
theorem pruneExclusive_runStep (group : List String) (f : FlagSet) (step : Step) (ys : List String) :
    ((f.runStep group step).extend ys).pruneExclusive group =
      (f.extend (step.tokens ++ ys)).pruneExclusive group := by
  cases step with
  | append tokens => simp only [runStep, Step.tokens, extend, List.append_assoc]
  | prune => exact pruneExclusive_extend_pruneExclusive group f ys

/-- A prune at the end of a schedule leaves what one prune leaves of all that was appended. -/
theorem pruneExclusive_run (group : List String) (f : FlagSet) (steps : List Step) :
    (f.run group steps).pruneExclusive group = (f.extend (appended steps)).pruneExclusive group := by
  induction steps generalizing f with
  | nil => simp only [run, List.foldl_nil, appended, List.flatMap_nil, extend, List.append_nil]
  | cons step steps ih =>
    calc ((f.runStep group step).run group steps).pruneExclusive group
        = ((f.runStep group step).extend (appended steps)).pruneExclusive group := ih _
      _ = (f.extend (step.tokens ++ appended steps)).pruneExclusive group :=
        pruneExclusive_runStep group f step _

/-- A prune leaves flags as they are exactly if they have one member at most. -/
theorem pruneExclusive_eq_self_iff :
    f.pruneExclusive group = f ↔ (f.tokens.filter (· ∈ group)).length ≤ 1 := by
  constructor
  · intro h
    rw [← h]
    exact length_members_pruneTokens_le group f.tokens
  · intro h
    rw [pruneExclusive, pruneTokens_of_length_members_le h]

/-- A schedule ends with what one prune leaves of all that was appended exactly if it leaves one member at
most. -/
theorem run_eq_iff (group : List String) (f : FlagSet) (steps : List Step) :
    f.run group steps = (f.extend (appended steps)).pruneExclusive group ↔
      ((f.run group steps).tokens.filter (· ∈ group)).length ≤ 1 := by
  rw [← pruneExclusive_run, eq_comm, pruneExclusive_eq_self_iff]

/-- Two widths in turn, each pruned when it comes: the last one stays, behind what came before it. -/
example : (new "native" "gcc").run widths
      [.append ["-Wall", "-m32"], .prune, .append ["-O2", "-m64"], .prune, .append ["-g3"]] =
    { new "native" "gcc" with tokens := ["-Wall", "-O2", "-m64", "-g3"] } := by
  decide

theorem run_concat_prune (group : List String) (f : FlagSet) (steps : List Step) :
    f.run group (steps ++ [.prune]) = (f.run group steps).pruneExclusive group := by
  rw [run, List.foldl_append]
  rfl

/-- A prune leaves the last member of a group at its place and all tokens that are no members. Pruning again
changes nothing, nor does a prune before more flags are appended and the group is pruned. So a schedule that
ends with a prune leaves what one prune leaves of all that was appended, and so does any schedule that leaves
one member at most. -/
theorem pruneExclusive_laws (group : List String) (f : FlagSet) :
    Pruned group f (f.pruneExclusive group) ∧
      (f.pruneExclusive group).pruneExclusive group = f.pruneExclusive group ∧
      (∀ ys, ((f.pruneExclusive group).extend ys).pruneExclusive group =
        (f.extend ys).pruneExclusive group) ∧
      ∀ steps,
        f.run group (steps ++ [.prune]) = (f.extend (appended steps)).pruneExclusive group ∧
        (f.run group steps = (f.extend (appended steps)).pruneExclusive group ↔
          ((f.run group steps).tokens.filter (· ∈ group)).length ≤ 1) := by
  refine ⟨pruned_pruneExclusive group f, ?_, pruneExclusive_extend_pruneExclusive group f, fun steps => ?_⟩
  · exact pruneExclusive_eq_self_iff.2 (length_members_pruneTokens_le group f.tokens)
  · exact ⟨by rw [run_concat_prune, pruneExclusive_run], run_eq_iff group f steps⟩

/-- A schedule that ends with more flags may leave two widths, where one prune of all of them leaves one. -/
theorem run_append_ne_pruneExclusive :
    (new "native" "gcc").run widths [.append ["-m32"], .prune, .append ["-m64"]] =
        { new "native" "gcc" with tokens := ["-m32", "-m64"] } ∧
      ((new "native" "gcc").extend (appended [.append ["-m32"], .prune, .append ["-m64"]])).pruneExclusive widths =
        { new "native" "gcc" with tokens := ["-m64"] } ∧
      ¬ ∀ steps, (new "native" "gcc").run widths steps =
        ((new "native" "gcc").extend (appended steps)).pruneExclusive widths := by
  refine ⟨by decide, by decide, fun hall => ?_⟩
  exact absurd (hall [.append ["-m32"], .prune, .append ["-m64"]]) (by decide)

end VariantBuild.FlagSet
