import VariantBuild.FlagSet
/-!
# Pruning an exclusive group

Pruning leaves the last member of an exclusive group where it stands and takes every other member
away; tokens outside the group stay as they are. What a prune does to tokens that others follow
(`pruneTokens_append_of_member`, `pruneTokens_append_of_no_member`) carries everything else: one
member at most is left, and a prune in between makes no difference to a prune at the end
(`pruneTokens_pruneTokens_append`).
-/

namespace VariantBuild.FlagSet

section Tokens

variable {group : List String} {t : String} {xs ys : List String}

/-- Pruning takes tokens away and moves none. -/
theorem pruneTokens_sublist (group xs : List String) : (pruneTokens group xs).Sublist xs := by
  induction xs with
  | nil => exact List.Sublist.slnil
  | cons x xs ih =>
    rw [pruneTokens]
    split
    · exact ih.cons x
    · exact ih.cons_cons x

/-- Tokens outside the group stay, in their order and as often as they are there. -/
theorem filter_pruneTokens (group xs : List String) :
    (pruneTokens group xs).filter (· ∉ group) = xs.filter (· ∉ group) := by
  induction xs with
  | nil => rfl
  | cons x xs ih =>
    rw [pruneTokens]
    split
    next h => rw [ih, List.filter_cons_of_neg (by simpa using h.1)]
    next h => rw [List.filter_cons, List.filter_cons, ih]

theorem mem_pruneTokens_of_notMem (ht : t ∉ group) : t ∈ pruneTokens group xs ↔ t ∈ xs := by
  have h := congrArg (t ∈ ·) (filter_pruneTokens group xs)
  simpa [ht] using h

/-- A group that has a member keeps one. -/
theorem exists_member_pruneTokens :
    (∃ u ∈ pruneTokens group xs, u ∈ group) ↔ ∃ u ∈ xs, u ∈ group := by
  constructor
  · rintro ⟨u, hu, hg⟩
    exact ⟨u, (pruneTokens_sublist group xs).subset hu, hg⟩
  · intro h
    induction xs with
    | nil => simp at h
    | cons x xs ih =>
      rw [pruneTokens]
      split
      next hx => exact ih hx.2
      next hx =>
        -- `x` is kept: either it is itself the member, or the member is behind it
        obtain ⟨u, hu, hg⟩ := h
        rcases List.mem_cons.1 hu with rfl | hu
        · exact ⟨u, List.mem_cons_self, hg⟩
        · obtain ⟨v, hv, hvg⟩ := ih ⟨u, hu, hg⟩
          exact ⟨v, List.mem_cons_of_mem x hv, hvg⟩

/-- Without a member there is nothing to prune. -/
theorem pruneTokens_of_no_member (h : ¬ ∃ u ∈ xs, u ∈ group) : pruneTokens group xs = xs := by
  induction xs with
  | nil => rfl
  | cons x xs ih =>
    have hx : ¬ (x ∈ group ∧ ∃ u ∈ xs, u ∈ group) := fun hx =>
      h ⟨x, List.mem_cons_self, hx.1⟩
    have hxs : ¬ ∃ u ∈ xs, u ∈ group := fun ⟨u, hu, hg⟩ => h ⟨u, List.mem_cons_of_mem x hu, hg⟩
    rw [pruneTokens, if_neg hx, ih hxs]

/-- A member behind `xs` takes all members of `xs` away. -/
theorem pruneTokens_append_of_member (h : ∃ u ∈ ys, u ∈ group) :
    pruneTokens group (xs ++ ys) = xs.filter (· ∉ group) ++ pruneTokens group ys := by
  induction xs with
  | nil => rfl
  | cons x xs ih =>
    have hrest : ∃ u ∈ xs ++ ys, u ∈ group := by
      obtain ⟨u, hu, hg⟩ := h
      exact ⟨u, List.mem_append_right xs hu, hg⟩
    rw [List.cons_append, pruneTokens, ih]
    by_cases hx : x ∈ group
    · rw [if_pos ⟨hx, hrest⟩, List.filter_cons_of_neg (by simpa using hx)]
    · rw [if_neg fun h => hx h.1, List.filter_cons_of_pos (by simpa using hx), List.cons_append]

/-- Tokens without a member change nothing for what stands before them. -/
theorem pruneTokens_append_of_no_member (h : ¬ ∃ u ∈ ys, u ∈ group) :
    pruneTokens group (xs ++ ys) = pruneTokens group xs ++ ys := by
  induction xs with
  | nil => exact pruneTokens_of_no_member h
  | cons x xs ih =>
    have hrest : (∃ u ∈ xs ++ ys, u ∈ group) ↔ ∃ u ∈ xs, u ∈ group := by
      constructor
      · rintro ⟨u, hu, hg⟩
        rcases List.mem_append.1 hu with hu | hu
        · exact ⟨u, hu, hg⟩
        · exact absurd ⟨u, hu, hg⟩ h
      · rintro ⟨u, hu, hg⟩
        exact ⟨u, List.mem_append_left ys hu, hg⟩
    rw [List.cons_append, pruneTokens, pruneTokens, ih]
    simp only [hrest]
    split <;> rfl

/-- At most one member is left, however often the members were there. -/
theorem length_members_pruneTokens_le (group xs : List String) :
    ((pruneTokens group xs).filter (· ∈ group)).length ≤ 1 := by
  induction xs with
  | nil => simp [pruneTokens]
  | cons x xs ih =>
    rw [pruneTokens]
    split
    · exact ih
    next h =>
      by_cases hx : x ∈ group
      · -- `x` is kept as the last member, so nothing behind it belongs to the group
        have hxs : ¬ ∃ u ∈ xs, u ∈ group := fun hu => h ⟨hx, hu⟩
        have hnil : xs.filter (· ∈ group) = [] := by
          rw [List.filter_eq_nil_iff]
          intro u hu hg
          exact hxs ⟨u, hu, by simpa using hg⟩
        simp [pruneTokens_of_no_member hxs, hx, hnil]
      · simpa [hx] using ih

/-- What is left of a group is its last member, however often the members were there. -/
theorem members_pruneTokens (group xs : List String) :
    (pruneTokens group xs).filter (· ∈ group) = (xs.filter (· ∈ group)).getLast?.toList := by
  induction xs with
  | nil => rfl
  | cons x xs ih =>
    rw [pruneTokens]
    split
    next h =>
      obtain ⟨hx, u, hu, hg⟩ := h
      -- a member follows, so the last one is behind `x`
      have hne : xs.filter (· ∈ group) ≠ [] := List.ne_nil_of_mem (List.mem_filter.2 ⟨hu, by simpa using hg⟩)
      rw [ih, List.filter_cons_of_pos (by simpa using hx), List.getLast?_cons_of_ne_nil hne]
    next h =>
      by_cases hx : x ∈ group
      · have hxs : ¬ ∃ u ∈ xs, u ∈ group := fun hu => h ⟨hx, hu⟩
        have hnil : xs.filter (· ∈ group) = [] := by
          rw [List.filter_eq_nil_iff]
          intro u hu hg
          exact hxs ⟨u, hu, by simpa using hg⟩
        simp [pruneTokens_of_no_member hxs, hx, hnil]
      · simpa [hx] using ih

/-- A prune in between makes no difference to a prune at the end. -/
theorem pruneTokens_pruneTokens_append (group xs ys : List String) :
    pruneTokens group (pruneTokens group xs ++ ys) = pruneTokens group (xs ++ ys) := by
  by_cases hys : ∃ u ∈ ys, u ∈ group
  · rw [pruneTokens_append_of_member hys, pruneTokens_append_of_member hys, filter_pruneTokens]
  · rw [pruneTokens_append_of_no_member hys, pruneTokens_append_of_no_member hys]
    congr 1
    -- what is left to show is that pruning twice is pruning once
    induction xs with
    | nil => rfl
    | cons x xs ih =>
      rw [pruneTokens]
      split
      · exact ih
      next h =>
        have h' : ¬ (x ∈ group ∧ ∃ u ∈ pruneTokens group xs, u ∈ group) := by
          rwa [exists_member_pruneTokens]
        rw [pruneTokens, if_neg h', ih]

theorem pruneTokens_pruneTokens (group xs : List String) :
    pruneTokens group (pruneTokens group xs) = pruneTokens group xs := by
  simpa using pruneTokens_pruneTokens_append group xs []

end Tokens

/-! ## Widths of a flag set -/

variable {f : FlagSet} {t u : String}

@[simp] theorem has_eq_true_iff : f.has t = true ↔ t ∈ f.tokens := by
  simp [has]

@[simp] theorem has_eq_false_iff : f.has t = false ↔ t ∉ f.tokens := by
  simp [has]

@[simp] theorem tokens_push (f : FlagSet) (t : String) : (f.push t).tokens = f.tokens ++ [t] := rfl

theorem add_of_notMem (h : t ∉ f.tokens) : f.add t = f.push t := by
  simp [add, h]

theorem tokens_pruneWidths (f : FlagSet) :
    f.pruneWidths.tokens = pruneTokens widths f.tokens := rfl

@[simp] theorem pruneWidths_pruneWidths (f : FlagSet) :
    f.pruneWidths.pruneWidths = f.pruneWidths := by
  simp only [pruneWidths, pruneExclusive, pruneTokens_pruneTokens]

/-- A flag that is no width stands beside the pruned ones. -/
theorem pruneWidths_push_of_notMem_widths (ht : t ∉ widths) :
    (f.push t).pruneWidths = f.pruneWidths.push t := by
  have h : ¬ ∃ u ∈ [t], u ∈ widths := by simpa using ht
  simp only [pruneWidths, pruneExclusive, push, pruneTokens_append_of_no_member h]

/-- A width takes the place of any other. -/
theorem tokens_pruneWidths_push_of_mem_widths (ht : t ∈ widths) :
    (f.push t).pruneWidths.tokens = f.tokens.filter (· ∉ widths) ++ [t] := by
  have h : ∃ u ∈ [t], u ∈ widths := by simpa using ht
  rw [tokens_pruneWidths, tokens_push, pruneTokens_append_of_member h]
  simp [pruneTokens]

theorem mem_pruneWidths_of_notMem_widths (hu : u ∉ widths) :
    u ∈ f.pruneWidths.tokens ↔ u ∈ f.tokens :=
  mem_pruneTokens_of_notMem hu

/-- What one more flag does to pruned flags: it is active afterwards, and so is every other flag
unless both are widths. -/
theorem mem_pruneWidths_push_iff :
    u ∈ (f.pruneWidths.push t).pruneWidths.tokens ↔
      u = t ∨ (u ∈ f.pruneWidths.tokens ∧ ¬ (t ∈ widths ∧ u ∈ widths)) := by
  by_cases ht : t ∈ widths
  · simp [tokens_pruneWidths_push_of_mem_widths ht, ht, or_comm]
  · simp [pruneWidths_push_of_notMem_widths ht, ht, or_comm]

/-- Of two widths, only one is left by a prune. -/
theorem eq_of_mem_pruneWidths (ht : t ∈ f.pruneWidths.tokens) (hu : u ∈ f.pruneWidths.tokens)
    (htw : t ∈ widths) (huw : u ∈ widths) : t = u := by
  have ht' : t ∈ f.pruneWidths.tokens.filter (· ∈ widths) := by simpa using ⟨ht, htw⟩
  have hu' : u ∈ f.pruneWidths.tokens.filter (· ∈ widths) := by simpa using ⟨hu, huw⟩
  have hlen := length_members_pruneTokens_le widths f.tokens
  rw [← tokens_pruneWidths] at hlen
  generalize f.pruneWidths.tokens.filter (· ∈ widths) = members at ht' hu' hlen
  match members, hlen with
  | [w], _ =>
    rw [List.mem_singleton] at ht' hu'
    rw [ht', hu']

end VariantBuild.FlagSet
