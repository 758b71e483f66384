import VariantBuild.Proofs.Disk.Writing
/-!
# Disks of one shape

Where a path leads depends on where directories and files are, and not on what is in them or how old they
are. So a disk on which files were edited, overwritten or given another time looks up every path as before,
and fails for the same paths in the same way (`SameShape.locate_eq`).
-/

namespace VariantBuild.Disk

/-- Directories and files are at the same places, whatever their contents and times. -/
structure SameShape (d d' : Disk) : Prop where
  here : d'.here = d.here
  kind : ∀ l, (d'.node? l).map (·.isFile) = (d.node? l).map (·.isFile)

variable {d d' d'' : Disk} {l : Location} {n : Node} {p : Path}

namespace SameShape

theorem refl (d : Disk) : d.SameShape d :=
  ⟨rfl, fun _ => rfl⟩

theorem trans (h : d.SameShape d') (h' : d'.SameShape d'') : d.SameShape d'' :=
  ⟨h'.here.trans h.here, fun l => (h'.kind l).trans (h.kind l)⟩

theorem node?_eq_none_iff (h : d.SameShape d') : d'.node? l = none ↔ d.node? l = none := by
  rw [← Option.map_eq_none_iff (f := (·.isFile)), h.kind, Option.map_eq_none_iff]

/-- What is at a place is still of its kind. -/
theorem exists_node (h : d.SameShape d') (hn : d.node? l = some n) :
    ∃ n', d'.node? l = some n' ∧ n'.isFile = n.isFile := by
  have hkind := h.kind l
  rw [hn, Option.map_some, Option.map_eq_some_iff] at hkind
  exact hkind

theorem walk_eq (h : d.SameShape d') (l : Location) (ps : List String) :
    d'.walk l ps = d.walk l ps := by
  induction ps generalizing l with
  | nil => rfl
  | cons p ps ih =>
    rw [walk, walk]
    -- a step looks at nothing but the kind of the node it starts from
    cases hl : d.node? l with
    | none => rw [h.node?_eq_none_iff.2 hl]
    | some n =>
      obtain ⟨n', hn', hkind⟩ := h.exists_node hl
      rw [hn']
      cases n with
      | file contents t =>
        cases n' with
        | file contents' t' => rfl
        | directory t' => cases hkind
      | directory t =>
        cases n' with
        | file contents' t' => cases hkind
        | directory t' => simp only [ih]

theorem locate_eq (h : d.SameShape d') (p : Path) : d'.locate p = d.locate p := by
  simp only [locate, follow, origin, h.here, h.walk_eq]

/-- What a path names is as it was where the node is. -/
theorem stat_eq (h : d.SameShape d') (hnode : ∀ l, d.locate p = .ok l → d'.node? l = d.node? l) :
    d'.stat p = d.stat p := by
  rw [stat, stat, h.locate_eq]
  cases hl : d.locate p with
  | error e => rfl
  | ok l => simp only [bind, Except.bind, hnode l hl]

end SameShape

/-- Another node of the same kind in its place keeps the shape. -/
theorem sameShape_set {n' : Node} (hn : d.node? l = some n) (hkind : n'.isFile = n.isFile) :
    d.SameShape (d.set l n') := by
  refine ⟨rfl, fun m => ?_⟩
  by_cases hm : m = l
  · rw [hm, node?_set_self, hn, Option.map_some, Option.map_some, hkind]
  · rw [node?_set_of_ne d n' hm]

/-! ## Paths into a set of places -/

/-- Whether a path leads to one of some locations. -/
def leadsInto (d : Disk) (places : List Location) (p : Path) : Bool :=
  match d.locate p with
  | .ok l => places.contains l
  | .error _ => false

variable {places : List Location}

theorem leadsInto_eq_true_iff :
    d.leadsInto places p = true ↔ ∃ l ∈ places, d.locate p = .ok l := by
  rw [leadsInto]
  cases d.locate p with
  | error e => simp
  | ok l => simp

theorem notMem_of_leadsInto_eq_false (h : d.leadsInto places p = false) (hl : d.locate p = .ok l) :
    l ∉ places := by
  intro hmem
  rw [leadsInto_eq_true_iff.2 ⟨l, hmem, hl⟩] at h
  cases h

end VariantBuild.Disk
