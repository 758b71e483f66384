import Mathlib.Data.List.Perm.Subperm
import VariantBuild.Proofs.ObjectKey.Variants
import VariantBuild.Variant.Inheritance
/-!
# Inheritance as a chain of names

A configured variant may inherit another, so each name starts one chain (`Variant.Walk`). The chain ends at a
name that inherits nothing, or it comes back to a name that is on it already; and it does so after as many
steps as there are configured names, at most (`Variant.exists_walk`).

What a name resolves to can be read off its chain alone. A chain that comes back is an error that names the
first repetition; a chain that ends at a name that nobody knows is an error that names it; any other chain
gives the variant `Variant.assembled` from it, in which flag lists add up from the end of the chain and every
other setting is that of the nearest name that has one (`Variant.resolve_followsChain`).
-/

namespace VariantBuild

/-- The name that a configured name inherits. -/
def VariantTable.parent? (t : VariantTable) (name : String) : Option String :=
  (t.get? name).bind (·.inherits)

namespace Variant

/-! ## Chains -/

/-- The names from one to another along the chain of inheritance, both included. -/
inductive Walk (t : VariantTable) : String → List String → String → Prop
  | single (name : String) : Walk t name [name] name
  | cons {name parent : String} {names : List String} {last : String}
      (inherits : t.parent? name = some parent) (rest : Walk t parent names last) :
      Walk t name (name :: names) last

/-- The chain of a name ends at a name that inherits nothing. -/
def EndsAt (t : VariantTable) (name : String) (names : List String) (last : String) : Prop :=
  Walk t name names last ∧ t.parent? last = none

/-- Along the chain of a name, `via` is the first that occurs twice. -/
def ComesBackTo (t : VariantTable) (name via : String) : Prop :=
  ∃ names last, Walk t name names last ∧ names.Nodup ∧ t.parent? last = some via ∧ via ∈ names

/-- Whether a name is configured or built in. -/
def IsKnown (t : VariantTable) (name : String) : Prop :=
  t.get? name ≠ none ∨ builtin? name ≠ none

instance (t : VariantTable) (name : String) : Decidable (IsKnown t name) :=
  inferInstanceAs (Decidable (_ ∨ _))

/-- The variant that a chain starts from: the built-in one of its last name, or a plain one. -/
def base (last : String) : Variant :=
  (builtin? last).getD (plain last)

/-- The settings along a chain, the nearest first. -/
def settingsOf (t : VariantTable) (names : List String) : List VariantSettings :=
  names.filterMap t.get?

/-- The variant that a chain of names comes to. -/
def assembled (t : VariantTable) (name : String) (names : List String) (last : String) : Variant where
  name := name
  buildType := ((t.get? name).bind (·.buildType)).getD
    (if (t.parent? name).isSome then name else (base last).buildType)
  compiler := ((settingsOf t names).findSome? (·.compiler)).getD (base last).compiler
  finalTool := ((settingsOf t names).findSome? (·.finalTool)).getD (base last).finalTool
  flags := (base last).flags ++ (settingsOf t names).reverse.flatMap (·.flags.getD [])
  endFlags := (base last).endFlags ++ (settingsOf t names).reverse.flatMap (·.endFlags.getD [])
  packages := ((settingsOf t names).findSome? (·.packages)).getD (base last).packages
  excludedManifests :=
    ((settingsOf t names).findSome? (·.excludedManifests)).getD (base last).excludedManifests
  output := ((settingsOf t names).findSome? (·.output)).or (base last).output

variable {t : VariantTable} {name parent last via : String} {names seen : List String} {s : VariantSettings}

theorem parent?_eq_some_iff :
    t.parent? name = some parent ↔ ∃ s, t.get? name = some s ∧ s.inherits = some parent :=
  Option.bind_eq_some_iff

theorem parent?_of_get? (h : t.get? name = some s) : t.parent? name = s.inherits := by
  rw [VariantTable.parent?, h, Option.bind_some]

namespace Walk

variable {names' : List String} {last' : String}

/-- Every name on a chain starts the rest of it. -/
theorem exists_suffix (h : Walk t name names last) {m : String} (hm : m ∈ names) :
    ∃ rest, rest <:+ names ∧ Walk t m rest last := by
  induction h with
  | single n =>
    obtain rfl := List.mem_singleton.1 hm
    exact ⟨_, List.suffix_rfl, .single m⟩
  | @cons n p ns l hinherits hrest ih =>
    rcases List.mem_cons.1 hm with rfl | hm
    · exact ⟨_, List.suffix_rfl, .cons hinherits hrest⟩
    · obtain ⟨rest, hsuffix, hwalk⟩ := ih hm
      exact ⟨rest, hsuffix.trans (List.suffix_cons n ns), hwalk⟩

/-- A name has one chain to an end. -/
theorem unique (h : Walk t name names last) (hend : t.parent? last = none)
    (h' : Walk t name names' last') (hend' : t.parent? last' = none) : names = names' ∧ last = last' := by
  induction h generalizing names' with
  | single n =>
    cases h' with
    | single => exact ⟨rfl, rfl⟩
    | cons hinherits _ => rw [hend] at hinherits; cases hinherits
  | cons hinherits _ ih =>
    cases h' with
    | single => rw [hend'] at hinherits; cases hinherits
    | cons hinherits' hrest' =>
      obtain rfl := Option.some.inj (hinherits.symm.trans hinherits')
      obtain ⟨rfl, rfl⟩ := ih hend hrest'
      exact ⟨rfl, rfl⟩

/-- A chain that ends does not come by a name twice: it would go round for ever. -/
theorem nodup (h : Walk t name names last) (hend : t.parent? last = none) : names.Nodup := by
  induction h with
  | single n => exact List.pairwise_singleton _ n
  | @cons n p ns l hinherits hrest ih =>
    refine List.nodup_cons.2 ⟨fun hmem => ?_, ih hend⟩
    obtain ⟨again, hsuffix, hwalk⟩ := hrest.exists_suffix hmem
    have hwhole : again = n :: ns := (hwalk.unique hend (.cons hinherits hrest) hend).1
    have hle := hsuffix.length_le
    rw [hwhole, List.length_cons] at hle
    omega

/-- All names on a chain but the last are configured. -/
theorem subset_names (h : Walk t name names last) : names ⊆ last :: t.names := by
  induction h with
  | single n => exact fun _ hm => List.mem_singleton.1 hm ▸ List.mem_cons_self
  | @cons n p ns l hinherits _ ih =>
    obtain ⟨s, hs, -⟩ := parent?_eq_some_iff.1 hinherits
    intro m hm
    rcases List.mem_cons.1 hm with rfl | hm
    · exact List.mem_cons_of_mem _ (VariantTable.mem_names_of_get? hs)
    · exact ih hm

theorem length_le (h : Walk t name names last) (hnodup : names.Nodup) :
    names.length ≤ t.names.length + 1 :=
  (hnodup.subperm h.subset_names).length_le

end Walk

/-- Every chain ends or comes back. -/
theorem exists_walk (t : VariantTable) (seen : List String) (name : String) (hnew : name ∉ seen) :
    ∃ names last, Walk t name names last ∧ names.Nodup ∧ (∀ m ∈ names, m ∉ seen) ∧
      (t.parent? last = none ∨ ∃ via, t.parent? last = some via ∧ (via ∈ names ∨ via ∈ seen)) := by
  cases hparent : t.parent? name with
  | none => exact ⟨[name], name, .single name, List.pairwise_singleton _ name, by simpa using hnew, .inl hparent⟩
  | some parent =>
    by_cases hback : parent ∈ name :: seen
    · refine ⟨[name], name, .single name, List.pairwise_singleton _ name, by simpa using hnew,
        .inr ⟨parent, hparent, ?_⟩⟩
      simpa using List.mem_cons.1 hback
    · obtain ⟨s, hs, -⟩ := parent?_eq_some_iff.1 hparent
      -- one more configured name is on the chain now
      have hless := unseen_cons_lt (VariantTable.mem_names_of_get? hs) hnew
      obtain ⟨names, last, hwalk, hnodup, hfresh, hend⟩ := exists_walk t (name :: seen) parent hback
      refine ⟨name :: names, last, .cons hparent hwalk, ?_, ?_, ?_⟩
      · exact List.nodup_cons.2 ⟨fun hmem => hfresh name hmem List.mem_cons_self, hnodup⟩
      · rintro m (_ | ⟨_, hm⟩)
        · exact hnew
        · exact fun hseen => hfresh m hm (List.mem_cons_of_mem _ hseen)
      · rcases hend with hend | ⟨via, hvia, hmem⟩
        · exact .inl hend
        · refine .inr ⟨via, hvia, ?_⟩
          simp only [List.mem_cons] at hmem ⊢
          tauto
termination_by unseen t seen

/-! ## What a chain comes to -/

theorem name_base (name : String) : (base name).name = name := by
  rw [base]
  cases h : builtin? name with
  | none => rfl
  | some v => exact name_of_builtin? h

/-- A name that inherits nothing gives the base with its own settings. -/
theorem assembled_single (h : t.parent? name = none) : assembled t name [name] name =
    match t.get? name with
    | none => base name
    | some s => (base name).merge s := by
  have hname := name_base name
  cases hs : t.get? name with
  | none =>
    have heta : { base name with name := name } = base name :=
      congrArg (fun n => { base name with name := n }) hname.symm
    simpa [assembled, settingsOf, hs, h] using heta
  | some s => simp [assembled, settingsOf, hs, h, merge, hname]

/-- The nearest of some settings. -/
theorem findSome?_settings_cons {α : Type} (f : VariantSettings → Option α) (s : VariantSettings)
    (ss : List VariantSettings) : (s :: ss).findSome? f = (f s).or (ss.findSome? f) := by
  rw [List.findSome?_cons]
  cases f s <;> rfl

/-- A name that inherits another gives the variant of the other under its own name, with its own settings. -/
theorem assembled_cons (hs : t.get? name = some s) (hinherits : s.inherits = some parent) :
    ((assembled t parent names last).rename name).merge s = assembled t name (name :: names) last := by
  have hparent : t.parent? name = some parent := (parent?_of_get? hs).trans hinherits
  have hsettings : settingsOf t (name :: names) = s :: settingsOf t names := by
    simp [settingsOf, hs]
  simp [assembled, rename, merge, hsettings, hs, hparent, findSome?_settings_cons, Option.or_assoc]

/-- A chain that ends is resolved from its end, if the name there is known. -/
theorem resolveFrom_of_endsAt (h : EndsAt t name names last) (hfresh : ∀ m ∈ names, m ∉ seen) :
    resolveFrom t seen name =
      if IsKnown t last then .ok (assembled t name names last) else .error (.unknownVariant last) := by
  obtain ⟨hwalk, hend⟩ := h
  have hnodup := hwalk.nodup hend
  induction hwalk generalizing seen with
  | single n =>
    rw [resolveFrom, dif_neg (hfresh n List.mem_cons_self), assembled_single hend]
    split
    next hnone =>
      cases hbuiltin : builtin? n with
      | none => simp [IsKnown, hnone, hbuiltin]
      | some v => simp [IsKnown, hnone, hbuiltin, base]
    next s hs =>
      have hroot : s.inherits = none := (parent?_of_get? hs).symm.trans hend
      simp [IsKnown, hs, hroot, base]
  | @cons n p ns l hinherits hrest ih =>
    obtain ⟨hn, hns⟩ := List.forall_mem_cons.1 hfresh
    obtain ⟨hnot, hnodup⟩ := List.nodup_cons.1 hnodup
    obtain ⟨s, hs, hparent⟩ := parent?_eq_some_iff.1 hinherits
    have hfresh' : ∀ m ∈ ns, m ∉ n :: seen := fun m hm hmem =>
      (List.mem_cons.1 hmem).elim (fun heq => hnot (heq ▸ hm)) (hns m hm)
    have hbase := ih hfresh' hend hnodup
    rw [resolveFrom, dif_neg hn]
    split
    next hnone => rw [hs] at hnone; cases hnone
    next s' hs' =>
      obtain rfl := Option.some.inj (hs.symm.trans hs')
      simp only [hparent, hbase]
      by_cases hknown : IsKnown t l
      · simp only [if_pos hknown, assembled_cons hs hparent]
      · simp only [if_neg hknown]

/-- A chain that comes back is an error, which names where it started and where it comes back to. -/
theorem resolveFrom_of_comesBack (hwalk : Walk t name names last) (hnodup : names.Nodup)
    (hvia : t.parent? last = some via) (hback : via ∈ names ∨ via ∈ seen) (hfresh : ∀ m ∈ names, m ∉ seen) :
    resolveFrom t seen name = .error (.variantCycle (seen.getLast?.getD name) via) := by
  induction hwalk generalizing seen with
  | single n =>
    obtain ⟨s, hs, hparent⟩ := parent?_eq_some_iff.1 hvia
    have hmem : via ∈ n :: seen := by simpa using hback
    rw [resolveFrom, dif_neg (hfresh n List.mem_cons_self)]
    split
    next hnone => rw [hs] at hnone; cases hnone
    next s' hs' =>
      obtain rfl := Option.some.inj (hs.symm.trans hs')
      simp only [hparent]
      rw [resolveFrom, dif_pos hmem, List.getLast?_cons]
      rfl
  | @cons n p ns l hinherits hrest ih =>
    obtain ⟨hn, hns⟩ := List.forall_mem_cons.1 hfresh
    obtain ⟨hnot, hnodup⟩ := List.nodup_cons.1 hnodup
    obtain ⟨s, hs, hparent⟩ := parent?_eq_some_iff.1 hinherits
    have hfresh' : ∀ m ∈ ns, m ∉ n :: seen := fun m hm hmem =>
      (List.mem_cons.1 hmem).elim (fun heq => hnot (heq ▸ hm)) (hns m hm)
    have hback' : via ∈ ns ∨ via ∈ n :: seen := by
      simp only [List.mem_cons] at hback ⊢
      tauto
    have herror := ih hnodup hvia hback' hfresh'
    rw [resolveFrom, dif_neg hn]
    split
    next hnone => rw [hs] at hnone; cases hnone
    next s' hs' =>
      obtain rfl := Option.some.inj (hs.symm.trans hs')
      simp only [hparent, herror, List.getLast?_cons]
      rfl

/-! ## Resolution -/

theorem resolve_of_endsAt (h : EndsAt t name names last) : resolve t name =
    if IsKnown t last then .ok (assembled t name names last) else .error (.unknownVariant last) :=
  resolveFrom_of_endsAt h fun _ _ => List.not_mem_nil

theorem resolve_of_comesBackTo (h : ComesBackTo t name via) :
    resolve t name = .error (.variantCycle name via) := by
  obtain ⟨names, last, hwalk, hnodup, hvia, hmem⟩ := h
  exact resolveFrom_of_comesBack hwalk hnodup hvia (.inl hmem) fun _ _ => List.not_mem_nil

/-- A name resolves in one of three ways. -/
theorem resolve_cases (t : VariantTable) (name : String) :
    (∃ via, ComesBackTo t name via ∧ resolve t name = .error (.variantCycle name via)) ∨
    ∃ names last, EndsAt t name names last ∧
      ((¬ IsKnown t last ∧ resolve t name = .error (.unknownVariant last)) ∨
        (IsKnown t last ∧ resolve t name = .ok (assembled t name names last))) := by
  obtain ⟨names, last, hwalk, hnodup, -, hend | ⟨via, hvia, hmem⟩⟩ := exists_walk t [] name List.not_mem_nil
  · refine .inr ⟨names, last, ⟨hwalk, hend⟩, ?_⟩
    have hresolve := resolve_of_endsAt ⟨hwalk, hend⟩
    by_cases hknown : IsKnown t last
    · exact .inr ⟨hknown, hresolve.trans (if_pos hknown)⟩
    · exact .inl ⟨hknown, hresolve.trans (if_neg hknown)⟩
  · have hback : ComesBackTo t name via :=
      ⟨names, last, hwalk, hnodup, hvia, hmem.resolve_right List.not_mem_nil⟩
    exact .inl ⟨via, hback, resolve_of_comesBackTo hback⟩

theorem resolve_eq_cycle_iff {start : String} : resolve t name = .error (.variantCycle start via) ↔
    start = name ∧ ComesBackTo t name via := by
  constructor
  · intro h
    rcases resolve_cases t name with ⟨via', hback, herror⟩ | ⟨_, _, -, ⟨-, herror⟩ | ⟨-, hok⟩⟩
    · cases h.symm.trans herror
      exact ⟨rfl, hback⟩
    · cases h.symm.trans herror
    · cases h.symm.trans hok
  · rintro ⟨rfl, hback⟩
    exact resolve_of_comesBackTo hback

theorem resolve_eq_unknown_iff : resolve t name = .error (.unknownVariant last) ↔
    ∃ names, EndsAt t name names last ∧ ¬ IsKnown t last := by
  constructor
  · intro h
    rcases resolve_cases t name with ⟨_, -, herror⟩ | ⟨names, _, hends, ⟨hunknown, herror⟩ | ⟨-, hok⟩⟩
    · cases h.symm.trans herror
    · cases h.symm.trans herror
      exact ⟨names, hends, hunknown⟩
    · cases h.symm.trans hok
  · rintro ⟨names, hends, hunknown⟩
    rw [resolve_of_endsAt hends, if_neg hunknown]

theorem resolve_eq_ok_iff {v : Variant} : resolve t name = .ok v ↔
    ∃ names last, EndsAt t name names last ∧ IsKnown t last ∧ v = assembled t name names last := by
  constructor
  · intro h
    rcases resolve_cases t name with ⟨_, -, herror⟩ | ⟨names, last, hends, ⟨-, herror⟩ | ⟨hknown, hok⟩⟩
    · cases h.symm.trans herror
    · cases h.symm.trans herror
    · exact ⟨names, last, hends, hknown, Except.ok.inj (h.symm.trans hok)⟩
  · rintro ⟨names, last, hends, hknown, rfl⟩
    rw [resolve_of_endsAt hends, if_pos hknown]

/-- A chain ends or comes back, after as many names as are configured and one more at most. -/
theorem exists_finite_walk (t : VariantTable) (name : String) : ∃ names last, Walk t name names last ∧
    names.Nodup ∧ names.length ≤ t.names.length + 1 ∧
      (t.parent? last = none ∨ ∃ via ∈ names, t.parent? last = some via) := by
  obtain ⟨names, last, hwalk, hnodup, -, hend⟩ := exists_walk t [] name List.not_mem_nil
  refine ⟨names, last, hwalk, hnodup, hwalk.length_le hnodup, hend.imp_right ?_⟩
  rintro ⟨via, hvia, hmem⟩
  exact ⟨via, hmem.resolve_right List.not_mem_nil, hvia⟩

/-- What a name resolves to, told by its chain. -/
structure FollowsChain (t : VariantTable) (name : String) : Prop where
  /-- The chain ends or comes back, after as many names as are configured and one more at most. -/
  finite : ∃ names last, Walk t name names last ∧ names.Nodup ∧ names.length ≤ t.names.length + 1 ∧
    (t.parent? last = none ∨ ∃ via ∈ names, t.parent? last = some via)
  cycle_iff : ∀ start via, resolve t name = .error (.variantCycle start via) ↔
    start = name ∧ ComesBackTo t name via
  unknown_iff : ∀ last, resolve t name = .error (.unknownVariant last) ↔
    ∃ names, EndsAt t name names last ∧ ¬ IsKnown t last
  ok_iff : ∀ v, resolve t name = .ok v ↔
    ∃ names last, EndsAt t name names last ∧ IsKnown t last ∧ v = assembled t name names last
  /-- There is no other error. -/
  error_cases : ∀ e, resolve t name = .error e →
    (∃ start via, e = .variantCycle start via) ∨ ∃ last, e = .unknownVariant last

/-- Every name resolves by its chain. -/
theorem resolve_followsChain (t : VariantTable) (name : String) : FollowsChain t name where
  finite := exists_finite_walk t name
  cycle_iff _ _ := resolve_eq_cycle_iff
  unknown_iff _ := resolve_eq_unknown_iff
  ok_iff _ := resolve_eq_ok_iff
  error_cases e h := by
    rcases resolve_cases t name with ⟨via, -, herror⟩ | ⟨_, last, -, ⟨-, herror⟩ | ⟨-, hok⟩⟩
    · exact .inl ⟨name, via, Except.error.inj (h.symm.trans herror)⟩
    · exact .inr ⟨last, Except.error.inj (h.symm.trans herror)⟩
    · cases h.symm.trans hok

end Variant

end VariantBuild
