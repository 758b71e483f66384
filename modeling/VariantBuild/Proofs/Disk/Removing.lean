import VariantBuild.Proofs.Disk.Writing
/-!
# Removing files

Removing files takes exactly them away: no other file and no directory is changed, but for the time of the
directory that held them (`Unlinks`). Paths to what is left lead where they led, and no path leads anywhere
new, so what a path named before and names no more can only be one of the files.

Names are those of a file system: none holds a separator, and none is a step of its own (`WellNamed`).
-/

namespace VariantBuild.Disk

/-- All names on the disk are ones that can stand below a path. -/
def WellNamed (d : Disk) : Prop :=
  ∀ l n, d.node? l = some n → ∀ name ∈ l, Path.IsFileName name

/-- The files at some locations are gone, and nothing else was changed but the times of the directories that
held them. -/
structure Unlinks (ls : List Location) (d d' : Disk) : Prop where
  here : d'.here = d.here
  clock : d'.clock = d.clock
  gone : ∀ l ∈ ls, (∃ contents t, d.node? l = some (.file contents t)) ∧ d'.node? l = none
  kept : ∀ m, m ∉ ls → d'.node? m = d.node? m ∨
    ((∃ l ∈ ls, m = l.dropLast) ∧ ∃ t, d.node? m = some (.directory t) ∧
      d'.node? m = some (.directory d.clock))

variable {d d' d'' : Disk} {l m : Location} {ls : List Location} {n : Node} {p : Path} {t : Time}
  {name : String} {contents : ByteArray}

/-- It is enough to look at the nodes that the disk lists. -/
theorem wellNamed_of_nodes (h : ∀ e ∈ d.nodes, ∀ name ∈ e.1, Path.IsFileName name) : d.WellNamed := by
  intro l node hnode name hname
  obtain ⟨entry, hfind, -⟩ := Option.map_eq_some_iff.1 hnode
  have hl : entry.1 = l := by simpa using List.find?_some hfind
  exact h entry (List.mem_of_find?_eq_some hfind) name (hl ▸ hname)

/-! ## One file after another -/

theorem Unlinks.refl (d : Disk) : Unlinks [] d d := by
  constructor
  · rfl
  · rfl
  · intro l hl
    cases hl
  · intro m _
    exact .inl rfl

/-- Removing a file takes the node away that its path leads to. -/
theorem unlinks_of_remove (h : d.remove p = .ok d') : ∃ l, d.locate p = .ok l ∧ Unlinks [l] d d' := by
  obtain ⟨l, hl, hrest⟩ := except_bind_eq_ok_iff.1 h
  refine ⟨l, hl, ?_⟩
  split at hrest
  · cases hrest
  · cases hrest
  next contents t hfile =>
    cases hrest
    have hgrows := d.grows_touchDirectory l.dropLast
    constructor
    · exact hgrows.here
    · exact hgrows.clock
    · intro k hk
      obtain rfl := List.mem_singleton.1 hk
      exact ⟨⟨contents, t, hfile⟩, node?_erase_self _ k⟩
    · intro m hm
      have hne : m ≠ l := fun heq => hm (List.mem_singleton.2 heq)
      rw [node?_erase_of_ne _ hne]
      by_cases hparent : m = l.dropLast
      · subst hparent
        rw [touchDirectory]
        split
        next u hu =>
          refine .inr ⟨⟨l, List.mem_singleton_self l, rfl⟩, u, hu, ?_⟩
          exact node?_set_self d _ _
        next => exact .inl rfl
      · exact .inl (node?_touchDirectory_of_ne hparent)

namespace Unlinks

/-- Times aside, every directory stays a directory. -/
theorem directory (h : Unlinks ls d d') (hm : d.node? m = some (.directory t)) :
    ∃ u, d'.node? m = some (.directory u) := by
  have hnot : m ∉ ls := by
    intro hmem
    obtain ⟨⟨contents, u, hfile⟩, -⟩ := h.gone m hmem
    rw [hm] at hfile
    cases hfile
  obtain hsame | ⟨-, u, -, hu⟩ := h.kept m hnot
  · exact ⟨t, hsame.trans hm⟩
  · exact ⟨d.clock, hu⟩

/-- No directory is new. -/
theorem directory_before (h : Unlinks ls d d') (hm : d'.node? m = some (.directory t)) :
    ∃ u, d.node? m = some (.directory u) := by
  by_cases hmem : m ∈ ls
  · rw [(h.gone m hmem).2] at hm
    cases hm
  · obtain hsame | ⟨-, u, hu, -⟩ := h.kept m hmem
    · exact ⟨t, hsame.symm.trans hm⟩
    · exact ⟨u, hu⟩

/-- A file that is there now was there as it is, and is none of those removed. -/
theorem file_before (h : Unlinks ls d d') (hm : d'.node? m = some (.file contents t)) :
    m ∉ ls ∧ d.node? m = some (.file contents t) := by
  have hnot : m ∉ ls := by
    intro hmem
    rw [(h.gone m hmem).2] at hm
    cases hm
  refine ⟨hnot, ?_⟩
  obtain hsame | ⟨-, u, -, hu⟩ := h.kept m hnot
  · exact hsame.symm.trans hm
  · rw [hu] at hm
    cases hm

theorem exists_before (h : Unlinks ls d d') (hm : d'.node? m = some n) : ∃ n', d.node? m = some n' := by
  cases n with
  | directory t =>
    obtain ⟨u, hu⟩ := h.directory_before hm
    exact ⟨_, hu⟩
  | file contents t => exact ⟨_, (h.file_before hm).2⟩

theorem origin_eq (h : Unlinks ls d d') (p : Path) : d'.origin p = d.origin p := by
  rw [origin, origin, h.here]

/-- Paths lead where they led, -/
theorem locate_eq (h : Unlinks ls d d') (hl : d.locate p = .ok l) : d'.locate p = .ok l := by
  obtain ⟨hrefusal, hwalk⟩ := locate_eq_ok_iff.1 hl
  apply locate_eq_ok_iff.2
  refine ⟨hrefusal, walk_eq_of_directories (fun _ _ => h.directory) ?_⟩
  rwa [h.origin_eq]

/-- and nowhere new. -/
theorem locate_before (h : Unlinks ls d d') (hl : d'.locate p = .ok l) : d.locate p = .ok l := by
  obtain ⟨hrefusal, hwalk⟩ := locate_eq_ok_iff.1 hl
  apply locate_eq_ok_iff.2
  refine ⟨hrefusal, walk_eq_of_directories (fun _ _ => h.directory_before) ?_⟩
  rwa [← h.origin_eq]

/-- One file and then others. -/
theorem cons (h : Unlinks [l] d d') (h' : Unlinks ls d' d'') : l ∉ ls ∧ Unlinks (l :: ls) d d'' := by
  obtain ⟨hfile, hnone⟩ := h.gone l (List.mem_singleton_self l)
  have hnot : l ∉ ls := by
    intro hmem
    obtain ⟨⟨contents, t, hthere⟩, -⟩ := h'.gone l hmem
    rw [hnone] at hthere
    cases hthere
  refine ⟨hnot, ?_⟩
  constructor
  · exact h'.here.trans h.here
  · exact h'.clock.trans h.clock
  · intro k hk
    rcases List.mem_cons.1 hk with rfl | hk
    · refine ⟨hfile, ?_⟩
      obtain hsame | ⟨-, t, ht, -⟩ := h'.kept k hnot
      · exact hsame.trans hnone
      · rw [hnone] at ht
        cases ht
    · obtain ⟨⟨contents, t, hthere⟩, hgone⟩ := h'.gone k hk
      exact ⟨⟨contents, t, (h.file_before hthere).2⟩, hgone⟩
  · intro m hm
    have hmsingle : m ∉ [l] := fun hmem => hm (List.mem_singleton.1 hmem ▸ List.mem_cons_self)
    have hms : m ∉ ls := List.not_mem_of_not_mem_cons hm
    -- a directory that either step touches ends with the time of the clock, which stands still
    obtain hfirst | ⟨⟨k, hk, hparent⟩, t, ht, ht'⟩ := h.kept m hmsingle
    · obtain hsecond | ⟨⟨k, hk, hparent⟩, t, ht, ht'⟩ := h'.kept m hms
      · exact .inl (hsecond.trans hfirst)
      · refine .inr ⟨⟨k, List.mem_cons_of_mem l hk, hparent⟩, t, hfirst.symm.trans ht, ?_⟩
        rw [ht', h.clock]
    · obtain rfl := List.mem_singleton.1 hk
      refine .inr ⟨⟨k, List.mem_cons_self, hparent⟩, t, ht, ?_⟩
      obtain hsecond | ⟨-, -, -, hu⟩ := h'.kept m hms
      · exact hsecond.trans ht'
      · rw [hu, h.clock]

end Unlinks

/-! ## Listing a directory -/

theorem list_eq_ok_iff {names : List String} : d.list p = .ok names ↔
    ∃ l t, d.locate p = .ok l ∧ d.node? l = some (.directory t) ∧ names = d.names l := by
  rw [list, except_bind_eq_ok_iff]
  constructor
  · rintro ⟨l, hl, hrest⟩
    split at hrest
    · cases hrest
    · cases hrest
    next t ht =>
      cases hrest
      exact ⟨l, t, hl, ht, rfl⟩
  · rintro ⟨l, t, hl, ht, rfl⟩
    exact ⟨l, hl, by simp only [ht]⟩

/-- A directory that cannot be listed for being missing leads nowhere, or to nothing. -/
theorem list_eq_notFound_iff : d.list p = .error .notFound ↔
    d.locate p = .error .notFound ∨ ∃ l, d.locate p = .ok l ∧ d.node? l = none := by
  rw [list, except_bind_eq_error_iff]
  refine or_congr Iff.rfl (exists_congr fun l => and_congr_right fun _ => ?_)
  cases d.node? l with
  | none => simp
  | some n => cases n <;> simp

/-- A directory lists the names of the nodes directly inside it. -/
theorem mem_names_iff : name ∈ d.names l ↔ ∃ n, d.node? (l ++ [name]) = some n := by
  rw [names, List.mem_filterMap]
  constructor
  · rintro ⟨⟨m, n⟩, hmem, hname⟩
    dsimp only at hname
    split at hname
    next last hlast =>
      split at hname
      next hparent =>
        cases hname
        have hm : m = l ++ [name] := by
          rw [← List.dropLast_append_getLast? name hlast, hparent]
        cases hfind : d.nodes.find? (·.1 = l ++ [name]) with
        | some entry => exact ⟨entry.2, by rw [node?, hfind, Option.map_some]⟩
        | none =>
          have hnone := List.find?_eq_none.1 hfind _ hmem
          simp [hm] at hnone
      next => cases hname
    next => cases hname
  · rintro ⟨n, hn⟩
    obtain ⟨⟨m, n'⟩, hfind, rfl⟩ := Option.map_eq_some_iff.1 hn
    have hm : m = l ++ [name] := by simpa using List.find?_some hfind
    refine ⟨(m, n'), List.mem_of_find?_eq_some hfind, ?_⟩
    simp [hm]

/-! ## Names below a directory that is listed or missing -/

/-- Why a name below a directory cannot be looked up, though the directory can be listed or is missing. -/
inductive Unfit (p : Path) (name : String) : SystemError → Prop
  | nul (h : holdsNul (p.joinText name).text = true) : Unfit p name .nulInPath
  | longPath (h : greatestPathSize < (p.joinText name).text.utf8ByteSize) : Unfit p name .nameTooLong
  | longName (h : greatestNameSize < name.utf8ByteSize) : Unfit p name .nameTooLong

theorem Unfit.ne_notFound {e : SystemError} (h : Unfit p name e) : e ≠ .notFound := by
  intro heq
  cases h <;> cases heq

theorem text_joinText_ne_empty (p : Path) (h : Path.IsFileName name) : (p.joinText name).text ≠ "" := by
  intro htext
  have hcomponents := Path.components_joinText p h
  have hnone : Path.components ⟨""⟩ = [] := by decide
  rw [show p.joinText name = ⟨""⟩ from congrArg Path.mk htext, hnone] at hcomponents
  simp at hcomponents

/-- A path below another is refused for a NUL or for its length only. -/
theorem unfit_of_refusal? {e : SystemError} (h : Path.IsFileName name)
    (hr : refusal? (p.joinText name) = some e) : Unfit p name e := by
  rw [refusal?] at hr
  split at hr
  next hnul =>
    cases hr
    exact .nul hnul
  next =>
    split at hr
    next hempty => exact absurd hempty (text_joinText_ne_empty p h)
    next =>
      split at hr
      next hlong =>
        cases hr
        exact .longPath hlong
      next => cases hr

/-- A name below a directory that is listed or missing is found in the directory, or is missing, or cannot be
looked up for what it is. -/
theorem stat_joinText_cases (hempty : p.text ≠ "") (h : Path.IsFileName name)
    (hlist : (∃ names, d.list p = .ok names) ∨ d.list p = .error .notFound) :
    (∃ l n, d.locate p = .ok l ∧ d.node? (l ++ [name]) = some n ∧
      d.locate (p.joinText name) = .ok (l ++ [name]) ∧ d.stat (p.joinText name) = .ok n) ∨
    d.stat (p.joinText name) = .error .notFound ∨
    (∃ e, d.stat (p.joinText name) = .error e ∧ Unfit p name e) := by
  cases hr : refusal? (p.joinText name) with
  | some e =>
    refine .inr (.inr ⟨e, ?_, unfit_of_refusal? h hr⟩)
    rw [stat, locate, follow, hr]
    rfl
  | none =>
    rcases hlist with ⟨names, hnames⟩ | hmissing
    · obtain ⟨l, t, hl, ht, -⟩ := list_eq_ok_iff.1 hnames
      have hlocate := locate_joinText_of_directory hempty h hr hl ht
      by_cases hlong : greatestNameSize < name.utf8ByteSize
      · rw [if_pos hlong] at hlocate
        refine .inr (.inr ⟨.nameTooLong, ?_, .longName hlong⟩)
        rw [stat, hlocate]
        rfl
      · rw [if_neg hlong] at hlocate
        cases hn : d.node? (l ++ [name]) with
        | some n => exact .inl ⟨l, n, hl, hn, hlocate, stat_eq_ok_iff.2 ⟨_, hlocate, hn⟩⟩
        | none =>
          refine .inr (.inl (except_bind_eq_error_iff.2 (.inr ⟨_, hlocate, ?_⟩)))
          simp only [hn]
    · -- nothing is below what is not there
      have hlocate : d.locate (p.joinText name) = .error .notFound := by
        rw [locate_joinText d hempty h hr]
        rcases list_eq_notFound_iff.1 hmissing with hl | ⟨l, hl, hn⟩
        · rw [hl]
          rfl
        · rw [hl]
          change d.walk l [name] = _
          simp only [walk, hn]
      refine .inr (.inl ?_)
      rw [stat, hlocate]
      rfl

end VariantBuild.Disk
