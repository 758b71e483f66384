import VariantBuild.Proofs.Disk.Directories
/-!
# Writing a file

Writing puts one file at one location and touches the directory that holds it; everything else stays
(`Writes`). Which location a path leads to can be read off its text, whatever is on the disk, so two paths
that differ in their last name below one directory never lead to the same place.
-/

namespace VariantBuild.Disk

/-- A file with a given time has been put at a location, and nothing else was changed but the time of the
directory that holds it. -/
structure Writes (l : Location) (t : Time) (d d' : Disk) : Prop where
  here : d'.here = d.here
  clock : d'.clock = d.clock
  file : ∃ contents, d'.node? l = some (.file contents t)
  notDirectory : ∀ u, d.node? l ≠ some (.directory u)
  parent : ∀ u, d.node? l.dropLast = some (.directory u) → ∃ u', d'.node? l.dropLast = some (.directory u')
  others : ∀ m, m ≠ l → m ≠ l.dropLast → d'.node? m = d.node? m

variable {d d' : Disk} {l m : Location} {n : Node} {p q : Path} {t : Time} {name : String}

theorem node?_touchDirectory_of_ne (h : m ≠ l) : (d.touchDirectory l).node? m = d.node? m := by
  rw [touchDirectory]
  split
  · exact node?_set_of_ne d _ h
  · rfl

theorem exists_directory_touchDirectory (d : Disk) {u : Time} (h : d.node? l = some (.directory u)) :
    ∃ u', (d.touchDirectory l).node? l = some (.directory u') := by
  rw [touchDirectory, h]
  exact ⟨d.clock, node?_set_self d l _⟩

/-- Writing a file comes to putting it where its path leads. -/
theorem writes_of_writeStamped {contents : ByteArray} (h : d.writeStamped p contents t = .ok d') :
    ∃ l, d.locate p = .ok l ∧ Writes l t d d' := by
  obtain ⟨l, hl, hrest⟩ := except_bind_eq_ok_iff.1 h
  refine ⟨l, hl, ?_⟩
  split at hrest
  next => cases hrest
  next contents' t' hfile =>
    cases hrest
    have hkept : ∀ u, d.node? l ≠ some (.directory u) := by simp [hfile]
    refine ⟨rfl, rfl, ⟨contents, node?_set_self d l _⟩, hkept, fun u hu => ?_,
      fun m hm _ => node?_set_of_ne d _ hm⟩
    have hne : l.dropLast ≠ l := fun heq => hkept u (heq ▸ hu)
    exact ⟨u, (node?_set_of_ne d _ hne).trans hu⟩
  next hnone =>
    cases hrest
    have hkept : ∀ u, d.node? l ≠ some (.directory u) := by simp [hnone]
    -- a new file also gives the directory that holds it a new time
    have hgrows := d.grows_touchDirectory l.dropLast
    refine ⟨hgrows.here, hgrows.clock, ⟨contents, node?_set_self _ l _⟩, hkept, fun u hu => ?_,
      fun m hm hm' => (node?_set_of_ne _ _ hm).trans (node?_touchDirectory_of_ne hm')⟩
    have hne : l.dropLast ≠ l := fun heq => hkept u (heq ▸ hu)
    obtain ⟨u', hu'⟩ := d.exists_directory_touchDirectory hu
    exact ⟨u', (node?_set_of_ne _ _ hne).trans hu'⟩

namespace Writes

theorem directory (h : Writes l t d d') {m : Location} {u : Time} (hm : d.node? m = some (.directory u)) :
    ∃ u', d'.node? m = some (.directory u') := by
  by_cases hl : m = l
  · exact absurd (hl ▸ hm) (h.notDirectory u)
  · by_cases hparent : m = l.dropLast
    · subst hparent
      exact h.parent u hm
    · exact ⟨u, (h.others m hl hparent).trans hm⟩

/-- Paths lead where they led. -/
theorem locate_eq (h : Writes l t d d') (hm : d.locate p = .ok m) : d'.locate p = .ok m := by
  obtain ⟨hrefusal, hwalk⟩ := locate_eq_ok_iff.1 hm
  have horigin : d'.origin p = d.origin p := by rw [origin, origin, h.here]
  exact locate_eq_ok_iff.2 ⟨hrefusal,
    walk_eq_of_directories (fun _ _ => h.directory) (horigin.symm ▸ hwalk)⟩

/-- What a path names is there as it was, unless it is the file or the directory that holds it. -/
theorem stat_eq (h : Writes l t d d') (hm : ∀ m, d.locate p = .ok m → m ≠ l ∧ m ≠ l.dropLast)
    (hstat : d.stat p = .ok n) : d'.stat p = .ok n := by
  obtain ⟨m, hlocate, hnode⟩ := stat_eq_ok_iff.1 hstat
  obtain ⟨hl, hparent⟩ := hm m hlocate
  exact stat_eq_ok_iff.2 ⟨m, h.locate_eq hlocate, (h.others m hl hparent).trans hnode⟩

theorem modified_eq (h : Writes l t d d') (hm : ∀ m, d.locate p = .ok m → m ≠ l ∧ m ≠ l.dropLast)
    {u : Time} (hmodified : d.modified p = .ok u) : d'.modified p = .ok u := by
  obtain ⟨n, hn, rfl⟩ := except_map_eq_ok_iff.1 hmodified
  exact except_map_eq_ok_iff.2 ⟨n, h.stat_eq hm hn, rfl⟩

theorem readText_eq (h : Writes l t d d') (hm : ∀ m, d.locate p = .ok m → m ≠ l ∧ m ≠ l.dropLast)
    {text : String} (hread : d.readText p = .ok text) : d'.readText p = .ok text := by
  obtain ⟨contents, u, hstat, htext⟩ := readText_eq_ok_iff.1 hread
  exact readText_eq_ok_iff.2 ⟨contents, u, h.stat_eq hm hstat, htext⟩

/-- Another name below a directory is looked up as before, and fails as before. -/
theorem modified_joinText_eq (h : Writes l t d d') (habsolute : p.isAbsolute = true)
    (hname : Path.IsFileName name) (hdirectory : d.isDirectory p = true)
    (hm : ∀ m, d.locate (p.joinText name) = .ok m → m ≠ l ∧ m ≠ l.dropLast) :
    d'.modified (p.joinText name) = d.modified (p.joinText name) := by
  obtain ⟨m, u, hlocate, hnode⟩ := isDirectory_eq_true_iff.1 hdirectory
  obtain ⟨u', hnode'⟩ := h.directory hnode
  have hsame : d'.locate (p.joinText name) = d.locate (p.joinText name) := by
    cases hr : refusal? (p.joinText name) with
    | some e => rw [locate, follow, hr, locate, follow, hr]
    | none =>
      have hempty := Path.text_ne_empty habsolute
      rw [locate_joinText_of_directory hempty hname hr hlocate hnode,
        locate_joinText_of_directory hempty hname hr (h.locate_eq hlocate) hnode']
  rw [modified, modified, stat, stat, hsame]
  cases hl : d.locate (p.joinText name) with
  | error e => rfl
  | ok k =>
    obtain ⟨hk, hk'⟩ := hm k hl
    simp only [bind, Except.bind, h.others k hk hk']

/-- The file is there, with its time. -/
theorem modified_self (h : Writes l t d d') (hl : d.locate p = .ok l) : d'.modified p = .ok t := by
  obtain ⟨contents, hfile⟩ := h.file
  exact except_map_eq_ok_iff.2 ⟨_, stat_eq_ok_iff.2 ⟨l, h.locate_eq hl, hfile⟩, rfl⟩

end Writes

end VariantBuild.Disk
