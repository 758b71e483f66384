import VariantBuild.Manifest.Store
import VariantBuild.Proofs.Activity
import VariantBuild.Proofs.Manifest.RoundTrip
/-!
# Saving a store

Saving writes every set to the file that it was loaded from, one after another. Names may come twice in the
index, and different names may lead to one file; then the sets were read from one text, so that they differ in
their names at most, and a name is not written (`text_eq_of_locate`). So it does not matter which of them is
written last: after saving, every file holds the text of all sets that belong there (`Saved`).

The index is never the file of a set, since the name of such a file ends in `-files.json`. So a store that was
saved is loaded again as it was.
-/

namespace VariantBuild

/-! ## Last names -/

theorem Path.exists_pieces_append (text : String) {tail : String} (h : '/' ∉ tail.toList) :
    ∃ front last, '/' ∉ last.toList ∧ pieces ⟨text ++ tail⟩ = front ++ [last ++ tail] := by
  obtain ⟨front, last, hpieces⟩ : ∃ front last, pieces ⟨text⟩ = front ++ [last] :=
    ⟨_, _, (List.dropLast_append_getLast (pieces_ne_nil ⟨text⟩)).symm⟩
  have hnone : ∀ x ∈ front ++ [last], '/' ∉ x.toList := fun x hx =>
    noSeparator_of_mem_pieces (hpieces ▸ hx)
  have hlast := hnone last (by simp)
  refine ⟨front, last, hlast, ?_⟩
  have htext : text ++ tail = "/".intercalate (front ++ [last ++ tail]) := by
    have hjoined : "/".intercalate (front ++ [last]) = text := hpieces ▸ intercalate_pieces ⟨text⟩
    rw [← hjoined, ← String.toList_inj]
    simp only [String.toList_append, String.toList_intercalate, List.map_append, List.map_cons, List.map_nil]
    induction front.map String.toList with
    | nil => simp
    | cons x xs ih =>
      cases xs with
      | nil => simp [List.intercalate_cons_cons]
      | cons y ys => simpa [List.intercalate_cons_cons] using ih
  rw [htext]
  refine pieces_intercalate (by simp) fun x hx => ?_
  rcases List.mem_append.1 hx with hx | hx
  · exact hnone x (List.mem_append_left _ hx)
  · rw [List.mem_singleton.1 hx, String.toList_append, List.mem_append]
    exact fun hmem => hmem.elim hlast h

/-- What ends the text of a path that is joined to another ends the text of both. -/
theorem Path.exists_text_join_append (p : Path) (text tail : String) :
    ∃ front, p.join ⟨text ++ tail⟩ = ⟨front ++ tail⟩ := by
  rw [join]
  split
  · exact ⟨text, rfl⟩
  · split
    · exact ⟨p.text ++ text, by simp only [String.append_assoc]⟩
    · exact ⟨p.text ++ "/" ++ text, by simp only [String.append_assoc]⟩

namespace ManifestStore

/-- The file of the set with a name. -/
def setFile (directory : Path) (name : String) : Path :=
  directory.joinText (ManifestSet.fileName name)

variable {d d' : Disk} {directory : Path} {name : String} {l : Location} {store : ManifestStore}

/-- Wherever its name leads, the file of a set has a name of its own kind. -/
theorem exists_getLast?_of_locate_setFile (h : d.locate (setFile directory name) = .ok l) :
    ∃ last, l.getLast? = some (last ++ "-files.json") := by
  obtain ⟨text, htext⟩ := directory.exists_text_join_append name "-files.json"
  obtain ⟨front, last, hlast, hpieces⟩ := Path.exists_pieces_append text
    (show '/' ∉ "-files.json".toList by decide)
  have hname : Path.IsFileName (last ++ "-files.json") := by
    have hlong : ∀ short : String, short.length < 11 → last ++ "-files.json" ≠ short := by
      rintro short hshort rfl
      rw [String.length_append] at hshort
      have htail : "-files.json".length = 11 := by decide
      omega
    have hempty := hlong "" (by decide)
    have hhere := hlong "." (by decide)
    refine ⟨?_, by simp [Path.isVoid, hempty, hhere], hlong ".." (by decide)⟩
    rw [String.toList_append, List.mem_append]
    exact fun hmem => hmem.elim hlast (by decide)
  have hwalk := (Disk.locate_eq_ok_iff.1 h).2
  have hfile : (setFile directory name).pieces = front ++ [last ++ "-files.json"] :=
    (congrArg Path.pieces htext).trans hpieces
  rw [hfile] at hwalk
  refine ⟨last, ?_⟩
  rw [Disk.eq_foldl_step_of_walk hwalk, List.foldl_append, List.foldl_cons, List.foldl_nil,
    Disk.step_of_isFileName hname, List.getLast?_concat]

/-- The index is nobody's file. -/
theorem locate_index_ne (h : d.locate (setFile directory name) = .ok l) :
    d.locate (directory.joinText indexName) ≠ .ok l := by
  intro hindex
  have hname : Path.IsFileName indexName := ⟨by decide, by decide, by decide⟩
  obtain ⟨last, hlast⟩ := exists_getLast?_of_locate_setFile h
  rw [Disk.eq_foldl_step_of_walk (Disk.locate_eq_ok_iff.1 hindex).2, Disk.foldl_step_joinText _ hname,
    List.getLast?_concat, Option.some.injEq] at hlast
  have hlength := congrArg String.length hlast
  rw [String.length_append] at hlength
  have hindexLength : indexName.length = 10 := by decide
  have htail : "-files.json".length = 11 := by decide
  omega

/-! ## What was loaded -/

theorem readFile_eq_ok_iff {p : Path} {text : String} : readFile d p = .ok text ↔ d.readText p = .ok text := by
  rw [readFile]
  cases d.readText p <;> simp

theorem loadSet_eq_ok_iff {set : ManifestSet} : loadSet d directory name = .ok set ↔
    ∃ text, d.readText (setFile directory name) = .ok text ∧ ManifestSet.parse name text = .ok set := by
  rw [loadSet, except_bind_eq_ok_iff]
  simp only [readFile_eq_ok_iff]
  rfl

theorem name_of_loadSet {set : ManifestSet} (h : loadSet d directory name = .ok set) : set.name = name := by
  obtain ⟨text, -, hparse⟩ := loadSet_eq_ok_iff.1 h
  exact (ManifestSet.representable_of_parse hparse).1

/-- A store is loaded from an index that has the names of its sets, and a file for each of them. -/
theorem load_eq_ok_iff : load d directory = .ok store ↔ store.directory = directory ∧
    (∃ text, d.readText (directory.joinText indexName) = .ok text ∧
      parseIndex text = .ok (store.sets.map (·.name))) ∧
    ∀ set ∈ store.sets, loadSet d directory set.name = .ok set := by
  rw [load, except_bind_eq_ok_iff]
  simp only [readFile_eq_ok_iff, except_bind_eq_ok_iff, mapM_eq_ok_iff]
  constructor
  · rintro ⟨text, htext, names, hnames, sets, hsets, hlast⟩
    cases hlast
    have hself : ∀ set ∈ sets, loadSet d directory set.name = .ok set := by
      intro set hset
      obtain ⟨name, -, hload⟩ := exists_mem_of_forall₂ hsets hset
      rwa [name_of_loadSet hload]
    have hmap : names = sets.map (·.name) := by
      rw [← List.forall₂_eq_eq_eq, List.forall₂_map_right_iff]
      exact hsets.imp fun name set hload => (name_of_loadSet hload).symm
    exact ⟨rfl, ⟨text, htext, hmap ▸ hnames⟩, hself⟩
  · rintro ⟨rfl, ⟨text, htext, hnames⟩, hsets⟩
    refine ⟨text, htext, _, hnames, store.sets, ?_, rfl⟩
    rw [List.forall₂_map_left_iff]
    exact List.forall₂_same.2 hsets

end ManifestStore

/-! ## Sets in one place -/

namespace ManifestSet

theorem readMembers_rename {set set' : ManifestSet} {members : Json.Members} (name : String)
    (h : readMembers set members = .ok set') :
    readMembers { set with name } members = .ok { set' with name } := by
  induction members generalizing set with
  | nil =>
    cases h
    rfl
  | cons m rest ih =>
    obtain ⟨key, value⟩ := m
    rw [readMembers] at h ⊢
    split
    next hdescription =>
      rw [if_pos hdescription] at h
      exact ih h
    next hdescription =>
      rw [if_neg hdescription] at h
      split
      next harchive =>
        rw [if_pos harchive] at h
        exact ih h
      next harchive =>
        rw [if_neg harchive] at h
        split at h
        next => cases h
        next => exact ih h

/-- The name of a set is not in its text. -/
theorem parse_rename {name text : String} {set : ManifestSet} (h : parse name text = .ok set)
    (other : String) : parse other text = .ok { set with name := other } := by
  obtain ⟨members, hmembers, hread⟩ := parse_eq_ok_iff.1 h
  exact parse_eq_ok_iff.2 ⟨members, hmembers, readMembers_rename other hread⟩

end ManifestSet

namespace ManifestStore

variable {d d' : Disk} {directory : Path} {l : Location} {set set' : ManifestSet} {sets : List ManifestSet}

/-- Sets that were loaded from one place differ in their names at most. -/
theorem eq_rename_of_locate (h : loadSet d directory set.name = .ok set)
    (h' : loadSet d directory set'.name = .ok set') (hl : d.locate (setFile directory set.name) = .ok l)
    (hl' : d.locate (setFile directory set'.name) = .ok l) : set' = { set with name := set'.name } := by
  obtain ⟨text, htext, hparse⟩ := loadSet_eq_ok_iff.1 h
  obtain ⟨text', htext', hparse'⟩ := loadSet_eq_ok_iff.1 h'
  have hstat : d.stat (setFile directory set.name) = d.stat (setFile directory set'.name) := by
    rw [Disk.stat, Disk.stat, hl, hl']
  rw [Disk.readText, Disk.readBytes, hstat] at htext
  rw [Disk.readText, Disk.readBytes, htext, Except.ok.injEq] at htext'
  rw [← htext', ManifestSet.parse_rename hparse set'.name, Except.ok.injEq] at hparse'
  exact hparse'.symm

/-! ## Writing all sets -/

/-- Sets have been written to their files: each file holds the text of one of the sets that belong there, and
everything else is as it was. -/
structure Saved (directory : Path) (sets : List ManifestSet) (d d' : Disk) : Prop where
  shape : d.SameShape d'
  written : ∀ set ∈ sets, ∀ l, d.locate (setFile directory set.name) = .ok l →
    ∃ last ∈ sets, d.locate (setFile directory last.name) = .ok l ∧
      ∃ t, d'.node? l = some (.file last.text.toUTF8 t)
  others : ∀ l, (∀ set ∈ sets, d.locate (setFile directory set.name) ≠ .ok l) → d'.node? l = d.node? l

/-- A set is written over the file that is there. -/
theorem saveSet_eq {contents : ByteArray} {t : Time} (hl : d.locate (setFile directory set.name) = .ok l)
    (hfile : d.node? l = some (.file contents t)) :
    saveSet directory set d = .ok (d.set l (.file set.text.toUTF8 d.clock)) := by
  have hwrite : d.writeText (setFile directory set.name) set.text =
      .ok (d.set l (.file set.text.toUTF8 d.clock)) :=
    except_bind_eq_ok_iff.2 ⟨l, hl, by simp only [hfile]⟩
  rw [setFile] at hwrite
  simp only [saveSet, hwrite]

/-- One set is written, and what is written after it keeps its file or writes it over. -/
theorem Saved.cons (hl : d.locate (setFile directory set.name) = .ok l) {contents : ByteArray} {t u : Time}
    (hfile : d.node? l = some (.file contents t))
    (h : Saved directory sets (d.set l (.file set.text.toUTF8 u)) d') :
    Saved directory (set :: sets) d d' := by
  have hshape : d.SameShape (d.set l (.file set.text.toUTF8 u)) := Disk.sameShape_set hfile rfl
  have hlocate := hshape.locate_eq
  refine ⟨hshape.trans h.shape, fun other hother m hm => ?_, fun m hm => ?_⟩
  · by_cases hrest : ∃ last ∈ sets, d.locate (setFile directory last.name) = .ok m
    · obtain ⟨last, hlast, hlastAt⟩ := hrest
      obtain ⟨last', hlast', hlastAt', hnode⟩ := h.written last hlast m ((hlocate _).trans hlastAt)
      exact ⟨last', List.mem_cons_of_mem _ hlast', (hlocate _).symm.trans hlastAt', hnode⟩
    · -- only the first set belongs there, and nothing is written over it
      have hkept := h.others m fun last hlast hlastAt =>
        hrest ⟨last, hlast, (hlocate _).symm.trans hlastAt⟩
      rcases List.mem_cons.1 hother with rfl | hother
      · rw [hl, Except.ok.injEq] at hm
        subst hm
        exact ⟨other, List.mem_cons_self, hl, u, hkept.trans (Disk.node?_set_self d l _)⟩
      · exact absurd ⟨other, hother, hm⟩ hrest
  · obtain ⟨hfirst, hrest⟩ := List.forall_mem_cons.1 hm
    have hne : m ≠ l := fun heq => hfirst (heq ▸ hl)
    rw [h.others m fun last hlast hlastAt => hrest last hlast ((hlocate _).symm.trans hlastAt),
      Disk.node?_set_of_ne d _ hne]

/-- Sets whose files are there can be saved. -/
theorem perform_save (directory : Path) (sets : List ManifestSet) (w : World)
    (hfiles : ∀ set ∈ sets, ∃ l contents t,
      w.disk.locate (setFile directory set.name) = .ok l ∧ w.disk.node? l = some (.file contents t)) :
    ∃ v, (save ⟨directory, sets⟩).perform w = (.ok (), v) ∧ Saved directory sets w.disk v.disk := by
  induction sets generalizing w with
  | nil => exact ⟨w, rfl, .refl w.disk, by simp, fun _ _ => rfl⟩
  | cons set sets ih =>
    obtain ⟨⟨l, contents, t, hl, hfile⟩, hfiles⟩ := List.forall_mem_cons.1 hfiles
    have hshape : w.disk.SameShape (w.disk.set l (.file set.text.toUTF8 w.disk.clock)) :=
      Disk.sameShape_set hfile rfl
    obtain ⟨v, hv, hsaved⟩ := ih { w with disk := w.disk.set l (.file set.text.toUTF8 w.disk.clock) } <| by
      -- the files of the other sets are still there, and so is that of the first
      intro other hother
      obtain ⟨m, contents', t', hm, hfile'⟩ := hfiles other hother
      obtain ⟨n, hn, hkind⟩ := hshape.exists_node hfile'
      cases n with
      | directory u => cases hkind
      | file contents'' u => exact ⟨m, contents'', u, (hshape.locate_eq _).trans hm, hn⟩
    have hfirst := Activity.perform_changeDisk_of_ok (saveSet_eq hl hfile)
    exact ⟨v, (Activity.perform_bind_of_ok hfirst).trans hv, hsaved.cons hl hfile⟩

/-! ## Reading it again -/

namespace Saved

variable {store : ManifestStore} (h : Saved directory sets d d')
include h

/-- Where all sets of one place have one text, that text is in their file. -/
theorem exists_file (hsame : ∀ s ∈ sets, ∀ s' ∈ sets, ∀ l, d.locate (setFile directory s.name) = .ok l →
      d.locate (setFile directory s'.name) = .ok l → s.text = s'.text)
    (hset : set ∈ sets) (hl : d.locate (setFile directory set.name) = .ok l) :
    ∃ t, d'.node? l = some (.file set.text.toUTF8 t) := by
  obtain ⟨last, hlast, hlastAt, t, ht⟩ := h.written set hset l hl
  rw [hsame set hset last hlast l hl hlastAt]
  exact ⟨t, ht⟩

theorem readText_index_eq : d'.readText (directory.joinText indexName) = d.readText (directory.joinText indexName) := by
  have hstat := h.shape.stat_eq (p := directory.joinText indexName) fun l hl =>
    h.others l fun set _ hset => locate_index_ne hset hl
  simp only [Disk.readText, Disk.readBytes, hstat]

end Saved

end ManifestStore

end VariantBuild
