import Mathlib.Data.List.Perm.Subperm
import VariantBuild.Proofs.Directive.Canonical
import VariantBuild.Proofs.Except
import VariantBuild.Proofs.Json.RoundTrip
import VariantBuild.Manifest.Codec
/-!
# Writing manifests and reading them back

Not every set survives being written. Entries are keyed by their path, so a path that comes twice loses
one of them; the two marker keys are not read as files; directives are read again from their text, where a
raw argument can look like a directive and an empty flag is refused. `ManifestSet.Representable` lists
these four, and nothing else is in the way: a set is read back from its text exactly when it is
representable. Every set that was read from a file is.

The only thing taken on trust is that the binary64 numbers in the markers are read back
(`ManifestSet.MarkersReadBack`).
-/

namespace VariantBuild

/-! ## Entries -/

namespace FileEntry

theorem readDirective_eq_ok_iff {text : String} {d : Directive} :
    readDirective (.string text) = .ok d ↔ Directive.parse text = .ok d := by
  cases h : Directive.parse text <;> simp [readDirective, readString, h, bind, Except.bind]

theorem readList_readPath (ps : List Path) : readList readPath (stringsToJson (ps.map (·.text))) = .ok ps := by
  change ((ps.map (·.text)).map Json.string).mapM readPath = _
  rw [List.map_map, mapM_eq_ok_iff, List.forall₂_map_left_iff]
  exact List.forall₂_same.2 fun p _ => rfl

theorem readList_readString (xs : List String) : readList readString (stringsToJson xs) = .ok xs := by
  change (xs.map Json.string).mapM readString = _
  rw [mapM_eq_ok_iff, List.forall₂_map_left_iff]
  exact List.forall₂_same.2 fun x _ => rfl

theorem readList_readDirective_eq_ok_iff {ds fs : List Directive} :
    readList readDirective (stringsToJson (ds.map Directive.text)) = .ok fs ↔
      List.Forall₂ (fun d d' => Directive.parse d.text = .ok d') ds fs := by
  change ((ds.map Directive.text).map Json.string).mapM readDirective = _ ↔ _
  rw [List.map_map, mapM_eq_ok_iff, List.forall₂_map_left_iff]
  simp only [Function.comp_apply, readDirective_eq_ok_iff]

/-- Only the directives of an entry are read as anything but themselves. -/
theorem ofJson_toJson (e : FileEntry) : ofJson e.toJson =
    (readList readDirective (stringsToJson (e.flags.map Directive.text))).map
      fun fs => { e with flags := fs } := by
  have hkey : ∀ key : Key, Key.all.find? (·.name = key.name) = some key := by
    intro key
    cases key <;> decide
  simp only [ofJson, toJson, readMembers, hkey, readKey, readList_readPath, readList_readString]
  cases readList readDirective (stringsToJson (e.flags.map Directive.text)) <;> rfl

/-- An entry is read back when its directives are. -/
theorem ofJson_toJson_eq_ok {e : FileEntry} (hread : ∀ d ∈ e.flags, d.GroupRead)
    (h : ∀ d ∈ e.flags, d.Representable) : ofJson e.toJson = .ok e := by
  have hflags : readList readDirective (stringsToJson (e.flags.map Directive.text)) = .ok e.flags :=
    readList_readDirective_eq_ok_iff.2 <| List.forall₂_same.2 fun d hd =>
      (Directive.parse_text_iff (hread d hd)).2 (h d hd)
  rw [ofJson_toJson, hflags]
  rfl

/-- An entry that comes back with its directives has directives that can be read back. -/
theorem representable_of_ofJson_toJson {e e' : FileEntry} (h : ofJson e.toJson = .ok e')
    (hflags : e'.flags = e.flags) : ∀ d ∈ e.flags, d.Representable := by
  rw [ofJson_toJson] at h
  cases hread : readList readDirective (stringsToJson (e.flags.map Directive.text)) with
  | error cause =>
    rw [hread] at h
    cases h
  | ok fs =>
    rw [hread] at h
    cases h
    obtain rfl : fs = e.flags := hflags
    exact fun d hd => (Directive.representable_of_parse
      (List.forall₂_same.1 (readList_readDirective_eq_ok_iff.1 hread) d hd)).2

theorem flags_eq_of_agrees {a b : FileEntry} (h : a.agrees b = true) : a.flags = b.flags := by
  simp only [agrees, Bool.and_eq_true, beq_iff_eq] at h
  exact h.1.1.2

theorem samePlaces_refl (ps : List Path) : samePlaces ps ps = true := by
  induction ps with
  | nil => rfl
  | cons p ps ih =>
    rw [samePlaces, ih, Bool.and_true]
    exact decide_eq_true rfl

theorem agrees_refl (e : FileEntry) : e.agrees e = true := by
  simp [agrees, samePlaces_refl]

/-- All directives of an entry are as they were read. -/
def Read (e : FileEntry) : Prop :=
  ∀ d ∈ e.flags, d.GroupRead ∧ d.Representable

theorem read_of_readDirective {value : Json} {d : Directive} (h : readDirective value = .ok d) :
    d.GroupRead ∧ d.Representable := by
  obtain ⟨text, htext, -⟩ := except_bind_eq_ok_iff.1 h
  cases value with
  | string s => exact Directive.representable_of_parse (readDirective_eq_ok_iff.1 h)
  | _ => cases htext

theorem read_of_readKey {e e' : FileEntry} {value : Json} {key : Key} (hread : e.Read)
    (h : e.readKey value key = .ok e') : e'.Read := by
  cases key with
  | flags =>
    obtain ⟨fs, hlist, rfl⟩ := except_map_eq_ok_iff.1 h
    cases value with
    | array items => exact forall_of_mapM_eq_ok (fun j d => read_of_readDirective) hlist
    | _ => cases hlist
  | _ =>
    obtain ⟨xs, -, rfl⟩ := except_map_eq_ok_iff.1 h
    exact hread

theorem read_of_readKeys {e e' : FileEntry} {keys : List (Key × Json)} (hread : e.Read)
    (h : e.readKeys keys = .ok e') : e'.Read := by
  induction keys generalizing e with
  | nil =>
    cases h
    exact hread
  | cons k keys ih =>
    obtain ⟨e₁, hkey, hrest⟩ := except_bind_eq_ok_iff.1 h
    exact ih (read_of_readKey hread hkey) hrest

theorem read_of_readMembers {e e' : FileEntry} {ms : Json.Members} (hread : e.Read)
    (h : e.readMembers ms = .ok e') : e'.Read := by
  induction ms generalizing e with
  | nil =>
    cases h
    exact hread
  | cons m ms ih =>
    rw [readMembers] at h
    split at h
    next => cases h
    next key _ =>
      obtain ⟨e₁, hkey, hrest⟩ := except_bind_eq_ok_iff.1 h
      exact ih (read_of_readKey hread hkey) hrest

/-- What is read as an entry has directives that can be read back. -/
theorem read_of_ofJson {value : Json} {e : FileEntry} (h : ofJson value = .ok e) : e.Read := by
  have hdefault : (default : FileEntry).Read := fun d hd => nomatch hd
  cases value with
  | object members => exact read_of_readMembers hdefault h
  | array items =>
    obtain ⟨e₁, hkeys, hlast⟩ := except_bind_eq_ok_iff.1 h
    split at hlast
    next => cases hlast
    next =>
      cases hlast
      exact read_of_readKeys hdefault hkeys
  | _ => cases h

end FileEntry

/-! ## Sets -/

namespace ManifestSet

/-- The keys that are not read as files. -/
def isMarker (name : String) : Bool :=
  name = descriptionKey || name = archiveKey

/-- The values of the markers. -/
def markerValues (set : ManifestSet) : List Json :=
  set.description.toList ++ set.archive.toList

/-- A set as it can be built: the groups of its directives are read from texts, and its markers are JSON
values that fit into a file. -/
structure WellFormed (set : ManifestSet) : Prop where
  groups : ∀ entry ∈ set.entries, ∀ d ∈ entry.2.flags, d.GroupRead
  markers : ∀ j ∈ set.markerValues, Json.Within (Json.nesting - 1) j

/-- The numbers in the markers are read back. -/
def MarkersReadBack (set : ManifestSet) : Prop :=
  ∀ j ∈ set.markerValues, j.ReadsBack

/-- What a set needs to be read back from its text. -/
structure Representable (set : ManifestSet) : Prop where
  distinct : (set.entries.map (·.1.text)).Nodup
  notMarker : ∀ entry ∈ set.entries, entry.1.text ≠ descriptionKey ∧ entry.1.text ≠ archiveKey
  directives : ∀ entry ∈ set.entries, ∀ d ∈ entry.2.flags, d.Representable

/-- All members of a set, before they are collected. -/
def allMembers (set : ManifestSet) : Json.Members :=
  set.markers ++ set.entries.map entryMember

theorem marker_or_entry_of_mem_allMembers {set : ManifestSet} {m : String × Json}
    (h : m ∈ set.allMembers) : (isMarker m.1 = true ∧ m.2 ∈ set.markerValues) ∨
      ∃ entry ∈ set.entries, entryMember entry = m := by
  rcases List.mem_append.1 h with h | h
  · left
    rcases List.mem_append.1 h with h | h
    · obtain ⟨j, hj, rfl⟩ := Option.map_eq_some_iff.1 (Option.mem_toList.1 h)
      exact ⟨rfl, List.mem_append_left _ (Option.mem_toList.2 hj)⟩
    · obtain ⟨j, hj, rfl⟩ := Option.map_eq_some_iff.1 (Option.mem_toList.1 h)
      exact ⟨rfl, List.mem_append_right _ (Option.mem_toList.2 hj)⟩
  · exact .inr (List.mem_map.1 h)

theorem within_entry (e : FileEntry) : Json.Within (Json.nesting - 1) e.toJson := by
  have hstrings : ∀ xs, Json.Within (Json.nesting - 2) (FileEntry.stringsToJson xs) := by
    intro xs j hj
    obtain ⟨s, -, rfl⟩ := List.mem_map.1 hj
    trivial
  have hnames : (FileEntry.Key.all.map FileEntry.Key.name).Nodup := by decide
  refine ⟨hnames, ?_⟩
  simp only [List.forall_mem_cons]
  exact ⟨hstrings _, hstrings _, hstrings _, hstrings _, List.forall_mem_nil _⟩

theorem readsBack_entry (e : FileEntry) : e.toJson.ReadsBack := by
  have hstrings : ∀ xs, (FileEntry.stringsToJson xs).ReadsBack := by
    rintro xs x (_ | ⟨hj, hx⟩)
    obtain ⟨s, -, rfl⟩ := List.mem_map.1 hj
    cases hx
  intro x hx
  obtain ⟨m, hm, hx⟩ := Json.occurs_object_iff.1 hx
  simp only [List.mem_cons, List.not_mem_nil, or_false] at hm
  rcases hm with rfl | rfl | rfl | rfl <;> exact hstrings _ x hx

theorem within_toJson {set : ManifestSet} (h : set.WellFormed) : Json.Within Json.nesting set.toJson := by
  refine ⟨Json.nodup_collect _, fun m hm => ?_⟩
  rcases marker_or_entry_of_mem_allMembers (Json.mem_of_mem_collect hm) with ⟨-, hm⟩ | ⟨entry, -, rfl⟩
  · exact h.markers _ hm
  · exact within_entry entry.2

theorem readsBack_toJson {set : ManifestSet} (h : set.MarkersReadBack) : set.toJson.ReadsBack := by
  intro x hx
  obtain ⟨m, hm, hx⟩ := Json.occurs_object_iff.1 hx
  rcases marker_or_entry_of_mem_allMembers (Json.mem_of_mem_collect hm) with ⟨-, hm⟩ | ⟨entry, -, rfl⟩
  · exact h _ hm x hx
  · exact readsBack_entry entry.2 x hx

theorem parse_eq_ok_iff {name text : String} {set : ManifestSet} : parse name text = .ok set ↔
    ∃ members, Json.parse text = some (.object members) ∧ readMembers (.new name) members = .ok set := by
  rw [parse]
  split
  next members hparse =>
    cases hread : readMembers (.new name) members <;> simp [hparse, hread]
  next hother =>
    constructor
    · intro h
      cases h
    · rintro ⟨members, hparse, -⟩
      exact absurd hparse (hother members)

/-- Reading a set from its text comes down to reading its members. -/
theorem parse_text_eq_ok_iff {set set' : ManifestSet} (h : set.WellFormed) (hback : set.MarkersReadBack)
    (name : String) : parse name set.text = .ok set' ↔
      readMembers (.new name) (Json.collect set.allMembers) = .ok set' := by
  have hparse : Json.parse set.text = some (.object (Json.collect set.allMembers)) :=
    Json.parse_indented (within_toJson h) (readsBack_toJson hback)
  rw [parse_eq_ok_iff, hparse]
  simp

/-! ## Members of a set -/

theorem readMembers_append (set : ManifestSet) (ms ns : Json.Members) : readMembers set (ms ++ ns) =
    readMembers set ms >>= fun set => readMembers set ns := by
  induction ms generalizing set with
  | nil => rfl
  | cons m ms ih =>
    rw [List.cons_append, readMembers, readMembers]
    split
    next => exact ih _
    next =>
      split
      next => exact ih _
      next =>
        split
        next => rfl
        next => exact ih _

theorem isMarker_eq_false_iff {name : String} :
    isMarker name = false ↔ name ≠ descriptionKey ∧ name ≠ archiveKey := by
  simp [isMarker]

/-- The markers are read as they are. -/
theorem readMembers_markers (set : ManifestSet) :
    readMembers (.new set.name) set.markers = .ok { set with entries := [] } := by
  rcases set with ⟨name, _ | d, _ | a, entries⟩ <;> rfl

/-- Entries under other keys are read as they are if they can be read back. -/
theorem readMembers_entries {entries : List SourceEntry}
    (hname : ∀ entry ∈ entries, entry.1.text ≠ descriptionKey ∧ entry.1.text ≠ archiveKey)
    (hread : ∀ entry ∈ entries, FileEntry.ofJson entry.2.toJson = .ok entry.2) (set : ManifestSet) :
    readMembers set (entries.map entryMember) = .ok { set with entries := set.entries ++ entries } := by
  induction entries generalizing set with
  | nil => simp [readMembers]
  | cons entry entries ih =>
    obtain ⟨⟨hdescription, harchive⟩, hnames⟩ := List.forall_mem_cons.1 hname
    obtain ⟨hentry, hentries⟩ := List.forall_mem_cons.1 hread
    rw [List.map_cons, entryMember, readMembers, if_neg hdescription, if_neg harchive, hentry]
    exact (ih hnames hentries _).trans (by simp)

/-- The entries that are read from members: those under other keys than the markers', in order. -/
def ReadFrom (ms : Json.Members) (entries : List SourceEntry) : Prop :=
  List.Forall₂ (fun m entry => m.1 = entry.1.text ∧ FileEntry.ofJson m.2 = .ok entry.2)
    (ms.filter (!isMarker ·.1)) entries

theorem ReadFrom.names_eq {ms : Json.Members} {entries : List SourceEntry} (h : ReadFrom ms entries) :
    entries.map (·.1.text) = (ms.map (·.1)).filter (!isMarker ·) := by
  have hnames : (ms.filter (!isMarker ·.1)).map (·.1) = entries.map (·.1.text) := by
    rw [← List.forall₂_eq_eq_eq, List.forall₂_map_left_iff, List.forall₂_map_right_iff]
    exact h.imp fun m entry => And.left
  rw [← hnames, List.filter_map]
  rfl

theorem ReadFrom.read {ms : Json.Members} {entries : List SourceEntry} (h : ReadFrom ms entries) :
    ∀ entry ∈ entries, entry.2.Read := by
  have hread : List.Forall₂ (fun entry (_ : String × Json) => entry.2.Read ∧ True) entries
      (ms.filter (!isMarker ·.1)) :=
    (h.imp fun m entry hentry => ⟨FileEntry.read_of_ofJson hentry.2, trivial⟩).flip
  exact ((List.forall₂_and_left _ _).1 hread).1

/-- What reading members adds to a set. -/
theorem readMembers_spec {set set' : ManifestSet} {ms : Json.Members}
    (h : readMembers set ms = .ok set') : set'.name = set.name ∧
      (∀ j ∈ set'.markerValues, j ∈ set.markerValues ∨ ∃ m ∈ ms, m.2 = j) ∧
      ∃ added, set'.entries = set.entries ++ added ∧ ReadFrom ms added := by
  induction ms generalizing set with
  | nil =>
    cases h
    exact ⟨rfl, fun j hj => .inl hj, [], by simp, .nil⟩
  | cons m ms ih =>
    obtain ⟨name, value⟩ := m
    rw [readMembers] at h
    split at h
    next hname =>
      subst hname
      obtain ⟨hset, hmarkers, added, hentries, hadded⟩ := ih h
      refine ⟨hset, fun j hj => ?_, added, hentries, hadded⟩
      rcases hmarkers j hj with hj | ⟨m, hm, hmj⟩
      · rcases List.mem_cons.1 hj with rfl | hj
        · exact .inr ⟨_, List.mem_cons_self, rfl⟩
        · exact .inl (List.mem_append_right _ hj)
      · exact .inr ⟨m, List.mem_cons_of_mem _ hm, hmj⟩
    next hdescription =>
      split at h
      next hname =>
        subst hname
        obtain ⟨hset, hmarkers, added, hentries, hadded⟩ := ih h
        refine ⟨hset, fun j hj => ?_, added, hentries, hadded⟩
        rcases hmarkers j hj with hj | ⟨m, hm, hmj⟩
        · rcases List.mem_append.1 hj with hj | hj
          · exact .inl (List.mem_append_left _ hj)
          · exact .inr ⟨_, List.mem_cons_self, (List.mem_singleton.1 hj).symm⟩
        · exact .inr ⟨m, List.mem_cons_of_mem _ hm, hmj⟩
      next harchive =>
        split at h
        next => cases h
        next e he =>
          obtain ⟨hset, hmarkers, added, hentries, hadded⟩ := ih h
          have hkept : ((name, value) :: ms).filter (!isMarker ·.1) =
              (name, value) :: ms.filter (!isMarker ·.1) :=
            List.filter_cons_of_pos (by simp [isMarker, hdescription, harchive])
          refine ⟨hset, fun j hj => ?_, (⟨name⟩, e) :: added, by simp [hentries], ?_⟩
          · exact (hmarkers j hj).imp_right fun ⟨m, hm, hmj⟩ => ⟨m, List.mem_cons_of_mem _ hm, hmj⟩
          · rw [ReadFrom, hkept]
            exact .cons ⟨rfl, he⟩ hadded

/-! ## Round trips -/

theorem names_markers_sublist (set : ManifestSet) :
    (set.markers.map (·.1)).Sublist [descriptionKey, archiveKey] := by
  rcases set with ⟨name, _ | d, _ | a, entries⟩ <;> simp [markers]

theorem nodup_allMembers {set : ManifestSet} (hdistinct : (set.entries.map (·.1.text)).Nodup)
    (hname : ∀ entry ∈ set.entries, entry.1.text ≠ descriptionKey ∧ entry.1.text ≠ archiveKey) :
    (set.allMembers.map (·.1)).Nodup := by
  have hentries : (set.entries.map entryMember).map (·.1) = set.entries.map (·.1.text) := by
    rw [List.map_map]
    rfl
  rw [allMembers, List.map_append, hentries]
  refine List.nodup_append.2 ⟨set.names_markers_sublist.nodup (by decide), hdistinct, ?_⟩
  rintro key hkey name hentry rfl
  obtain ⟨entry, he, rfl⟩ := List.mem_map.1 hentry
  have hmarker := set.names_markers_sublist.subset hkey
  simp [hname entry he] at hmarker

theorem filter_allMembers {set : ManifestSet}
    (hname : ∀ entry ∈ set.entries, entry.1.text ≠ descriptionKey ∧ entry.1.text ≠ archiveKey) :
    set.allMembers.filter (!isMarker ·.1) = set.entries.map entryMember := by
  have hmarkers : set.markers.filter (!isMarker ·.1) = [] := by
    refine List.filter_eq_nil_iff.2 fun m hm => ?_
    have hkey := set.names_markers_sublist.subset (List.mem_map_of_mem hm)
    simpa [isMarker, or_iff_not_imp_left] using hkey
  have hentries : (set.entries.map entryMember).filter (!isMarker ·.1) = set.entries.map entryMember := by
    refine List.filter_eq_self.2 fun m hm => ?_
    obtain ⟨entry, he, rfl⟩ := List.mem_map.1 hm
    have hmarker : isMarker (entryMember entry).1 = false := isMarker_eq_false_iff.2 (hname entry he)
    rw [hmarker]
    rfl
  rw [allMembers, List.filter_append, hmarkers, hentries, List.nil_append]

/-- A representable set is read back from its text. -/
theorem parse_text_of_representable {set : ManifestSet} (h : set.WellFormed)
    (hback : set.MarkersReadBack) (hrep : set.Representable) : parse set.name set.text = .ok set := by
  have hcollect := Json.collect_of_nodup (nodup_allMembers hrep.distinct hrep.notMarker)
  have hread : ∀ entry ∈ set.entries, FileEntry.ofJson entry.2.toJson = .ok entry.2 := fun entry he =>
    FileEntry.ofJson_toJson_eq_ok (h.groups entry he) (hrep.directives entry he)
  rw [parse_text_eq_ok_iff h hback, hcollect, allMembers, readMembers_append, readMembers_markers]
  exact readMembers_entries hrep.notMarker hread { set with entries := [] }

theorem entriesAgree_iff {as bs : List SourceEntry} : entriesAgree as bs = true ↔
    List.Forall₂ (fun a b => a.1.SamePlace b.1 ∧ a.2.agrees b.2 = true) as bs := by
  induction as generalizing bs with
  | nil => cases bs <;> simp [entriesAgree]
  | cons a as ih => cases bs <;> simp [entriesAgree, ih, and_assoc]

/-- A set that comes back with the same entries, up to the spelling of their paths, is representable. -/
theorem representable_of_parse_text {set set' : ManifestSet} (h : set.WellFormed)
    (hback : set.MarkersReadBack) (hparse : parse set.name set.text = .ok set')
    (hagree : entriesAgree set'.entries set.entries = true) : set.Representable := by
  have hagree := entriesAgree_iff.1 hagree
  obtain ⟨-, -, added, hentries, hadded⟩ := readMembers_spec ((parse_text_eq_ok_iff h hback set.name).1 hparse)
  rw [hentries, ManifestSet.new, List.nil_append] at hagree
  -- the names that are read are distinct, and they are names of entries
  have hnodup : (added.map (·.1.text)).Nodup := by
    rw [hadded.names_eq]
    exact (Json.nodup_collect _).filter _
  have hsubset : added.map (·.1.text) ⊆ set.entries.map (·.1.text) := by
    intro name hname
    rw [hadded.names_eq] at hname
    obtain ⟨hname, hmarker⟩ := List.mem_filter.1 hname
    obtain ⟨m, hm, rfl⟩ := List.mem_map.1 hname
    rcases marker_or_entry_of_mem_allMembers (Json.mem_of_mem_collect hm) with ⟨hm, -⟩ | ⟨entry, he, rfl⟩
    · simp [hm] at hmarker
    · exact List.mem_map_of_mem he
  -- as there are as many of them as entries, they are the names of the entries
  have hperm : (added.map (·.1.text)).Perm (set.entries.map (·.1.text)) :=
    (hnodup.subperm hsubset).perm_of_length_le (by simp [hagree.length_eq])
  have hdistinct := hperm.nodup_iff.1 hnodup
  have hnotMarker : ∀ entry ∈ set.entries,
      entry.1.text ≠ descriptionKey ∧ entry.1.text ≠ archiveKey := by
    intro entry he
    have hmem := hperm.mem_iff.2 (List.mem_map_of_mem he)
    rw [hadded.names_eq] at hmem
    exact isMarker_eq_false_iff.1 (by simpa using (List.mem_filter.1 hmem).2)
  refine ⟨hdistinct, hnotMarker, ?_⟩
  -- so every entry is read from its own text
  rw [ReadFrom, Json.collect_of_nodup (nodup_allMembers hdistinct hnotMarker),
    filter_allMembers hnotMarker, List.forall₂_map_left_iff] at hadded
  have hread : List.Forall₂ (fun entry (_ : SourceEntry) => (∀ d ∈ entry.2.flags, d.Representable) ∧ True)
      set.entries added := by
    refine hadded.mp (fun entry entry' hentry hflags => ?_)
      (List.Forall₂.flip (hagree.imp fun entry' entry h => FileEntry.flags_eq_of_agrees h.2))
    exact ⟨FileEntry.representable_of_ofJson_toJson hentry.2 hflags, trivial⟩
  exact ((List.forall₂_and_left _ _).1 hread).1

/-- Every set that was read is representable. -/
theorem representable_of_parse {name text : String} {set : ManifestSet} (h : parse name text = .ok set) :
    set.name = name ∧ set.WellFormed ∧ set.Representable := by
  obtain ⟨members, hmembers, hread⟩ := parse_eq_ok_iff.1 h
  obtain ⟨hname, hmarkers, added, hentries, hadded⟩ := readMembers_spec hread
  rw [ManifestSet.new, List.nil_append] at hentries
  subst hentries
  have hwithin : Json.Within Json.nesting (.object members) := Json.within_of_parse hmembers
  have hflags := hadded.read
  refine ⟨hname, ⟨fun entry he d hd => (hflags entry he d hd).1, fun j hj => ?_⟩,
    ⟨?_, fun entry he => ?_, fun entry he d hd => (hflags entry he d hd).2⟩⟩
  · rcases hmarkers j hj with hj | ⟨m, hm, rfl⟩
    · cases hj
    · exact hwithin.2 m hm
  · rw [hadded.names_eq]
    exact hwithin.1.filter _
  · have hmem := List.mem_map_of_mem (f := (·.1.text)) he
    rw [hadded.names_eq] at hmem
    exact isMarker_eq_false_iff.1 (by simpa using (List.mem_filter.1 hmem).2)

theorem entriesAgree_refl (entries : List SourceEntry) : entriesAgree entries entries = true :=
  entriesAgree_iff.2 (List.forall₂_same.2 fun entry _ => ⟨rfl, FileEntry.agrees_refl entry.2⟩)

/-- A set is read back from its text exactly when it is representable. It makes no difference whether it
has to come back as it is or only with the same entries, up to the spelling of their paths.

Every set that was read is representable, so that writing it changes nothing any more. -/
theorem roundTrip_iff_representable :
    (∀ set : ManifestSet, set.WellFormed → set.MarkersReadBack →
      (parse set.name set.text = .ok set ↔ set.Representable) ∧
      ((∃ set', parse set.name set.text = .ok set' ∧ entriesAgree set'.entries set.entries = true) ↔
        set.Representable)) ∧
    ∀ (name source : String) (set : ManifestSet), parse name source = .ok set →
      set.Representable ∧ (set.MarkersReadBack →
        parse name set.text = .ok set ∧ (parse name set.text).map text = .ok set.text) := by
  refine ⟨fun set h hback => ⟨⟨fun hparse => ?_, parse_text_of_representable h hback⟩,
    ⟨?_, fun hrep => ?_⟩⟩, fun name source set hparse => ?_⟩
  · exact representable_of_parse_text h hback hparse (entriesAgree_refl set.entries)
  · rintro ⟨set', hparse, hagree⟩
    exact representable_of_parse_text h hback hparse hagree
  · exact ⟨set, parse_text_of_representable h hback hrep, entriesAgree_refl set.entries⟩
  · obtain ⟨rfl, h, hrep⟩ := representable_of_parse hparse
    refine ⟨hrep, fun hback => ?_⟩
    rw [parse_text_of_representable h hback hrep]
    exact ⟨rfl, rfl⟩

/-! ## A small set -/

/-- Both markers, and two spellings of one path. -/
def sample : ManifestSet where
  name := "cpu"
  description := some (.string "CPU core")
  archive := some (.array [.double ⟨false, ⟨4503599627370496, -53⟩⟩, .integer (-1)])
  entries :=
    [(⟨"a.c"⟩, ⟨[⟨"a.h"⟩], [.options (.parse "!-m64"), .use "-fPIC", .raw "-Wall"], [⟨"include"⟩],
        ["make a.h"]⟩),
     (⟨"./a.c"⟩, ⟨[], [], [], []⟩)]

/-- A raw argument that looks like a directive. -/
def disguised : ManifestSet :=
  ⟨"cpu", none, none, [(⟨"a.c"⟩, ⟨[], [.raw "@use=-fPIC"], [], []⟩)]⟩

theorem sample_roundTrip :
    parse "cpu" sample.text = .ok sample ∧ (parse "cpu" sample.text).map text = .ok sample.text ∧
      parse "cpu" disguised.text ≠ .ok disguised := by
  have hsample : sample.WellFormed := by
    constructor
    · simp [sample, Directive.GroupRead]
    · simp [sample, markerValues, Json.Within, Json.nesting, Json.leastInteger, Json.integerBound]
  have hback : sample.MarkersReadBack := by
    have hhalf : Binary64.ReadsBack ⟨false, ⟨4503599627370496, -53⟩⟩ := by decide +kernel
    simp only [MarkersReadBack, sample, markerValues, Option.toList_some, List.singleton_append,
      List.forall_mem_cons]
    refine ⟨?_, ?_, List.forall_mem_nil _⟩
    · rintro x ⟨⟩
    · rintro x (_ | ⟨hj, hx⟩)
      simp only [List.mem_cons, List.not_mem_nil, or_false] at hj
      rcases hj with rfl | rfl <;> cases hx
      exact hhalf
  have hrep : sample.Representable := by
    constructor
    · decide
    · simp [sample, descriptionKey, archiveKey]
    · simp [sample, Directive.Representable]
  have hdisguised : disguised.WellFormed := by
    constructor
    · simp [disguised, Directive.GroupRead]
    · simp [disguised, markerValues]
  have hnone : disguised.MarkersReadBack := by
    simp [MarkersReadBack, disguised, markerValues]
  have hparse := ((roundTrip_iff_representable.1 sample hsample hback).1).2 hrep
  refine ⟨hparse, ((roundTrip_iff_representable.2 _ _ sample hparse).2 hback).2, fun h => ?_⟩
  have hrep := ((roundTrip_iff_representable.1 disguised hdisguised hnone).1).1 h
  exact hrep.directives _ List.mem_cons_self _ List.mem_cons_self rfl

end ManifestSet

end VariantBuild
