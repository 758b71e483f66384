import VariantBuild.Proofs.Build.Calls
import VariantBuild.Proofs.Disk.Reading
import VariantBuild.Proofs.Manifest.Saving
/-!
# Rescans

A rescan asks for the make rule of every entry before it writes anything. So it is all or nothing: the first
scan that fails is the error, and the disk is as it was; if all scans succeed, every set is written with new
dependencies and nothing else in it is changed.

The scanner is any whose answers depend on the source and the include paths alone (`Scanner.Answers`). Then
what a rescan finds can be computed without the world (`answeredSet`), and it is not changed by a rescan, which
keeps sources and include paths: a second rescan writes what is there already (`rescanWith_cases`).
-/

namespace VariantBuild

/-- What a scanner says of a source with its include paths. -/
abbrev Answer := Path → List Path → Except BuildError String

/-- A scanner that looks at nothing but its arguments and leaves the disk alone. -/
def Scanner.Answers (scan : Scanner) (answer : Answer) : Prop :=
  ∀ source includePaths, (scan source includePaths).Yields (answer source includePaths)

namespace Dependency

/-- An entry with the dependencies that its make rule lists, and all else as it was. -/
def EntryRescanned (answer : Answer) (entry entry' : SourceEntry) : Prop :=
  ∃ output, answer entry.1 entry.2.includePaths = .ok output ∧
    entry' = (entry.1, { entry.2 with dependencies := dependencies output })

/-- A set with all its entries rescanned, in order. -/
def SetRescanned (answer : Answer) (set set' : ManifestSet) : Prop :=
  ∃ entries, List.Forall₂ (EntryRescanned answer) set.entries entries ∧ set' = { set with entries }

/-! ## Without the world -/

/-- What a scan makes of an entry. -/
def answeredEntry (answer : Answer) (entry : SourceEntry) : Except BuildError SourceEntry := do
  let output ← answer entry.1 entry.2.includePaths
  return (entry.1, { entry.2 with dependencies := dependencies output })

/-- What the scans of its entries make of a set. -/
def answeredSet (answer : Answer) (set : ManifestSet) : Except BuildError ManifestSet := do
  return { set with entries := ← set.entries.mapM (answeredEntry answer) }

variable {scan : Scanner} {answer : Answer} {set set' : ManifestSet} {sets sets' : List ManifestSet}
  {entry entry' : SourceEntry} {e : BuildError}

theorem yields_rescanEntry (h : scan.Answers answer) (entry : SourceEntry) :
    (rescanEntry scan entry).Yields (answeredEntry answer entry) := by
  refine .bind (h _ _) fun output => ?_
  -- a warning makes no difference to the answer
  cases unexpectedFirst? entry.1 output with
  | none => exact .pure _
  | some first => exact .notify_bind (.pure _)

theorem yields_rescanSet (h : scan.Answers answer) (set : ManifestSet) :
    (rescanSet scan set).Yields (answeredSet answer set) :=
  .notify_bind (.bind (.mapM (yields_rescanEntry h) set.entries) fun _ => .pure _)

theorem answeredEntry_eq_ok_iff : answeredEntry answer entry = .ok entry' ↔ EntryRescanned answer entry entry' := by
  rw [answeredEntry, except_bind_eq_ok_iff]
  refine exists_congr fun output => and_congr_right fun _ => ?_
  exact ⟨fun h => (Except.ok.inj h).symm, fun h => congrArg Except.ok h.symm⟩

theorem answeredEntry_eq_error_iff :
    answeredEntry answer entry = .error e ↔ answer entry.1 entry.2.includePaths = .error e := by
  rw [answeredEntry, except_bind_eq_error_iff]
  refine or_iff_left ?_
  rintro ⟨output, -, h⟩
  cases h

theorem answeredSet_eq_ok_iff : answeredSet answer set = .ok set' ↔ SetRescanned answer set set' := by
  rw [answeredSet, except_bind_eq_ok_iff]
  simp only [mapM_eq_ok_iff, answeredEntry_eq_ok_iff]
  refine exists_congr fun entries => and_congr_right fun _ => ?_
  exact ⟨fun h => (Except.ok.inj h).symm, fun h => congrArg Except.ok h.symm⟩

theorem answeredSet_eq_error_iff :
    answeredSet answer set = .error e ↔ set.entries.mapM (answeredEntry answer) = .error e := by
  rw [answeredSet, except_bind_eq_error_iff]
  refine or_iff_left ?_
  rintro ⟨entries, -, h⟩
  cases h

/-- If the sets cannot all be rescanned, the first entry whose scan fails says why. -/
theorem exists_first_failure (h : sets.mapM (answeredSet answer) = .error e) :
    ∃ before entry after, ManifestSet.allEntries sets = before ++ entry :: after ∧
      (∀ b ∈ before, ∃ output, answer b.1 b.2.includePaths = .ok output) ∧
      answer entry.1 entry.2.includePaths = .error e := by
  have hanswered : ∀ {entries rescanned : List SourceEntry},
      List.Forall₂ (EntryRescanned answer) entries rescanned →
        ∀ b ∈ entries, ∃ output, answer b.1 b.2.includePaths = .ok output := by
    intro entries rescanned hentries b hb
    obtain ⟨b', -, output, houtput, -⟩ := exists_mem_of_forall₂ hentries.flip hb
    exact ⟨output, houtput⟩
  obtain ⟨front, set, back, rfl, hfront, hset⟩ := mapM_eq_error_iff.1 h
  obtain ⟨before, entry, after, hentries, hbefore, hentry⟩ :=
    mapM_eq_error_iff.1 (answeredSet_eq_error_iff.1 hset)
  refine ⟨front.flatMap (·.entries) ++ before, entry, after ++ back.flatMap (·.entries), ?_, ?_,
    answeredEntry_eq_error_iff.1 hentry⟩
  · simp [ManifestSet.allEntries, hentries]
  · intro b hb
    rcases List.mem_append.1 hb with hb | hb
    · obtain ⟨s, hs, hb⟩ := List.mem_flatMap.1 hb
      obtain ⟨s', hs'⟩ := hfront s hs
      obtain ⟨entries, hentries, -⟩ := answeredSet_eq_ok_iff.1 hs'
      exact hanswered hentries b hb
    · obtain ⟨b', hb'⟩ := hbefore b hb
      obtain ⟨output, houtput, -⟩ := answeredEntry_eq_ok_iff.1 hb'
      exact ⟨output, houtput⟩

/-! ## What a rescan keeps -/

namespace SetRescanned

theorem exists_entry (h : SetRescanned answer set set') (he : entry' ∈ set'.entries) :
    ∃ entry ∈ set.entries, EntryRescanned answer entry entry' := by
  obtain ⟨entries, hentries, rfl⟩ := h
  exact exists_mem_of_forall₂ hentries he

theorem wellFormed (h : SetRescanned answer set set') (hset : set.WellFormed) : set'.WellFormed := by
  refine ⟨fun entry' he => ?_, ?_⟩
  · obtain ⟨entry, hentry, output, -, rfl⟩ := h.exists_entry he
    exact hset.groups entry hentry
  · obtain ⟨entries, -, rfl⟩ := h
    exact hset.markers

theorem markersReadBack (h : SetRescanned answer set set') (hset : set.MarkersReadBack) :
    set'.MarkersReadBack := by
  obtain ⟨entries, -, rfl⟩ := h
  exact hset

theorem representable (h : SetRescanned answer set set') (hset : set.Representable) :
    set'.Representable := by
  refine ⟨?_, fun entry' he => ?_, fun entry' he => ?_⟩
  · obtain ⟨entries, hentries, rfl⟩ := h
    have hnames : entries.map (·.1.text) = set.entries.map (·.1.text) := by
      rw [← List.forall₂_eq_eq_eq, List.forall₂_map_left_iff, List.forall₂_map_right_iff]
      refine hentries.flip.imp fun entry' entry h => ?_
      obtain ⟨output, -, rfl⟩ := h
      rfl
    exact hnames ▸ hset.distinct
  · obtain ⟨entry, hentry, output, -, rfl⟩ := h.exists_entry he
    exact hset.notMarker entry hentry
  · obtain ⟨entry, hentry, output, -, rfl⟩ := h.exists_entry he
    exact hset.directives entry hentry

/-- Nothing new is found in a set that has been rescanned. -/
theorem again (h : SetRescanned answer set set') : SetRescanned answer set' set' := by
  obtain ⟨entries, hentries, rfl⟩ := h
  refine ⟨entries, List.forall₂_same.2 fun entry' he => ?_, rfl⟩
  obtain ⟨entry, -, output, houtput, rfl⟩ := exists_mem_of_forall₂ hentries he
  exact ⟨output, houtput, rfl⟩

theorem length_entries (h : SetRescanned answer set set') : set'.entries.length = set.entries.length := by
  obtain ⟨entries, hentries, rfl⟩ := h
  exact hentries.length_eq.symm

/-- A set and the same set under another name are rescanned alike, so they are written alike. -/
theorem text_eq {name : String} {renamed : ManifestSet} (h : SetRescanned answer set set')
    (h' : SetRescanned answer { set with name } renamed) : set'.text = renamed.text := by
  have hrename : answeredSet answer { set with name } = .ok { set' with name } := by
    obtain ⟨entries, hentries, rfl⟩ := h
    exact answeredSet_eq_ok_iff.2 ⟨entries, hentries, rfl⟩
  rw [answeredSet_eq_ok_iff.2 h', Except.ok.injEq] at hrename
  rw [hrename]
  rfl

end SetRescanned

/-! ## Compilers as scanners -/

/-- The answer of a compiler whose replies depend on its command alone. -/
def compilerAnswer (reply : Command → Except SystemError Outcome) (program : String) (directory : Path) :
    Answer := fun source includePaths =>
  let c := command program directory source includePaths
  if c.texts.any holdsNul then .error (.spawn program .nulInCommand)
  else match reply c with
    | .error e => .error (.spawn program e)
    | .ok outcome =>
      if outcome.exit.isSuccess then .ok (Text.ofBytes outcome.output)
      else .error (.dependencyScan source (Text.trim (Text.ofBytes outcome.errors)))

/-- A compiler is a scanner if it always replies in the same way to the same command and changes no file. -/
theorem answers_compilerScanner {host : Host} {reply : Command → Except SystemError Outcome}
    (h : ∀ c d, (∃ e, reply c = .error e ∧ host.run c d = .error e) ∨
      ∃ outcome d', reply c = .ok outcome ∧ host.run c d = .ok (outcome, d') ∧ d.Waits d')
    (program : String) (directory : Path) :
    (compilerScanner host program directory).Answers (compilerAnswer reply program directory) := by
  intro source includePaths w
  by_cases hnul : (command program directory source includePaths).texts.any holdsNul = true
  · refine ⟨w, ?_, .refl w.disk⟩
    have hstart : (Activity.start host (command program directory source includePaths)
        (BuildError.spawn program)).perform w = (.error (.spawn program .nulInCommand), w) := by
      simp only [Activity.perform, EStateM.run, Activity.start, World.start, if_pos hnul]
    rw [compilerAnswer, if_pos hnul]
    exact Activity.perform_bind_of_error hstart
  · rw [compilerAnswer, if_neg hnul]
    rcases h (command program directory source includePaths) w.disk with
      ⟨e, hreply, hrun⟩ | ⟨outcome, d', hreply, hrun, hwaits⟩
    · refine ⟨w, ?_, .refl w.disk⟩
      have hstart : (Activity.start host (command program directory source includePaths)
          (BuildError.spawn program)).perform w = (.error (.spawn program e), w) := by
        simp only [Activity.perform, EStateM.run, Activity.start, World.start, if_neg hnul, hrun]
      rw [hreply]
      exact Activity.perform_bind_of_error hstart
    · refine ⟨{ w with disk := d', started := w.started ++ [command program directory source includePaths] },
        ?_, hwaits⟩
      have hstart : (Activity.start host (command program directory source includePaths)
          (BuildError.spawn program)).perform w = (.ok outcome, { w with
            disk := d', started := w.started ++ [command program directory source includePaths] }) := by
        simp only [Activity.perform, EStateM.run, Activity.start, World.start, if_neg hnul, hrun]
      rw [hreply, compilerScanner, Activity.perform_bind_of_ok hstart]
      by_cases hsuccess : outcome.exit.isSuccess = true
      · simp only [if_pos hsuccess]
        rfl
      · simp only [if_neg hsuccess]
        rfl

end Dependency

/-! ## A store that is rescanned -/

namespace ManifestStore

open Dependency

variable {answer : Answer} {d d' u : Disk} {directory : Path} {store : ManifestStore}
  {set : ManifestSet} {sets : List ManifestSet} {l : Location}

theorem Saved.of_waits (hwaits : d.Waits u) (h : Saved directory sets u d') : Saved directory sets d d' := by
  have hshape := hwaits.sameShape
  refine ⟨hshape.trans h.shape, fun set hset l hl => ?_, fun l hl => ?_⟩
  · obtain ⟨last, hlast, hlastAt, hnode⟩ := h.written set hset l ((hshape.locate_eq _).trans hl)
    exact ⟨last, hlast, (hshape.locate_eq _).symm.trans hlastAt, hnode⟩
  · rw [h.others l fun set hset hset' => hl set hset ((hshape.locate_eq _).symm.trans hset'), hwaits.node?_eq]

theorem Saved.waits (h : Saved directory sets d u) (hwaits : u.Waits d') : Saved directory sets d d' := by
  refine ⟨h.shape.trans hwaits.sameShape, fun set hset l hl => ?_, fun l hl => ?_⟩
  · rw [hwaits.node?_eq]
    exact h.written set hset l hl
  · rw [hwaits.node?_eq]
    exact h.others l hl

theorem load_of_waits (hwaits : d.Waits d') (hload : load d directory = .ok store) :
    load d' directory = .ok store := by
  simp only [load_eq_ok_iff, loadSet_eq_ok_iff, hwaits.readText_eq] at hload ⊢
  exact hload

variable (hload : load d directory = .ok store)
  (hsets : List.Forall₂ (SetRescanned answer) store.sets sets)
include hload hsets

theorem exists_origin (hset : set ∈ sets) : ∃ original ∈ store.sets, SetRescanned answer original set ∧
    set.name = original.name ∧ loadSet d directory original.name = .ok original := by
  obtain ⟨original, horiginal, hrescanned⟩ := exists_mem_of_forall₂ hsets hset
  refine ⟨original, horiginal, hrescanned, ?_, (load_eq_ok_iff.1 hload).2.2 original horiginal⟩
  obtain ⟨entries, -, rfl⟩ := hrescanned
  rfl

/-- The file of every set is there: it was loaded from there. -/
theorem exists_file_of_rescanned (hset : set ∈ sets) : ∃ l contents t,
    d.locate (setFile directory set.name) = .ok l ∧ d.node? l = some (.file contents t) := by
  obtain ⟨original, -, -, hname, hloaded⟩ := exists_origin hload hsets hset
  obtain ⟨text, htext, -⟩ := loadSet_eq_ok_iff.1 hloaded
  obtain ⟨contents, t, hstat, -⟩ := Disk.readText_eq_ok_iff.1 htext
  obtain ⟨l, hl, hnode⟩ := Disk.stat_eq_ok_iff.1 hstat
  exact ⟨l, contents, t, hname ▸ hl, hnode⟩

/-- Rescanned sets of one place have one text. -/
theorem text_eq_of_locate {set' : ManifestSet} (hset : set ∈ sets) (hset' : set' ∈ sets)
    (hl : d.locate (setFile directory set.name) = .ok l)
    (hl' : d.locate (setFile directory set'.name) = .ok l) : set.text = set'.text := by
  obtain ⟨original, -, hrescanned, hname, hloaded⟩ := exists_origin hload hsets hset
  obtain ⟨original', -, hrescanned', hname', hloaded'⟩ := exists_origin hload hsets hset'
  rw [hname] at hl
  rw [hname'] at hl'
  rw [eq_rename_of_locate hloaded hloaded' hl hl'] at hrescanned'
  exact hrescanned.text_eq hrescanned'

/-- A rescanned store that was saved is loaded again. -/
theorem Saved.load_eq (h : Saved directory sets d d') (hback : ∀ set ∈ store.sets, set.MarkersReadBack) :
    load d' directory = .ok ⟨directory, sets⟩ := by
  obtain ⟨-, ⟨text, htext, hnames⟩, -⟩ := load_eq_ok_iff.1 hload
  refine load_eq_ok_iff.2 ⟨rfl, ⟨text, h.readText_index_eq.trans htext, ?_⟩, fun set hset => ?_⟩
  · have hmap : store.sets.map (·.name) = sets.map (·.name) := by
      rw [← List.forall₂_eq_eq_eq, List.forall₂_map_left_iff, List.forall₂_map_right_iff]
      refine hsets.imp fun original set hrescanned => ?_
      obtain ⟨entries, -, rfl⟩ := hrescanned
      rfl
    exact hmap ▸ hnames
  · obtain ⟨original, horiginal, hrescanned, -, hloaded⟩ := exists_origin hload hsets hset
    obtain ⟨source, -, hparse⟩ := loadSet_eq_ok_iff.1 hloaded
    obtain ⟨-, hformed, hrepresentable⟩ := ManifestSet.representable_of_parse hparse
    obtain ⟨l, -, -, hl, -⟩ := exists_file_of_rescanned hload hsets hset
    obtain ⟨t, hfile⟩ := h.exists_file
      (fun s hs s' hs' m hm hm' => text_eq_of_locate hload hsets hs hs' hm hm') hset hl
    have hstat := Disk.stat_eq_ok_iff.2 ⟨l, (h.shape.locate_eq _).trans hl, hfile⟩
    exact loadSet_eq_ok_iff.2 ⟨set.text, Disk.readText_of_stat hstat,
      ManifestSet.parse_text_of_representable (hrescanned.wellFormed hformed)
        (hrescanned.markersReadBack (hback original horiginal)) (hrescanned.representable hrepresentable)⟩

/-- A store that is saved as it was loaded keeps every byte. -/
theorem Saved.sameContents_of_again (h : Saved directory sets d d') {d'' : Disk}
    (h' : Saved directory sets d' d'') : d'.SameContents d'' := by
  intro l
  by_cases hplace : ∃ set ∈ sets, d.locate (setFile directory set.name) = .ok l
  · obtain ⟨set, hset, hl⟩ := hplace
    obtain ⟨t, ht⟩ := h.exists_file
      (fun s hs s' hs' m hm hm' => text_eq_of_locate hload hsets hs hs' hm hm') hset hl
    obtain ⟨t', ht'⟩ := h'.exists_file
      (fun s hs s' hs' m hm hm' => text_eq_of_locate hload hsets hs hs'
        ((h.shape.locate_eq _).symm.trans hm) ((h.shape.locate_eq _).symm.trans hm')) hset
      ((h.shape.locate_eq _).trans hl)
    rw [ht, ht']
    rfl
  · rw [h'.others l fun set hset hl => hplace ⟨set, hset, (h.shape.locate_eq _).symm.trans hl⟩]

end ManifestStore

/-! ## All or nothing -/

namespace Project

open Dependency ManifestStore

/-- What a rescan that succeeds leaves of a store: sets in which nothing but dependencies is new, and a disk
with no other change. -/
structure Rescanned (answer : Answer) (p : Project) (store : ManifestStore) (sets : List ManifestSet)
    (d d' : Disk) : Prop where
  rescanned : List.Forall₂ (SetRescanned answer) store.sets sets
  reload : load d' p.manifestDirectory = .ok ⟨p.manifestDirectory, sets⟩
  here : d'.here = d.here
  index : ∀ l, d.locate (p.manifestDirectory.joinText indexName) = .ok l → d'.node? l = d.node? l
  others : ∀ l, (∀ set ∈ store.sets, d.locate (setFile p.manifestDirectory set.name) ≠ .ok l) →
    d'.node? l = d.node? l

variable {scan : Scanner} {answer : Answer} {p : Project} {w v : World} {store : ManifestStore}
  {sets : List ManifestSet} {e : BuildError}

theorem perform_rescanWith_of_error (hscan : scan.Answers answer)
    (hload : load w.disk p.manifestDirectory = .ok store)
    (hfail : store.sets.mapM (answeredSet answer) = .error e) :
    ∃ v, (p.rescanWith scan).perform w = (.error e, v) ∧ w.disk.Waits v.disk := by
  obtain ⟨v, hv, hwaits⟩ := Activity.Yields.mapM (yields_rescanSet hscan) store.sets w
  rw [hfail] at hv
  refine ⟨v, ?_, hwaits⟩
  exact (Activity.perform_bind_of_ok (Activity.perform_ofDisk_of_ok hload)).trans
    (Activity.perform_bind_of_error hv)

theorem perform_rescanWith_of_ok (hscan : scan.Answers answer)
    (hload : load w.disk p.manifestDirectory = .ok store)
    (hok : store.sets.mapM (answeredSet answer) = .ok sets) :
    ∃ v, (p.rescanWith scan).perform w = (.ok (ManifestSet.allEntries sets).length, v) ∧
      Saved p.manifestDirectory sets w.disk v.disk := by
  have hsets : List.Forall₂ (SetRescanned answer) store.sets sets :=
    (mapM_eq_ok_iff.1 hok).imp fun _ _ => answeredSet_eq_ok_iff.1
  obtain ⟨u, hu, hwaits⟩ := Activity.Yields.mapM (yields_rescanSet hscan) store.sets w
  rw [hok] at hu
  have hdirectory : store.directory = p.manifestDirectory := (load_eq_ok_iff.1 hload).1
  obtain ⟨v, hv, hsaved⟩ := perform_save p.manifestDirectory sets u fun set hset =>
    exists_file_of_rescanned (load_of_waits hwaits hload) hsets hset
  refine ⟨v.notify (.rescanned (ManifestSet.allEntries sets).length), ?_, hsaved.of_waits hwaits⟩
  -- all scans first, then all writes, then the count
  have hstore : (save { store with sets }).perform u = (.ok (), v) := by rw [hdirectory]; exact hv
  exact (Activity.perform_bind_of_ok (Activity.perform_ofDisk_of_ok hload)).trans
    ((Activity.perform_bind_of_ok hu).trans (Activity.perform_bind_of_ok hstore))

theorem length_allEntries (hsets : List.Forall₂ (SetRescanned answer) store.sets sets) :
    (ManifestSet.allEntries sets).length = (ManifestSet.allEntries store.sets).length := by
  rw [ManifestSet.allEntries, ManifestSet.allEntries, List.length_flatMap, List.length_flatMap]
  congr 1
  rw [← List.forall₂_eq_eq_eq, List.forall₂_map_left_iff, List.forall₂_map_right_iff]
  exact hsets.flip.imp fun _ _ => SetRescanned.length_entries

/-- A rescan fails with the first entry whose scan fails, and then nothing is written; or all scans succeed, all
entries are counted, nothing but dependencies is new in the manifests, and a second rescan counts the same
and changes no byte of any file. -/
theorem rescanWith_cases (scan : Scanner) (answer : Answer) (hscan : scan.Answers answer) (p : Project)
    (w : World) (store : ManifestStore) (hload : load w.disk p.manifestDirectory = .ok store)
    (hback : ∀ set ∈ store.sets, set.MarkersReadBack) :
    (∃ before entry after e v, ManifestSet.allEntries store.sets = before ++ entry :: after ∧
      (∀ b ∈ before, ∃ output, answer b.1 b.2.includePaths = .ok output) ∧
      answer entry.1 entry.2.includePaths = .error e ∧
      (p.rescanWith scan).perform w = (.error e, v) ∧ w.disk.Waits v.disk) ∨
    ((∀ entry ∈ ManifestSet.allEntries store.sets, ∃ output,
        answer entry.1 entry.2.includePaths = .ok output) ∧
      ∃ sets v, (p.rescanWith scan).perform w = (.ok (ManifestSet.allEntries store.sets).length, v) ∧
        Rescanned answer p store sets w.disk v.disk ∧
        ∀ w₁ : World, v.disk.Waits w₁.disk → ∃ v₁,
          (p.rescanWith scan).perform w₁ = (.ok (ManifestSet.allEntries store.sets).length, v₁) ∧
          w₁.disk.SameContents v₁.disk) := by
  cases hresult : store.sets.mapM (answeredSet answer) with
  | error e =>
    obtain ⟨before, entry, after, hentries, hbefore, hentry⟩ := exists_first_failure hresult
    obtain ⟨v, hv, hwaits⟩ := perform_rescanWith_of_error hscan hload hresult
    exact .inl ⟨before, entry, after, e, v, hentries, hbefore, hentry, hv, hwaits⟩
  | ok sets =>
    have hsets : List.Forall₂ (SetRescanned answer) store.sets sets :=
      (mapM_eq_ok_iff.1 hresult).imp fun _ _ => answeredSet_eq_ok_iff.1
    obtain ⟨v, hv, hsaved⟩ := perform_rescanWith_of_ok hscan hload hresult
    have hreload := hsaved.load_eq hload hsets hback
    have hplaces : ∀ set ∈ sets, ∃ original ∈ store.sets, set.name = original.name := by
      intro set hset
      obtain ⟨original, horiginal, -, hname, -⟩ := exists_origin hload hsets hset
      exact ⟨original, horiginal, hname⟩
    refine .inr ⟨fun entry he => ?_, sets, v, ?_, ⟨hsets, hreload, hsaved.shape.here, fun l hl => ?_,
      fun l hl => ?_⟩, fun w₁ hw₁ => ?_⟩
    · obtain ⟨set, hset, he⟩ := List.mem_flatMap.1 he
      obtain ⟨set', -, entries, hentries, -⟩ := exists_mem_of_forall₂ hsets.flip hset
      obtain ⟨entry', -, output, houtput, -⟩ := exists_mem_of_forall₂ hentries.flip he
      exact ⟨output, houtput⟩
    · rw [hv, length_allEntries hsets]
    · exact hsaved.others l fun set _ hset => locate_index_ne hset hl
    · refine hsaved.others l fun set hset => ?_
      obtain ⟨original, horiginal, hname⟩ := hplaces set hset
      rw [hname]
      exact hl original horiginal
    · -- what was found once is found again, and written to the same places
      have hagain : sets.mapM (answeredSet answer) = .ok sets := by
        rw [mapM_eq_ok_iff]
        refine List.forall₂_same.2 fun set hset => ?_
        obtain ⟨original, -, hrescanned, -, -⟩ := exists_origin hload hsets hset
        exact answeredSet_eq_ok_iff.2 hrescanned.again
      obtain ⟨v₁, hv₁, hsaved₁⟩ := perform_rescanWith_of_ok hscan (load_of_waits hw₁ hreload) hagain
      refine ⟨v₁, ?_, (hsaved.waits hw₁).sameContents_of_again hload hsets hsaved₁⟩
      rw [hv₁, length_allEntries hsets]

/-! ## A small project -/

namespace Sample

/-- A project at `/p`. -/
def project : Project :=
  .new ⟨"/p"⟩

/-- Three names for one file: a name that comes twice, and another spelling. -/
def before : Disk :=
  ⟨[([], .directory 0), (["p"], .directory 0), (["p", "build"], .directory 0),
    (["p", "build", "files.json"], .file "[\"core\", \"./core\", \"core\"]".toUTF8 1),
    (["p", "build", "core-files.json"], .file
      "\x7b\"description\": \"CPU\", \"a.c\": \x7b\"dependencies\": [\"old.h\"]\x7d\x7d".toUTF8 1)], [], 9⟩

/-- Every source includes the same header. -/
def reply : Command → Except SystemError Outcome :=
  fun _ => .ok ⟨.code 0, "a.o: a.c all.h".toUTF8.toList, []⟩

/-- A compiler that takes some time and does nothing but reply. -/
def tools : Host where
  run c d := (reply c).map (·, { d with clock := d.clock + 1 })
  order _ n := List.range n
  order_perm := Host.perm_queue

/-- All scans of the one source find the header, and no marker is anything but a string. -/
def plain (store : ManifestStore) : Bool :=
  (ManifestSet.allEntries store.sets).length == 3 &&
  (ManifestSet.allEntries store.sets).all (fun entry => entry.1 == ⟨"a.c"⟩ &&
    match compilerAnswer reply defaultDepCc ⟨"/p"⟩ entry.1 entry.2.includePaths with
    | .ok output => dependencies output == [⟨"all.h"⟩]
    | .error _ => false) &&
  store.sets.all fun set => set.markerValues.all fun j => match j with
    | .string _ => true
    | _ => false

end Sample

/-- The sample has three entries, all of them in one file, and all of them receive the header in place of the one
that they had. -/
theorem sample_rescanWith : ∃ store,
    load Sample.before Sample.project.manifestDirectory = .ok store ∧
    (∀ set ∈ store.sets, set.MarkersReadBack) ∧
    (compilerScanner Sample.tools defaultDepCc ⟨"/p"⟩).Answers
      (compilerAnswer Sample.reply defaultDepCc ⟨"/p"⟩) ∧
    ∃ sets v, (Sample.project.rescanWith (compilerScanner Sample.tools defaultDepCc ⟨"/p"⟩)).perform
        (.ofDisk Sample.before) = (.ok 3, v) ∧
      Rescanned (compilerAnswer Sample.reply defaultDepCc ⟨"/p"⟩) Sample.project store sets Sample.before
        v.disk ∧
      ∀ entry ∈ ManifestSet.allEntries sets,
        entry.1 = ⟨"a.c"⟩ ∧ entry.2.dependencies = [⟨"all.h"⟩] := by
  have hcheck : (match load Sample.before Sample.project.manifestDirectory with
      | .ok store => Sample.plain store
      | .error _ => false) = true := by decide +kernel
  cases hload : load Sample.before Sample.project.manifestDirectory with
  | error e =>
    rw [hload] at hcheck
    cases hcheck
  | ok store =>
    rw [hload] at hcheck
    simp only [Sample.plain, Bool.and_eq_true, beq_iff_eq, List.all_eq_true] at hcheck
    obtain ⟨⟨hlength, hanswers⟩, hmarkers⟩ := hcheck
    have hback : ∀ set ∈ store.sets, set.MarkersReadBack := by
      intro set hset j hj
      have hstring := hmarkers set hset j hj
      cases j with
      | string s => rintro x ⟨⟩
      | _ => cases hstring
    have hscan : (compilerScanner Sample.tools defaultDepCc ⟨"/p"⟩).Answers
        (compilerAnswer Sample.reply defaultDepCc ⟨"/p"⟩) :=
      answers_compilerScanner (fun c d => .inr ⟨_, _, rfl, rfl, _, rfl⟩) _ _
    refine ⟨store, rfl, hback, hscan, ?_⟩
    rcases rescanWith_cases _ _ hscan Sample.project (.ofDisk Sample.before) store hload hback with
      ⟨before, entry, after, e, v, hentries, -, hentry, -, -⟩ | ⟨-, sets, v, hv, hrescanned, -⟩
    · have hfound := (hanswers entry (by rw [hentries]; simp)).2
      rw [hentry] at hfound
      cases hfound
    · rw [hlength] at hv
      refine ⟨sets, v, hv, hrescanned, fun entry' he => ?_⟩
      obtain ⟨set', hset', hentry'⟩ := List.mem_flatMap.1 he
      obtain ⟨set, hset, hrescan⟩ := exists_mem_of_forall₂ hrescanned.rescanned hset'
      obtain ⟨entry, hentry, output, houtput, rfl⟩ := hrescan.exists_entry hentry'
      obtain ⟨hsource, hfound⟩ := hanswers entry (List.mem_flatMap.2 ⟨set, hset, hentry⟩)
      rw [houtput] at hfound
      exact ⟨hsource, beq_iff_eq.1 hfound⟩

end Project

end VariantBuild
