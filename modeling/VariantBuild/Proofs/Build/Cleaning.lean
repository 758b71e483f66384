import VariantBuild.Proofs.Build.Switching
import VariantBuild.Proofs.Disk.Removing
import VariantBuild.Proofs.Selection.Directed
/-!
# Cleaning the cache

Two things have to fit together that know nothing of each other: names of objects are put together from
digests and stems, and cleaning goes by the extension of what it finds in the directory. They do
(`ObjectKey.extension?_fileName`), whatever the stem looks like. So a directory that has been cleaned holds no
object of any source, and everything that is selected is compiled (`ObjectCache.cleaned_of_clean`).
-/

namespace VariantBuild

namespace Path

variable {name : String}

/-- The extension below a directory is that of the name. -/
theorem extension?_joinText (p : Path) (h : IsFileName name) :
    (p.joinText name).extension? = extension? ⟨name⟩ := by
  have hfile : (p.joinText name).fileName? = some name := by
    rw [fileName?_eq_some_iff, components_joinText p h, List.getLast?_concat]
  have hfile' : fileName? ⟨name⟩ = some name := by
    rw [fileName?_eq_some_iff, h.components_eq]
    rfl
  rw [extension?, extension?, hfile, hfile']

end Path

/-- The name of an object has the extension of objects, also if its stem has points. -/
theorem ObjectKey.extension?_fileName (k : ObjectKey) (h : Path.IsFileName k.fileName) :
    Path.extension? ⟨k.fileName⟩ = some objectExtension := by
  have hfile : Path.fileName? ⟨k.fileName⟩ = some k.fileName := by
    rw [Path.fileName?_eq_some_iff, h.components_eq]
    rfl
  obtain ⟨c, cs, hfront⟩ : ∃ c cs, k.fileName.toList.reverse = 'o' :: '.' :: c :: cs := by
    rw [toList_fileName, List.reverse_append]
    cases hfront : (k.directoryHash.toList ++
        '-' :: (k.stem.toList ++ '-' :: (Numeral.base36 k.flagId).toList)).reverse with
    | nil => simp at hfront
    | cons c cs => exact ⟨c, cs, rfl⟩
  rw [Path.extension?, hfile]
  simp [hfront, objectExtension]

namespace ObjectCache

variable {d d' : Disk} {w w' : World} {n : Nat} {ps : List Path} {directory : Path} {name : String}

/-! ## What cleaning does -/

/-- The objects that cleaning finds in a directory. -/
def objectsIn (d : Disk) (directory : Path) : List Path :=
  match d.list directory with
  | .ok names => (names.map directory.joinText).filter (isObject d)
  | .error _ => []

theorem run_removeAll_cons_iff {p : Path} : (removeAll (p :: ps)).run w = .ok n w' ↔
    ∃ d m, w.disk.remove p = .ok d ∧ (removeAll ps).run { w with disk := d } = .ok m w' ∧ n = m + 1 := by
  rw [removeAll, Activity.run_bind_eq_ok_iff]
  simp only [Activity.run_changeDisk_eq_ok_iff]
  constructor
  · rintro ⟨u, v, ⟨d, hd, rfl⟩, hrest⟩
    obtain ⟨m, v', htail, hcount⟩ := Activity.run_bind_eq_ok_iff.1 hrest
    cases hcount
    cases hremove : w.disk.remove p with
    | ok d' =>
      rw [hremove] at hd
      cases hd
      exact ⟨d, m, rfl, htail, rfl⟩
    | error e =>
      rw [hremove] at hd
      cases hd
  · rintro ⟨d, m, hd, htail, rfl⟩
    refine ⟨(), { w with disk := d }, ⟨d, ?_, rfl⟩, ?_⟩
    · rw [hd]
    · exact Activity.run_bind_eq_ok_iff.2 ⟨m, w', htail, rfl⟩

/-- Files are removed one after another, at different places, if nothing goes wrong. -/
theorem run_removeAll (h : (removeAll ps).run w = .ok n w') :
    w' = { w with disk := w'.disk } ∧ n = ps.length ∧ ∃ ls : List Location, ls.Nodup ∧
      List.Forall₂ (fun p l => w.disk.locate p = .ok l) ps ls ∧ Disk.Unlinks ls w.disk w'.disk := by
  induction ps generalizing w n with
  | nil =>
    cases h
    exact ⟨rfl, rfl, [], List.nodup_nil, .nil, .refl _⟩
  | cons p ps ih =>
    obtain ⟨d, m, hd, htail, rfl⟩ := run_removeAll_cons_iff.1 h
    obtain ⟨hworld, rfl, ls, hnodup, hlocate, hunlinks⟩ := ih htail
    obtain ⟨l, hl, hfirst⟩ := Disk.unlinks_of_remove hd
    obtain ⟨hnot, hall⟩ := hfirst.cons hunlinks
    refine ⟨hworld, rfl, l :: ls, List.nodup_cons.2 ⟨hnot, hnodup⟩, ?_, hall⟩
    -- the paths that follow lead where they led before the first file was removed
    exact .cons hl (hlocate.imp fun _ _ => hfirst.locate_before)

/-- Cleaning that succeeds removes what it finds in a directory that is listed, or nothing where the directory
is missing. -/
theorem run_clean_iff : (clean directory).run w = .ok n w' ↔
    ((∃ names, w.disk.list directory = .ok names) ∨ w.disk.list directory = .error .notFound) ∧
      (removeAll (objectsIn w.disk directory)).run w = .ok n w' := by
  rw [clean, Activity.run_bind_eq_ok_iff]
  simp only [Activity.run_ofDisk_eq_ok_iff, objectsIn]
  constructor
  · rintro ⟨paths, v, ⟨hpaths, hv⟩, hrun⟩
    subst hv
    cases hlist : v.disk.list directory with
    | ok names =>
      simp only [hlist] at hpaths
      cases hpaths
      exact ⟨.inl ⟨names, rfl⟩, hrun⟩
    | error e =>
      simp only [hlist] at hpaths
      split at hpaths
      next heq => cases heq
      next heq =>
        cases heq
        cases hpaths
        exact ⟨.inr rfl, hrun⟩
      next => cases hpaths
  · rintro ⟨⟨names, hlist⟩ | hlist, hrun⟩
    · simp only [hlist] at hrun ⊢
      exact ⟨_, w, ⟨rfl, rfl⟩, hrun⟩
    · simp only [hlist] at hrun ⊢
      exact ⟨_, w, ⟨rfl, rfl⟩, hrun⟩

/-- What cleaning finds can be looked up. -/
theorem exists_locate_of_mem_objectsIn {p : Path} (h : p ∈ objectsIn d directory) :
    ∃ l, d.locate p = .ok l := by
  rw [objectsIn] at h
  split at h
  next =>
    have hobject : isObject d p = true := (List.mem_filter.1 h).2
    have hfile : d.isFile p = true := (Bool.and_eq_true_iff.1 hobject).1
    rw [Disk.isFile] at hfile
    split at hfile
    next node hstat =>
      obtain ⟨l, hl, -⟩ := Disk.stat_eq_ok_iff.1 hstat
      exact ⟨l, hl⟩
    next => cases hfile
  next => cases h

/-- An object in a directory: a regular file directly inside, with the extension of objects, that can be looked
up. -/
def Holds (d : Disk) (directory : Path) (l : Location) : Prop :=
  ∃ m name contents t, d.locate directory = .ok m ∧ l = m ++ [name] ∧
    d.node? l = some (.file contents t) ∧ Path.extension? ⟨name⟩ = some ObjectKey.objectExtension ∧
    d.locate (directory.joinText name) = .ok l

/-- What cleaning finds in a directory are the objects in it. -/
theorem exists_objectsIn_iff (hempty : directory.text ≠ "") (hnamed : d.WellNamed) {l : Location} :
    (∃ p ∈ objectsIn d directory, d.locate p = .ok l) ↔ Holds d directory l := by
  have hname : ∀ m name n, d.node? (m ++ [name]) = some n → Path.IsFileName name := by
    intro m name n hn
    exact hnamed _ n hn name (by simp)
  constructor
  · rintro ⟨p, hp, hl⟩
    rw [objectsIn] at hp
    split at hp
    next names hlist =>
      obtain ⟨hmem, hobject⟩ := List.mem_filter.1 hp
      obtain ⟨name, hin, rfl⟩ := List.mem_map.1 hmem
      obtain ⟨m, t, hm, ht, rfl⟩ := Disk.list_eq_ok_iff.1 hlist
      obtain ⟨node, hnode⟩ := Disk.mem_names_iff.1 hin
      have hfit := hname m name node hnode
      obtain ⟨m', hm', rfl⟩ := Disk.exists_locate_of_locate_joinText hempty hfit hl
      rw [hm] at hm'
      cases hm'
      obtain ⟨hfile, hextension⟩ : d.isFile (directory.joinText name) = true ∧
          (directory.joinText name).extension? = some ObjectKey.objectExtension := by
        simpa [isObject] using hobject
      rw [Path.extension?_joinText directory hfit] at hextension
      rw [Disk.isFile, Disk.stat_eq_ok_iff.2 ⟨_, hl, hnode⟩] at hfile
      cases node with
      | directory t => cases hfile
      | file contents t => exact ⟨m, name, contents, t, hm, rfl, hnode, hextension, hl⟩
    next => cases hp
  · rintro ⟨m, name, contents, t, hm, rfl, hnode, hextension, hl⟩
    have hfit := hname m name _ hnode
    -- the file can be looked up below the directory, so the directory is one
    obtain ⟨u, hu⟩ : ∃ u, d.node? m = some (.directory u) := by
      rw [Disk.locate_joinText d hempty hfit (Disk.locate_eq_ok_iff.1 hl).1, hm] at hl
      change d.walk m [name] = _ at hl
      rw [Disk.walk] at hl
      split at hl
      · cases hl
      · cases hl
      next u hu => exact ⟨u, hu⟩
    refine ⟨directory.joinText name, ?_, hl⟩
    rw [objectsIn, Disk.list_eq_ok_iff.2 ⟨m, u, hm, hu, rfl⟩]
    apply List.mem_filter.2
    constructor
    · exact List.mem_map.2 ⟨name, Disk.mem_names_iff.2 ⟨_, hnode⟩, rfl⟩
    · rw [isObject, Path.extension?_joinText directory hfit, hextension, Disk.isFile,
        Disk.stat_eq_ok_iff.2 ⟨_, hl, hnode⟩]
      rfl

/-- No directory directly inside looks like an object. -/
def NoObjectDirectory (d : Disk) (directory : Path) : Prop :=
  ∀ m name t, d.locate directory = .ok m → d.node? (m ++ [name]) = some (.directory t) →
    Path.extension? ⟨name⟩ ≠ some ObjectKey.objectExtension

/-! ## What is left -/

/-- A directory can be listed and holds no object, or it is missing. -/
structure Empty (d : Disk) (directory : Path) : Prop where
  listed : (∃ names, d.list directory = .ok names) ∨ d.list directory = .error .notFound
  named : d.WellNamed
  noDirectory : NoObjectDirectory d directory
  noObject : ∀ l, ¬ Holds d directory l

/-- Cleaning empties the directory of exactly the objects in it. -/
theorem exists_unlinks_of_clean (hempty : directory.text ≠ "") (hnamed : w.disk.WellNamed)
    (hplain : NoObjectDirectory w.disk directory) (h : (clean directory).run w = .ok n w') :
    w' = { w with disk := w'.disk } ∧ Empty w'.disk directory ∧
      ∃ ls : List Location, ls.Nodup ∧ ls.length = n ∧ (∀ l, l ∈ ls ↔ Holds w.disk directory l) ∧
        Disk.Unlinks ls w.disk w'.disk := by
  obtain ⟨hlisted, hrun⟩ := run_clean_iff.1 h
  obtain ⟨hworld, rfl, ls, hnodup, hlocate, hunlinks⟩ := run_removeAll hrun
  have hmem : ∀ l, l ∈ ls ↔ Holds w.disk directory l := by
    intro l
    rw [← exists_objectsIn_iff hempty hnamed]
    constructor
    · intro hl
      obtain ⟨p, hp, hsame⟩ := exists_mem_of_forall₂ hlocate hl
      exact ⟨p, hp, hsame⟩
    · rintro ⟨p, hp, hl⟩
      obtain ⟨l', hl', hsame⟩ := exists_mem_of_forall₂ hlocate.flip hp
      obtain rfl : l' = l := Except.ok.inj (hsame.symm.trans hl)
      exact hl'
  refine ⟨hworld, ?_, ls, hnodup, hlocate.length_eq.symm, hmem, hunlinks⟩
  constructor
  · -- a directory that was listed is still one; one that was missing was left alone
    rcases hlisted with ⟨names, hnames⟩ | hmissing
    · obtain ⟨m, t, hm, ht, -⟩ := Disk.list_eq_ok_iff.1 hnames
      obtain ⟨u, hu⟩ := hunlinks.directory ht
      exact .inl ⟨_, Disk.list_eq_ok_iff.2 ⟨m, u, hunlinks.locate_eq hm, hu, rfl⟩⟩
    · rw [objectsIn, hmissing] at hrun
      cases hrun
      exact .inr hmissing
  · intro l node hnode
    obtain ⟨node', hnode'⟩ := hunlinks.exists_before hnode
    exact hnamed l node' hnode'
  · intro m name t hm ht
    obtain ⟨u, hu⟩ := hunlinks.directory_before ht
    exact hplain m name u (hunlinks.locate_before hm) hu
  · rintro l ⟨m, name, contents, t, hm, rfl, hnode, hextension, hl⟩
    obtain ⟨hnot, hbefore⟩ := hunlinks.file_before hnode
    apply hnot
    apply (hmem _).2
    exact ⟨m, name, contents, t, hunlinks.locate_before hm, rfl, hbefore, hextension,
      hunlinks.locate_before hl⟩

/-- Below an empty directory nothing with the extension of objects is found: it is missing, or cannot be looked
up for its name. -/
theorem Empty.stat_cases (h : Empty d directory) (hempty : directory.text ≠ "")
    (hname : Path.IsFileName name)
    (hextension : Path.extension? ⟨name⟩ = some ObjectKey.objectExtension) :
    d.stat (directory.joinText name) = .error .notFound ∨
      ∃ e, d.stat (directory.joinText name) = .error e ∧ Disk.Unfit directory name e := by
  rcases Disk.stat_joinText_cases hempty hname h.listed with
    ⟨m, node, hm, hnode, hlocate, -⟩ | hmissing | hunfit
  · exfalso
    cases node with
    | directory t => exact h.noDirectory m name t hm hnode hextension
    | file contents t => exact h.noObject _ ⟨m, name, contents, t, hm, rfl, hnode, hextension, hlocate⟩
  · exact .inl hmissing
  · exact .inr hunfit

/-- So cleaning it once more finds nothing. -/
theorem Empty.run_clean (h : Empty w.disk directory) (hempty : directory.text ≠ "") :
    (clean directory).run w = .ok 0 w := by
  have hnone : objectsIn w.disk directory = [] := by
    rw [List.eq_nil_iff_forall_not_mem]
    intro p hp
    obtain ⟨l, hl⟩ := exists_locate_of_mem_objectsIn hp
    exact h.noObject l ((exists_objectsIn_iff hempty h.named).1 ⟨p, hp, hl⟩)
  apply run_clean_iff.2
  refine ⟨h.listed, ?_⟩
  rw [hnone]
  rfl

variable {c : ObjectCache}

/-- No object of a cache in an empty directory is found. -/
theorem Empty.stat_objectPath_cases (h : Empty d c.directory) (hempty : c.directory.text ≠ "")
    (source : Path) (f : FlagSet) :
    d.stat (c.objectPath source f) = .error .notFound ∨
      ∃ e, d.stat (c.objectPath source f) = .error e ∧
        Disk.Unfit c.directory (c.deriver.derive source f).fileName e := by
  have hname := c.deriver.isFileName_fileName source f
  rw [objectPath]
  exact h.stat_cases hempty hname (ObjectKey.extension?_fileName _ hname)

end ObjectCache

/-! ## What is selected afterwards -/

namespace Selector

variable {s : Selector} {d : Disk} {f g settled : FlagSet} {entry : SourceEntry}
  {entries : List SourceEntry} {givenUp : List FlagSet}

/-- The selection in which every object is missing. -/
def allMissing (s : Selector) (f : FlagSet) (entries : List SourceEntry) : Selection :=
  let admitted := entries.filter (·.2.admitted f)
  ⟨admitted.map (·.1), admitted.map fun e => s.task f e e.2.rawArguments .missingObject⟩

/-- Whether the object of an entry could not be looked up in the cache directory, if that were empty. -/
def UnfitObject (s : Selector) (f : FlagSet) (entry : SourceEntry) (e : SystemError) : Prop :=
  Disk.Unfit s.cache.directory (s.cache.deriver.derive entry.1 f).fileName e

/-- With an empty cache every object is missing, or cannot be looked up for its name. -/
theorem staleness_of_empty (h : ObjectCache.Empty d s.cache.directory)
    (hempty : s.cache.directory.text ≠ "") (f : FlagSet) (entry : SourceEntry) :
    s.staleness d f entry = .ok (some .missingObject) ∨
      ∃ e, s.staleness d f entry = .error (.io (s.cache.objectPath entry.1 f) e) ∧
        s.UnfitObject f entry e := by
  rcases h.stat_objectPath_cases hempty entry.1 f with hstat | ⟨e, hstat, hunfit⟩
  · have hmodified : d.modified (s.cache.objectPath entry.1 f) = .error .notFound := by
      rw [Disk.modified, hstat]
      rfl
    left
    rw [staleness, Staleness.check, hmodified]
  · have hmodified : d.modified (s.cache.objectPath entry.1 f) = .error e := by
      rw [Disk.modified, hstat]
      rfl
    refine .inr ⟨e, ?_, hunfit⟩
    rw [staleness, Staleness.check, hmodified]
    split
    next heq =>
      cases heq
      exact absurd rfl hunfit.ne_notFound
    next heq =>
      cases heq
      rfl
    next heq => cases heq

theorem selectionUnder_eq_allMissing
    (h : ∀ entry ∈ entries, entry.2.admitted f = true →
      s.staleness d f entry = .ok (some .missingObject)) :
    s.selectionUnder d f entries = s.allMissing f entries := by
  have htasks : (entries.filter (·.2.admitted f)).filterMap (s.compileTask? d f) =
      (entries.filter (·.2.admitted f)).map fun e => s.task f e e.2.rawArguments .missingObject := by
    rw [← List.filterMap_eq_map]
    apply List.filterMap_congr
    intro entry hmem
    obtain ⟨hentry, hadmitted⟩ := List.mem_filter.1 hmem
    rw [compileTask?, h entry hentry hadmitted]
    rfl
  rw [selectionUnder, allMissing, htasks]

/-- A resolution with an empty cache that succeeds compiles every file that it selects. -/
theorem selection_of_empty (h : ObjectCache.Empty d s.cache.directory)
    (hempty : s.cache.directory.text ≠ "") {sets : List ManifestSet} {r : Resolution}
    (hr : s.resolve d sets f = .ok r) :
    r.selection = s.allMissing r.flags (ManifestSet.allEntries sets) := by
  obtain ⟨added, -, hsettles, hflags, -⟩ := resolve_eq_ok_iff.1 hr
  have hsettled := hsettles.isSettled hflags
  rw [(attempt_eq_stable_iff.1 hsettled.fixpoint).2]
  apply selectionUnder_eq_allMissing
  intro entry hentry hadmitted
  obtain ⟨reason, hreason⟩ := hsettled.queried entry hentry hadmitted
  rcases staleness_of_empty h hempty r.flags entry with hmissing | ⟨e, herror, -⟩
  · exact hmissing
  · rw [hreason] at herror
    cases herror

/-- One that fails at a file fails at an object that cannot be looked up for its name, of an entry that some
pass admits. -/
theorem exists_unfit_of_empty (h : ObjectCache.Empty d s.cache.directory)
    (hempty : s.cache.directory.text ≠ "") {sets : List ManifestSet} {p : Path} {cause : SystemError}
    (hr : s.resolve d sets f = .error (.io p cause)) :
    ∃ added g, s.Restarts d (ManifestSet.allEntries sets) f added g ∧
      ∃ entry ∈ ManifestSet.allEntries sets, entry.2.admitted g.pruneWidths = true ∧
        p = s.cache.objectPath entry.1 g.pruneWidths ∧ s.UnfitObject g.pruneWidths entry cause := by
  rcases s.settle_cases d (ManifestSet.allEntries sets) (ManifestSet.useTokens sets).length 0 f with
    ⟨added, selection, -, -, heq⟩ | ⟨added, g, -, -, heq⟩ | ⟨added, g, e, -, hrun, hfail, heq⟩
  · rw [resolve, heq] at hr
    cases hr
  · rw [resolve, heq] at hr
    cases hr
  · rw [resolve, heq] at hr
    cases hr
    refine ⟨added, g, hrun, ?_⟩
    rcases s.attempt_cases d g.pruneWidths (ManifestSet.allEntries sets) with
      ⟨-, ha⟩ | ⟨t, -, ha⟩ | ⟨entry, e, hfind, hadmitted, hs, ha⟩
    · rw [ha] at hfail
      cases hfail
    · rw [ha] at hfail
      cases hfail
    · rw [ha] at hfail
      cases hfail
      refine ⟨entry, List.mem_of_find?_eq_some hfind, hadmitted, ?_⟩
      rcases staleness_of_empty h hempty g.pruneWidths entry with hmissing | ⟨e, herror, hunfit⟩
      · rw [hs] at hmissing
        cases hmissing
      · rw [hs] at herror
        cases herror
        exact ⟨rfl, hunfit⟩

/-- Where the directives settle and the objects of all entries that their passes admit can be looked up,
resolution with an empty cache succeeds. -/
theorem resolve_of_empty (h : ObjectCache.Empty d s.cache.directory)
    (hempty : s.cache.directory.text ≠ "") {sets : List ManifestSet}
    (hpasses : directivePasses (ManifestSet.allEntries sets) (ManifestSet.useTokens sets).length f =
      some (givenUp, settled))
    (hfit : ∀ g ∈ givenUp ++ [settled], ∀ entry ∈ ManifestSet.allEntries sets,
      entry.2.admitted g = true → ∀ e, ¬ s.UnfitObject g entry e) :
    s.resolve d sets f =
      .ok ⟨settled, s.allMissing settled (ManifestSet.allEntries sets), givenUp.length⟩ := by
  have hmissing : ∀ g ∈ givenUp ++ [settled], ∀ entry ∈ ManifestSet.allEntries sets,
      entry.2.admitted g = true → s.staleness d g entry = .ok (some .missingObject) := by
    intro g hg entry hentry hadmitted
    rcases staleness_of_empty h hempty g entry with hmissing | ⟨e, -, hunfit⟩
    · exact hmissing
    · exact absurd hunfit (hfit g hg entry hentry hadmitted e)
  have hnone : s.firstFault? d (ManifestSet.allEntries sets) (givenUp ++ [settled]) = none := by
    rw [firstFault?, List.findSome?_eq_none_iff]
    intro g hg
    cases hfault : s.passFault? d (ManifestSet.allEntries sets) g with
    | none => rfl
    | some e =>
      obtain ⟨entry, hentry, hadmitted, hs, -⟩ := exists_admitted_of_passFault? hfault
      rw [hmissing g hg entry hentry hadmitted] at hs
      cases hs
  rw [resolve_eq_of_directivePasses hpasses, hnone]
  dsimp only
  rw [selectionUnder_eq_allMissing (hmissing settled (by simp))]

end Selector

namespace ObjectCache

variable {directory : Path} {n : Nat} {w w' : World}

/-- What cleaning a directory comes to that removes `n` files. -/
structure Cleaned (directory : Path) (n : Nat) (w w' : World) : Prop where
  /-- Nothing but the disk is changed, -/
  world : w' = { w with disk := w'.disk }
  /-- and of the disk nothing but the objects in the directory: these, all of them, are removed. -/
  removed : ∃ ls : List Location, ls.Nodup ∧ ls.length = n ∧ (∀ l, l ∈ ls ↔ Holds w.disk directory l) ∧
    Disk.Unlinks ls w.disk w'.disk
  /-- Cleaning once more removes nothing. -/
  again : (clean directory).run w' = .ok 0 w'
  /-- No object exists that any cache in the directory has a path for, whatever the source and the flags. -/
  missing : ∀ c : ObjectCache, c.directory = directory → ∀ source f,
    w'.disk.contains (c.objectPath source f) = false
  /-- A resolution that succeeds compiles every file that it selects, for a missing object. -/
  selection : ∀ s : Selector, s.cache.directory = directory → ∀ sets f r,
    s.resolve w'.disk sets f = .ok r → r.selection = s.allMissing r.flags (ManifestSet.allEntries sets)
  /-- One that fails at a file fails at the object of an entry that some pass admits, because its name is too
  long or holds a NUL. -/
  refused : ∀ s : Selector, s.cache.directory = directory → ∀ sets f p cause,
    s.resolve w'.disk sets f = .error (.io p cause) →
      ∃ added g, s.Restarts w'.disk (ManifestSet.allEntries sets) f added g ∧
        ∃ entry ∈ ManifestSet.allEntries sets, entry.2.admitted g.pruneWidths = true ∧
          p = s.cache.objectPath entry.1 g.pruneWidths ∧ s.UnfitObject g.pruneWidths entry cause
  /-- Where the directives settle and no pass admits such an entry, resolution succeeds. -/
  resolves : ∀ s : Selector, s.cache.directory = directory → ∀ sets f givenUp settled,
    Selector.directivePasses (ManifestSet.allEntries sets) (ManifestSet.useTokens sets).length f =
      some (givenUp, settled) →
    (∀ g ∈ givenUp ++ [settled], ∀ entry ∈ ManifestSet.allEntries sets, entry.2.admitted g = true →
      ∀ e, ¬ s.UnfitObject g entry e) →
    s.resolve w'.disk sets f =
      .ok ⟨settled, s.allMissing settled (ManifestSet.allEntries sets), givenUp.length⟩

/-- Cleaning forgets every object and nothing else, in any directory but the one with the empty path, in which
no directory looks like an object. -/
theorem cleaned_of_clean (directory : Path) (n : Nat) (w w' : World) (hempty : directory.text ≠ "")
    (hnamed : w.disk.WellNamed) (hplain : NoObjectDirectory w.disk directory)
    (h : (clean directory).run w = .ok n w') : Cleaned directory n w w' := by
  obtain ⟨hworld, hclean, hremoved⟩ := exists_unlinks_of_clean hempty hnamed hplain h
  constructor
  · exact hworld
  · exact hremoved
  · exact hclean.run_clean hempty
  · rintro c rfl source f
    rw [Disk.contains]
    rcases hclean.stat_objectPath_cases hempty source f with hstat | ⟨e, hstat, -⟩
    · rw [hstat]
      rfl
    · rw [hstat]
      rfl
  · rintro s rfl sets f r hr
    exact Selector.selection_of_empty hclean hempty hr
  · rintro s rfl sets f p cause hr
    exact Selector.exists_unfit_of_empty hclean hempty hr
  · rintro s rfl sets f givenUp settled hpasses hfit
    exact Selector.resolve_of_empty hclean hempty hpasses hfit

/-! ## A small cache -/

open Builder

theorem noObjectDirectory_of_nodes {d : Disk} (directory : Path)
    (h : ∀ e ∈ d.nodes, e.2.isFile = false → ∀ name ∈ e.1.getLast?,
      Path.extension? ⟨name⟩ ≠ some ObjectKey.objectExtension) : NoObjectDirectory d directory := by
  intro m name t _ hnode
  obtain ⟨entry, hfind, hdirectory⟩ := Option.map_eq_some_iff.1 hnode
  have hl : entry.1 = m ++ [name] := by simpa using List.find?_some hfind
  apply h entry (List.mem_of_find?_eq_some hfind)
  · rw [hdirectory]
    rfl
  · rw [hl, List.getLast?_concat]
    rfl

namespace Cleaned.Sample

/-- A cache directory with one object, and a text and a directory of older objects beside it. -/
def disk : Disk :=
  ⟨[([], .directory 0), (["build"], .directory 0), (["build", "objs"], .directory 0),
    (["main.c"], .file .empty 5),
    (["build", "objs", "16g4etw-a.b-1.o"], .file .empty 7),
    (["build", "objs", "notes.txt"], .file .empty 7),
    (["build", "objs", "old"], .directory 0),
    (["build", "objs", "old", "16g4etw-main-1.o"], .file .empty 3)], [], 9⟩

/-- What is left of it. -/
def cleanDisk : Disk :=
  ⟨[(["build", "objs"], .directory 9), ([], .directory 0), (["build"], .directory 0),
    (["main.c"], .file .empty 5),
    (["build", "objs", "notes.txt"], .file .empty 7),
    (["build", "objs", "old"], .directory 0),
    (["build", "objs", "old", "16g4etw-main-1.o"], .file .empty 3)], [], 9⟩

end Cleaned.Sample

/-- One object is removed from the sample. -/
theorem sample_cleaned :
    (⟨"build/objs"⟩ : Path).text ≠ "" ∧ Cleaned.Sample.disk.WellNamed ∧
      NoObjectDirectory Cleaned.Sample.disk ⟨"build/objs"⟩ ∧
      (clean ⟨"build/objs"⟩).run (.ofDisk Cleaned.Sample.disk) =
        .ok 1 (.ofDisk Cleaned.Sample.cleanDisk) ∧
      Cleaned ⟨"build/objs"⟩ 1 (.ofDisk Cleaned.Sample.disk) (.ofDisk Cleaned.Sample.cleanDisk) := by
  have hempty : (⟨"build/objs"⟩ : Path).text ≠ "" := by decide
  have hnamed : Cleaned.Sample.disk.WellNamed := by
    apply Disk.wellNamed_of_nodes
    intro entry hentry name hname
    constructor
    · revert entry name
      decide
    · revert entry name
      decide
    · revert entry name
      decide
  have hplain : NoObjectDirectory Cleaned.Sample.disk ⟨"build/objs"⟩ := by
    apply noObjectDirectory_of_nodes
    decide
  have hrun : (clean ⟨"build/objs"⟩).run (.ofDisk Cleaned.Sample.disk) =
      .ok 1 (.ofDisk Cleaned.Sample.cleanDisk) := by
    have hfound : objectsIn Cleaned.Sample.disk ⟨"build/objs"⟩ = [⟨"build/objs/16g4etw-a.b-1.o"⟩] := by
      decide +kernel
    apply run_clean_iff.2
    constructor
    · exact .inl ⟨_, rfl⟩
    · change (removeAll (objectsIn Cleaned.Sample.disk ⟨"build/objs"⟩)).run _ = _
      rw [hfound]
      exact run_removeAll_cons_iff.2 ⟨Cleaned.Sample.cleanDisk, 0, rfl, rfl, rfl⟩
  exact ⟨hempty, hnamed, hplain, hrun, cleaned_of_clean _ _ _ _ hempty hnamed hplain hrun⟩

namespace Cleaned.Sample

/-- The working directory is the cache directory, and holds the object of `main.c`. -/
def unnamed : Disk :=
  ⟨[([], .directory 0), (["main.c"], .file .empty 5),
    (["16g4etw-main-r0nri5xinhts.o"], .file .empty 7)], [], 9⟩

/-- A source whose object has a name of more than 255 bytes. -/
def longFile : SourceEntry :=
  Selector.Sample.file (Switched.named 250 ++ ".c") []

/-- An empty cache directory, and that source. -/
def beside : Disk :=
  ⟨[([], .directory 0), (["p"], .directory 0), (["p", "build"], .directory 0),
    (["p", "build", "objs"], .directory 0), (["p", longFile.1.text], .file .empty 5)], [], 9⟩

theorem staleness_longFile (f : FlagSet) : Switched.selector.staleness beside f longFile =
    .error (.io (Switched.selector.cache.objectPath longFile.1 f) .nameTooLong) := by
  have hfits : Switched.Fits (Switched.named 250) := Switched.fits_named (by decide) (by decide)
  have hstem : KeyDeriver.stem longFile.1 = Switched.named 250 := Switched.stem_source hfits
  have hlong : Disk.greatestNameSize < (KeyDeriver.default.derive longFile.1 f).fileName.utf8ByteSize := by
    have hbound := (KeyDeriver.size_fileName_bounds KeyDeriver.length_features_default longFile.1 f).1
    rw [hstem, Switched.size_named] at hbound
    exact Nat.lt_of_lt_of_le (by decide) hbound
  have hrefusal : Disk.refusal? (Switched.selector.cache.objectPath longFile.1 f) = none :=
    Switched.refusal?_source hfits f
  have hmodified : beside.modified (Switched.selector.cache.objectPath longFile.1 f) =
      .error .nameTooLong := by
    rw [objectPath] at hrefusal ⊢
    exact Disk.modified_joinText_of_tooLong (by decide) (KeyDeriver.isFileName_fileName _ _ _) hrefusal rfl
      hlong
  rw [Selector.staleness, Staleness.check, hmodified]

end Cleaned.Sample

/-- Cleaning the directory with the empty path forgets nothing, since no directory has that name; and after a
cleaning that succeeds resolution can still fail at an object. -/
theorem sample_not_forgotten :
    ((clean ⟨""⟩).run (.ofDisk Cleaned.Sample.unnamed) = .ok 0 (.ofDisk Cleaned.Sample.unnamed) ∧
      NoObjectDirectory Cleaned.Sample.unnamed ⟨""⟩ ∧
      Cleaned.Sample.unnamed.contains
        ((ObjectCache.mk ⟨""⟩ .default).objectPath ⟨"main.c"⟩ (Selector.Sample.flags [])) = true) ∧
    ((clean Switched.selector.cache.directory).run (.ofDisk Cleaned.Sample.beside) =
        .ok 0 (.ofDisk Cleaned.Sample.beside) ∧
      NoObjectDirectory Cleaned.Sample.beside Switched.selector.cache.directory ∧
      Selector.directivePasses [Cleaned.Sample.longFile] 0 (Selector.Sample.flags []) =
        some ([], Selector.Sample.flags []) ∧
      Switched.selector.resolve Cleaned.Sample.beside
          [Selector.Sample.manifest [Cleaned.Sample.longFile]] (Selector.Sample.flags []) =
        .error (.io (Switched.selector.cache.objectPath Cleaned.Sample.longFile.1
          (Selector.Sample.flags [])) .nameTooLong)) := by
  refine ⟨⟨?_, ?_, ?_⟩, ?_, ?_, ?_, ?_⟩
  · apply run_clean_iff.2
    exact ⟨.inr rfl, rfl⟩
  · apply noObjectDirectory_of_nodes
    decide
  · decide +kernel
  · apply run_clean_iff.2
    exact ⟨.inl ⟨_, rfl⟩, rfl⟩
  · apply noObjectDirectory_of_nodes
    decide
  · decide +kernel
  · have hpruned : (Selector.Sample.flags []).pruneWidths = Selector.Sample.flags [] := by decide
    have hentries : ManifestSet.allEntries [Selector.Sample.manifest [Cleaned.Sample.longFile]] =
        [Cleaned.Sample.longFile] := rfl
    have hjudge : judge (Selector.Sample.flags []) Cleaned.Sample.longFile.2.flags = .admitted [] := rfl
    have hattempt : Switched.selector.attempt Cleaned.Sample.beside (Selector.Sample.flags [])
        [Cleaned.Sample.longFile] = .error (.io (Switched.selector.cache.objectPath
          Cleaned.Sample.longFile.1 (Selector.Sample.flags [])) .nameTooLong) := by
      rw [Selector.attempt, hjudge, Cleaned.Sample.staleness_longFile]
    rw [Selector.resolve, hentries, Selector.settle, hpruned, hattempt]

end ObjectCache

end VariantBuild
