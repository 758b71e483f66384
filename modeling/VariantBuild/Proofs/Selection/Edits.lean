import VariantBuild.Proofs.Disk.Shape
import VariantBuild.Proofs.ObjectKey.Placement
import VariantBuild.Proofs.Selection.Replay
/-!
# What edits make stale

Nothing was left to compile, and then some files were edited: each carries a later time than every object,
and nothing else has changed (`Selector.Edits`). An object that was fresh is stale now exactly if its source
was edited or one of its dependencies, and the first of them in the order of the check gives the reason
(`Staleness.editReason?`).

No edit keeps a file from being queried, so no attempt breaks, not even one that was given up for a missing
flag and looked at objects that nothing links. So all restarts happen as before, and what is compiled can be
read off the edited places (`resolve_after_edits`).
-/

namespace VariantBuild

/-- What is at some places has been edited, at a time that `Late` holds of; everything else is as it was. -/
structure Disk.Edited (d d' : Disk) (places : List Location) (Late : Time → Prop) : Prop where
  here : d'.here = d.here
  edited : ∀ l ∈ places, ∃ n n', d.node? l = some n ∧ d'.node? l = some n' ∧
    n'.isFile = n.isFile ∧ Late n'.modified
  others : ∀ l, l ∉ places → d'.node? l = d.node? l

/-- Why an object that was fresh is stale after edits at some places, if it is. -/
def Staleness.editReason? (d : Disk) (places : List Location) (source : Path)
    (dependencies : List Path) : Option StaleReason :=
  if d.leadsInto places source then some .sourceNewer
  else (dependencies.find? (d.leadsInto places)).map .dependencyNewer

variable {d d' : Disk} {places : List Location} {Late : Time → Prop} {p source object : Path}
  {dependencies : List Path} {objectTime : Time} {reason : Option StaleReason}

/-! ## One query -/

namespace Disk.Edited

theorem sameShape (h : d.Edited d' places Late) : d.SameShape d' := by
  refine ⟨h.here, fun l => ?_⟩
  by_cases hl : l ∈ places
  · obtain ⟨n, n', hn, hn', hkind, -⟩ := h.edited l hl
    rw [hn, hn', Option.map_some, Option.map_some, hkind]
  · rw [h.others l hl]

/-- A path that leads elsewhere names what it named. -/
theorem modified_eq (h : d.Edited d' places Late) (hp : d.leadsInto places p = false) :
    d'.modified p = d.modified p := by
  rw [modified, modified, h.sameShape.stat_eq fun l hl => h.others l (notMem_of_leadsInto_eq_false hp hl)]

/-- What was edited was there, and is there with a late time. -/
theorem modified_of_leadsInto (h : d.Edited d' places Late) (hp : d.leadsInto places p = true) :
    (∃ t, d.modified p = .ok t) ∧ ∃ t, d'.modified p = .ok t ∧ Late t := by
  obtain ⟨l, hl, hlocate⟩ := leadsInto_eq_true_iff.1 hp
  obtain ⟨n, n', hn, hn', -, hlate⟩ := h.edited l hl
  have hlocate' : d'.locate p = .ok l := (h.sameShape.locate_eq p).trans hlocate
  refine ⟨⟨n.modified, ?_⟩, n'.modified, ?_, hlate⟩
  · exact except_map_eq_ok_iff.2 ⟨n, stat_eq_ok_iff.2 ⟨l, hlocate, hn⟩, rfl⟩
  · exact except_map_eq_ok_iff.2 ⟨n', stat_eq_ok_iff.2 ⟨l, hlocate', hn'⟩, rfl⟩

end Disk.Edited

/-! ## One check -/

namespace Staleness

/-- A dependency that could be queried can still be queried, as far as the check gets. -/
theorem exists_checkDependencies_of_edited (h : d.Edited d' places Late)
    (hlate : ∀ t, Late t → objectTime < t)
    (hcheck : checkDependencies d objectTime dependencies = .ok reason) :
    ∃ reason', checkDependencies d' objectTime dependencies = .ok reason' := by
  induction dependencies with
  | nil => exact ⟨none, rfl⟩
  | cons q qs ih =>
    rw [checkDependencies] at hcheck ⊢
    by_cases hq : d.leadsInto places q = true
    · -- the check ends at an edited dependency, whatever comes behind it
      obtain ⟨-, t, ht, hlate'⟩ := h.modified_of_leadsInto hq
      simp only [ht, if_pos (hlate t hlate')]
      exact ⟨_, rfl⟩
    · rw [h.modified_eq (Bool.eq_false_iff.2 hq)]
      split at hcheck
      next t ht =>
        split at hcheck
        next hnewer =>
          rw [if_pos hnewer]
          exact ⟨_, rfl⟩
        next hnewer =>
          rw [if_neg hnewer]
          exact ih hcheck
      next => exact ⟨_, rfl⟩
      next => cases hcheck

/-- Where all dependencies were in order, the first edited one gives the reason. -/
theorem checkDependencies_of_edited (h : d.Edited d' places Late)
    (hlate : ∀ t, Late t → objectTime < t)
    (hcheck : checkDependencies d objectTime dependencies = .ok none) :
    checkDependencies d' objectTime dependencies =
      .ok ((dependencies.find? (d.leadsInto places)).map .dependencyNewer) := by
  induction dependencies with
  | nil => rfl
  | cons q qs ih =>
    rw [checkDependencies] at hcheck ⊢
    by_cases hq : d.leadsInto places q = true
    · obtain ⟨-, t, ht, hlate'⟩ := h.modified_of_leadsInto hq
      rw [List.find?_cons_of_pos hq]
      simp only [ht, if_pos (hlate t hlate'), Option.map_some]
    · rw [h.modified_eq (Bool.eq_false_iff.2 hq), List.find?_cons_of_neg hq]
      split at hcheck
      next t ht =>
        split at hcheck
        next => cases hcheck
        next hnewer =>
          rw [if_neg hnewer]
          exact ih hcheck
      next => cases hcheck
      next => cases hcheck

variable (h : d.Edited d' places Late) (hobject : d.leadsInto places object = false)
  (hlate : ∀ u t, d.modified object = .ok u → Late t → u < t)
include h hobject hlate

/-- A check that succeeded still succeeds. -/
theorem exists_check_of_edited (hcheck : check d source object dependencies = .ok reason) :
    ∃ reason', check d' source object dependencies = .ok reason' := by
  rw [check] at hcheck ⊢
  rw [h.modified_eq hobject]
  split at hcheck
  next => exact ⟨_, rfl⟩
  next => cases hcheck
  next objectTime hobjectTime =>
    have hlate' := fun t => hlate objectTime t hobjectTime
    by_cases hsource : d.leadsInto places source = true
    · obtain ⟨-, t, ht, hnew⟩ := h.modified_of_leadsInto hsource
      simp only [ht, if_pos (hlate' t hnew)]
      exact ⟨_, rfl⟩
    · rw [h.modified_eq (Bool.eq_false_iff.2 hsource)]
      split at hcheck
      next => cases hcheck
      next sourceTime _ =>
        split at hcheck
        next hnewer =>
          rw [if_pos hnewer]
          exact ⟨_, rfl⟩
        next hnewer =>
          rw [if_neg hnewer]
          exact exists_checkDependencies_of_edited h hlate' hcheck

/-- A fresh object is stale after edits exactly for the reason that they give. -/
theorem check_of_edited (hcheck : check d source object dependencies = .ok none) :
    check d' source object dependencies = .ok (editReason? d places source dependencies) := by
  rw [check] at hcheck ⊢
  rw [h.modified_eq hobject, editReason?]
  split at hcheck
  next => cases hcheck
  next => cases hcheck
  next objectTime hobjectTime =>
    have hlate' := fun t => hlate objectTime t hobjectTime
    by_cases hsource : d.leadsInto places source = true
    · obtain ⟨-, t, ht, hnew⟩ := h.modified_of_leadsInto hsource
      simp only [ht, if_pos (hlate' t hnew), if_pos hsource]
    · rw [h.modified_eq (Bool.eq_false_iff.2 hsource), if_neg hsource]
      split at hcheck
      next => cases hcheck
      next sourceTime _ =>
        split at hcheck
        next => cases hcheck
        next hnewer =>
          rw [if_neg hnewer]
          exact checkDependencies_of_edited h hlate' hcheck

end Staleness

/-! ## All entries -/

namespace Selector

/-- Files have been edited since the objects of some entries were made: each carries a later time than
every such object, under any flags, and none of them is one. -/
structure Edits (s : Selector) (entries : List SourceEntry) (places : List Location) (d d' : Disk) :
    Prop where
  edited : d.Edited d' places fun t => ∀ entry ∈ entries, ∀ g u,
    d.modified (s.cache.objectPath entry.1 g) = .ok u → u < t
  notObjects : ∀ entry ∈ entries, ∀ g, d.leadsInto places (s.cache.objectPath entry.1 g) = false

/-- The task for an entry whose object was fresh, if edits made it stale. -/
def editTask? (s : Selector) (d : Disk) (places : List Location) (f : FlagSet) (entry : SourceEntry) :
    Option CompileTask :=
  (Staleness.editReason? d places (s.root.join entry.1) (entry.2.dependencies.map s.root.join)).map
    (s.task f entry entry.2.rawArguments)

variable {s : Selector} {f : FlagSet} {entry : SourceEntry} {entries : List SourceEntry} {e : BuildError}

/-- No attempt breaks for an edit, under whatever flags. -/
theorem Edits.not_breaks (h : s.Edits entries places d d') : ¬ s.Breaks d d' f entries e := by
  rintro ⟨entry, he, -, ⟨reason, hreason⟩, hfail⟩
  obtain ⟨reason', hreason'⟩ := Staleness.exists_check_of_edited h.edited (h.notObjects entry he f)
    (fun u _ hu hlate => hlate entry he f u hu) hreason
  rw [staleness, hreason'] at hfail
  cases hfail

theorem Edits.staleness_eq (h : s.Edits entries places d d') (he : entry ∈ entries)
    (hfresh : s.staleness d f entry = .ok none) : s.staleness d' f entry =
      .ok (Staleness.editReason? d places (s.root.join entry.1)
        (entry.2.dependencies.map s.root.join)) :=
  Staleness.check_of_edited h.edited (h.notObjects entry he f)
    (fun u _ hu hlate => hlate entry he f u hu) hfresh

/-- Where nothing was left to compile, what is compiled after edits is what they made stale. -/
theorem Edits.selectionUnder_eq (h : s.Edits entries places d d')
    (hfresh : ∀ entry ∈ entries, entry.2.admitted f = true → s.staleness d f entry = .ok none) :
    s.selectionUnder d' f entries = ⟨(entries.filter (·.2.admitted f)).map (·.1),
      (entries.filter (·.2.admitted f)).filterMap (s.editTask? d places f)⟩ := by
  have htasks : (entries.filter (·.2.admitted f)).filterMap (s.compileTask? d' f) =
      (entries.filter (·.2.admitted f)).filterMap (s.editTask? d places f) := by
    refine List.filterMap_congr fun entry he => ?_
    obtain ⟨hentry, hadmitted⟩ := List.mem_filter.1 he
    rw [compileTask?, h.staleness_eq hentry (hfresh entry hentry hadmitted), editTask?]
    cases Staleness.editReason? d places (s.root.join entry.1)
      (entry.2.dependencies.map s.root.join) <;> rfl
  exact congrArg (Selection.mk _) htasks

/-- Nothing is left to compile only if the objects of all admitted entries are fresh. -/
theorem IsSettled.fresh {r : Resolution} (h : s.IsSettled d entries f r)
    (hnone : r.selection.toCompile = []) :
    ∀ entry ∈ entries, entry.2.admitted r.flags = true → s.staleness d r.flags entry = .ok none := by
  intro entry he hadmitted
  obtain ⟨reason, hreason⟩ := h.queried entry he hadmitted
  cases reason with
  | none => exact hreason
  | some reason =>
    rw [h.toCompile, List.filterMap_eq_nil_iff] at hnone
    have htask := hnone entry (List.mem_filter.2 ⟨he, hadmitted⟩)
    rw [compileTask?, hreason] at htask
    cases htask

/-- A rebuild after edits is minimal: the flags, the restarts and the linked files stay as they were, and
what is compiled are, in declared order, the linked files that were edited or that list an edited
dependency, with the reason that the edits give. -/
theorem resolve_after_edits (s : Selector) (d d' : Disk) (sets : List ManifestSet) (f : FlagSet)
    (r : Resolution) (places : List Location) (h : s.resolve d sets f = .ok r)
    (hnone : r.selection.toCompile = [])
    (hedits : s.Edits (ManifestSet.allEntries sets) places d d') :
    r.selection.included =
        ((ManifestSet.allEntries sets).filter (·.2.admitted r.flags)).map (·.1) ∧
      s.resolve d' sets f = .ok ⟨r.flags, ⟨r.selection.included,
        ((ManifestSet.allEntries sets).filter (·.2.admitted r.flags)).filterMap
          (s.editTask? d places r.flags)⟩, r.restarts⟩ := by
  obtain ⟨_, -, hsettles, hflags, -⟩ := resolve_eq_ok_iff.1 h
  have hsettled := hsettles.isSettled hflags
  refine ⟨hsettled.included, ?_⟩
  rcases resolve_replay_cases h d' with hok | ⟨_, _, _, -, -, hbreaks, -, -⟩
  · rw [hok, hedits.selectionUnder_eq (hsettled.fresh hnone), hsettled.included]
  · exact absurd hbreaks hedits.not_breaks

/-! ## A small project -/

namespace Sample

/-- Manifest paths start at the root, and objects have a directory there. -/
def rootSelector : Selector :=
  ⟨⟨"/"⟩, ⟨⟨"/o"⟩, .default⟩⟩

/-- An entry with dependencies. -/
def including (source : String) (dependencies : List String) (directives : List Directive) : SourceEntry :=
  (⟨source⟩, ⟨dependencies.map Path.mk, directives, [], []⟩)

/-- `a.c` and `b.c` share a header, and `c.c` requires a flag that `a.c` takes part for. -/
def sharing : ManifestSet :=
  manifest [
    including "a.c" ["all.h", "a.h"] [.options ⟨[.allow "-fPIC"]⟩],
    including "b.c" ["b.h", "all.h"] [.raw "-DB"],
    including "c.c" ["b.h"] [.use "-fPIC"]]

/-- All objects under `-fPIC` are there. Without that flag the object of `b.c` is old, and it is looked at
before `c.c` starts everything over. -/
def compiled : Disk :=
  ⟨[([], .directory 0), (["a.c"], .file .empty 2), (["b.c"], .file .empty 2), (["c.c"], .file .empty 2),
    (["all.h"], .file .empty 3), (["a.h"], .file .empty 3), (["b.h"], .file .empty 3),
    (["o"], .directory 0),
    (["o", "16g4etw-b-r0nri5xinhtu.o"], .file .empty 1),
    (["o", "16g4etw-a-r0nri5xinjeq.o"], .file .empty 5),
    (["o", "16g4etw-b-r0nri5xinjeq.o"], .file .empty 6),
    (["o", "16g4etw-c-r0nri5xinjeq.o"], .file .empty 7)], [], 9⟩

/-- The shared header and `a.c` have been edited. -/
def edited : Disk :=
  (compiled.set ["all.h"] (.file .empty 8)).set ["a.c"] (.file .empty 9)

/-- An object is two names below the root. -/
theorem exists_name_of_locate_object {source : Path} {g : FlagSet} {l : Location}
    (hl : compiled.locate (rootSelector.cache.objectPath source g) = .ok l) :
    ∃ name, l = ["o", name] := by
  obtain ⟨name, hname, heq⟩ := rootSelector.cache.exists_objectPath_eq source g
  rw [heq] at hl
  exact ⟨name, Disk.eq_append_of_locate_joinText (by decide) hname hl⟩

theorem le_of_modified_object {source : Path} {g : FlagSet} {u : Time}
    (hu : compiled.modified (rootSelector.cache.objectPath source g) = .ok u) : u ≤ 7 := by
  have hold : ∀ m ∈ compiled.nodes, m.1.length = 2 → m.2.modified ≤ 7 := by decide
  obtain ⟨n, hstat, rfl⟩ := except_map_eq_ok_iff.1 hu
  obtain ⟨l, hl, hn⟩ := Disk.stat_eq_ok_iff.1 hstat
  obtain ⟨name, rfl⟩ := exists_name_of_locate_object hl
  obtain ⟨⟨m, n'⟩, hfind, rfl⟩ := Option.map_eq_some_iff.1 hn
  have hm : m = ["o", name] := by simpa using List.find?_some hfind
  exact hold _ (List.mem_of_find?_eq_some hfind) (by rw [hm]; rfl)

theorem edits :
    rootSelector.Edits (ManifestSet.allEntries [sharing]) [["all.h"], ["a.c"]] compiled edited := by
  refine ⟨⟨rfl, ?_, ?_⟩, ?_⟩
  · intro l hl
    have hlate : ∀ t, 7 < t → ∀ entry ∈ ManifestSet.allEntries [sharing], ∀ g u,
        compiled.modified (rootSelector.cache.objectPath entry.1 g) = .ok u → u < t :=
      fun t ht _ _ _ u hu => Int.lt_of_le_of_lt (le_of_modified_object hu) ht
    rcases List.mem_pair.1 hl with rfl | rfl
    · exact ⟨_, .file .empty 8, rfl, rfl, rfl, hlate 8 (by decide)⟩
    · exact ⟨_, .file .empty 9, rfl, rfl, rfl, hlate 9 (by decide)⟩
  · intro l hl
    rw [List.mem_pair, not_or] at hl
    rw [edited, Disk.node?_set_of_ne _ _ hl.2, Disk.node?_set_of_ne _ _ hl.1]
  · intro entry _ g
    rw [Bool.eq_false_iff, Ne, Disk.leadsInto_eq_true_iff]
    rintro ⟨l, hl, hlocate⟩
    obtain ⟨name, rfl⟩ := exists_name_of_locate_object hlocate
    simp at hl

end Sample

/-- Of three linked files one was edited and two list the header that was: of these two the first is compiled
for its own sake, and nothing is compiled for the headers of the third. -/
theorem sample_after_edits :
    Sample.rootSelector.resolve Sample.compiled [Sample.sharing] (Sample.flags ["-O0"]) =
        .ok ⟨Sample.flags ["-O0", "-fPIC"], ⟨[⟨"a.c"⟩, ⟨"b.c"⟩, ⟨"c.c"⟩], []⟩, 1⟩ ∧
      Sample.rootSelector.Edits (ManifestSet.allEntries [Sample.sharing]) [["all.h"], ["a.c"]]
        Sample.compiled Sample.edited ∧
      Sample.rootSelector.resolve Sample.edited [Sample.sharing] (Sample.flags ["-O0"]) =
        .ok ⟨Sample.flags ["-O0", "-fPIC"], ⟨[⟨"a.c"⟩, ⟨"b.c"⟩, ⟨"c.c"⟩],
          [⟨⟨"a.c"⟩, [], [], ⟨"/o/16g4etw-a-r0nri5xinjeq.o"⟩, [], .sourceNewer⟩,
            ⟨⟨"b.c"⟩, ["-DB"], [], ⟨"/o/16g4etw-b-r0nri5xinjeq.o"⟩, [], .dependencyNewer ⟨"/all.h"⟩⟩]⟩,
          1⟩ := by
  have h : Sample.rootSelector.resolve Sample.compiled [Sample.sharing] (Sample.flags ["-O0"]) =
      .ok ⟨Sample.flags ["-O0", "-fPIC"], ⟨[⟨"a.c"⟩, ⟨"b.c"⟩, ⟨"c.c"⟩], []⟩, 1⟩ := by decide +kernel
  obtain ⟨-, hafter⟩ := resolve_after_edits _ _ Sample.edited _ _ _ _ h rfl Sample.edits
  refine ⟨h, Sample.edits, hafter.trans ?_⟩
  decide +kernel

end Selector

end VariantBuild
