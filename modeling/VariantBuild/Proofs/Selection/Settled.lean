import Mathlib.Control.Monad.Basic
import VariantBuild.Proofs.Selection.Restarts
/-!
# Settled resolutions

However often resolution started over, in the end every entry has been judged under one flag set, the
settled one, and so has every object. `IsSettled` says what that means for the flags, for the files that
are linked, for those that are left out and for those that are compiled.
-/

namespace VariantBuild.Selector

/-- What a resolution of `entries` promises that started from the flags `f`. -/
structure IsSettled (s : Selector) (d : Disk) (entries : List SourceEntry) (f : FlagSet)
    (r : Resolution) : Prop where
  /-- An attempt under the settled flags is stable, with the same selection. -/
  fixpoint : s.attempt d r.flags entries = .ok (.stable r.selection)
  /-- At most one width is active, and only once. -/
  one_width : (r.flags.tokens.filter (· ∈ FlagSet.widths)).length ≤ 1
  variantName : r.flags.variantName = f.variantName
  buildType : r.flags.buildType = f.buildType
  compiler : r.flags.compiler = f.compiler
  /-- Admitted are the entries all of whose directives let them through under the settled flags. -/
  admitted_iff : ∀ entry ∈ entries, entry.2.admitted r.flags = true ↔
    (∀ group, .flags group ∈ entry.2.flags → group.admitsBuildType f.buildType = true) ∧
    (∀ group, .options group ∈ entry.2.flags → group.admitsFlags r.flags = true) ∧
    (∀ token, .use token ∈ entry.2.flags → token ∈ r.flags.tokens)
  /-- All admitted entries are linked, in declared order and as often as they are declared. -/
  included : r.selection.included = (entries.filter (·.2.admitted r.flags)).map (·.1)
  /-- Any other entry is left out for a filter, with all flags active that it requires before. -/
  left_out : ∀ entry ∈ entries, entry.2.admitted r.flags = false →
    ∃ before filter after, entry.2.flags = before ++ filter :: after ∧ filter.isFilter = true ∧
      filter.passes r.flags = false ∧ ∀ token, .use token ∈ before → token ∈ r.flags.tokens
  /-- The files of every admitted entry could be queried. -/
  queried : ∀ entry ∈ entries, entry.2.admitted r.flags = true →
    ∃ reason, s.staleness d r.flags entry = .ok reason
  /-- The admitted entries with stale objects are compiled, in declared order: with their own raw
  arguments, include paths and tasks, into their objects under the settled flags. -/
  toCompile : r.selection.toCompile =
    (entries.filter (·.2.admitted r.flags)).filterMap (s.compileTask? d r.flags)

variable {s : Selector} {d : Disk} {f : FlagSet} {entry : SourceEntry}

/-- An attempt goes past an entry that is not admitted only for a filter. -/
theorem exists_filter_of_clears (h : s.clears d f entry = true) (ha : entry.2.admitted f = false) :
    ∃ before filter after, entry.2.flags = before ++ filter :: after ∧ filter.isFilter = true ∧
      filter.passes f = false ∧ ∀ token, .use token ∈ before → token ∈ f.tokens := by
  have hskip : ∃ cause, judge f entry.2.flags = .skipped cause := by
    cases hj : judge f entry.2.flags with
    | skipped cause => exact ⟨cause, rfl⟩
    | required token => simp [clears, hj] at h
    | admitted arguments =>
      rw [(judge_eq_admitted_iff.1 hj).1] at ha
      cases ha
  obtain ⟨filter, before, after, hfilter, hpasses, hflags, hbefore⟩ :=
    exists_judge_eq_skipped_iff.1 hskip
  refine ⟨before, filter, after, hflags, hfilter, hpasses, ?_⟩
  intro token ht
  exact FlagSet.has_eq_true_iff.1 (hbefore _ ht)

/-- An attempt goes past an admitted entry only if its files can be queried. -/
theorem exists_staleness_eq_of_clears (h : s.clears d f entry = true)
    (ha : entry.2.admitted f = true) : ∃ reason, s.staleness d f entry = .ok reason := by
  rw [clears_of_admitted (judge_eq_admitted_iff.2 ⟨ha, rfl⟩)] at h
  cases hs : s.staleness d f entry with
  | ok reason => exact ⟨reason, rfl⟩
  | error e => simp [hs, Except.isOk, Except.toBool] at h

/-- Where the loop settles, everything was judged under the one flag set that it ends with. -/
theorem Settles.isSettled {entries : List SourceEntry} {added : List String} {r : Resolution}
    (h : s.Settles d entries f added r.selection) (hflags : r.flags = (f.extend added).pruneWidths) :
    s.IsSettled d entries f r := by
  have hfix := h.attempt_eq
  rw [← hflags] at hfix
  obtain ⟨hclears, hselection⟩ := attempt_eq_stable_iff.1 hfix
  have hbuild : r.flags.buildType = f.buildType := by rw [hflags]; rfl
  exact {
    fixpoint := hfix
    one_width := by
      rw [hflags]
      exact FlagSet.length_members_pruneTokens_le FlagSet.widths _
    variantName := by rw [hflags]; rfl
    buildType := hbuild
    compiler := by rw [hflags]; rfl
    admitted_iff := fun entry _ => by rw [FileEntry.admitted_eq_true_iff, hbuild]
    included := by rw [hselection]; rfl
    left_out := fun entry he => exists_filter_of_clears (hclears entry he)
    queried := fun entry he => exists_staleness_eq_of_clears (hclears entry he)
    toCompile := by rw [hselection]; rfl }

/-- A resolution that succeeds is settled: it is a fixpoint, and everything in it was judged under
the one flag set that it ends with. -/
theorem resolve_isSettled (s : Selector) (d : Disk) (sets : List ManifestSet) (f : FlagSet)
    (r : Resolution) (h : s.resolve d sets f = .ok r) :
    s.IsSettled d (ManifestSet.allEntries sets) f r := by
  obtain ⟨added, -, hsettles, hflags, -⟩ := resolve_eq_ok_iff.1 h
  exact hsettles.isSettled hflags

/-! ## A small project -/

namespace Sample

/-- Manifest paths start in the working directory. -/
def selector : Selector :=
  ⟨⟨"."⟩, ⟨⟨"build/objs"⟩, .default⟩⟩

/-- Flags of a native build. -/
def flags (tokens : List String) : FlagSet :=
  ⟨tokens, "", "native", "gcc"⟩

/-- An entry with nothing but directives and raw arguments. -/
def file (source : String) (directives : List Directive) : SourceEntry :=
  (⟨source⟩, ⟨[], directives, [], []⟩)

/-- A set of entries. -/
def manifest (entries : List SourceEntry) : ManifestSet :=
  ⟨"core", none, none, entries⟩

/-- One object only: that of `shared.c` under `-O0`, `-fPIC` and `-m32`, newer than its source. -/
def disk : Disk :=
  ⟨[([], .directory 0), (["build"], .directory 0), (["build", "objs"], .directory 0),
    (["shared.c"], .file .empty 5),
    (["build", "objs", "16g4etw-shared-2p3cs0p0l1rsy.o"], .file .empty 7)], [], 9⟩

/-- `shared.c` takes part only because of a flag that `pic.c` behind it requires, and the width that
`wide.c` requires takes the place of another. -/
def widened : ManifestSet :=
  manifest [
    file "shared.c" [.options ⟨[.allow "-fPIC"]⟩, .raw "-DS"],
    file "main.c" [.raw "-DA", .raw "-DB"],
    file "pic.c" [.use "-fPIC"],
    file "wide.c" [.use FlagSet.width32],
    file "gtk.c" [.flags ⟨[.allow "gtk"]⟩, .use "-O3"]]

/-- A task of the sample: its objects for `-O0`, `-fPIC` and `-m32` are missing but for one. -/
def task (source object : String) (extraArguments : List String) : CompileTask :=
  ⟨⟨source⟩, extraArguments, [], ⟨"build/objs/" ++ object⟩, [], .missingObject⟩

/-- What is selected under `-O0`, `-fPIC` and `-m32`. -/
def selection : Selection :=
  ⟨[⟨"shared.c"⟩, ⟨"main.c"⟩, ⟨"pic.c"⟩, ⟨"wide.c"⟩],
    [task "main.c" "16g4etw-main-2p3cs0p0l1rsy.o" ["-DA", "-DB"],
      task "pic.c" "16g4etw-pic-2p3cs0p0l1rsy.o" [],
      task "wide.c" "16g4etw-wide-2p3cs0p0l1rsy.o" []]⟩

end Sample

/-- Two restarts for the sample, and of the files that are linked only `shared.c` is up to date. -/
theorem sample_isSettled :
    Sample.selector.resolve Sample.disk [Sample.widened] (Sample.flags ["-m64", "-O0"]) =
        .ok ⟨Sample.flags ["-O0", "-fPIC", "-m32"], Sample.selection, 2⟩ ∧
      Sample.selector.IsSettled Sample.disk (ManifestSet.allEntries [Sample.widened])
        (Sample.flags ["-m64", "-O0"])
        ⟨Sample.flags ["-O0", "-fPIC", "-m32"], Sample.selection, 2⟩ := by
  have h : Sample.selector.resolve Sample.disk [Sample.widened] (Sample.flags ["-m64", "-O0"]) =
      .ok ⟨Sample.flags ["-O0", "-fPIC", "-m32"], Sample.selection, 2⟩ := by decide +kernel
  exact ⟨h, resolve_isSettled _ _ _ _ _ h⟩

end VariantBuild.Selector
