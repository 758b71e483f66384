import Mathlib.Data.List.Forall2
import VariantBuild.Proofs.Selection.Replay
/-!
# Files of other build types

An entry that a filter turns away for its build type, before it can require a flag, has no part in the
resolution, whatever its files are. Such entries may be put in anywhere (`Padded`): every pass does
the same, and the flags that are found and the files that are looked at stay the same. What they may change
is the limit of restarts, which their `@use` directives can only raise, so that a resolution that gave
up may go on (`resolve_padded`).
-/

namespace VariantBuild

/-- A filter turns the entry away for its build type before any flag is required. -/
def FileEntry.Foreign (buildType : String) (e : FileEntry) : Prop :=
  ∃ before group after, e.flags = before ++ .flags group :: after ∧
    (∀ token, Directive.use token ∉ before) ∧ group.admitsBuildType buildType = false

/-- The second list is the first with foreign entries put in. -/
inductive Padded (buildType : String) : List SourceEntry → List SourceEntry → Prop
  | nil : Padded buildType [] []
  | keep {xs ys : List SourceEntry} (entry : SourceEntry) (rest : Padded buildType xs ys) :
      Padded buildType (entry :: xs) (entry :: ys)
  | insert {xs ys : List SourceEntry} {entry : SourceEntry} (foreign : entry.2.Foreign buildType)
      (rest : Padded buildType xs ys) : Padded buildType xs (entry :: ys)

namespace Padded

variable {buildType : String} {xs ys xs' ys' : List SourceEntry} {sets sets' : List ManifestSet}

theorem append (h : Padded buildType xs ys) (h' : Padded buildType xs' ys') :
    Padded buildType (xs ++ xs') (ys ++ ys') := by
  induction h with
  | nil => exact h'
  | keep entry _ ih => exact .keep entry ih
  | insert foreign _ ih => exact .insert foreign ih

theorem sublist (h : Padded buildType xs ys) : xs.Sublist ys := by
  induction h with
  | nil => exact .slnil
  | keep entry _ ih => exact ih.cons_cons entry
  | insert _ _ ih => exact ih.cons _

/-- Sets that are padded one by one are padded as a whole. -/
theorem allEntries
    (h : List.Forall₂ (fun a b : ManifestSet => Padded buildType a.entries b.entries) sets sets') :
    Padded buildType (ManifestSet.allEntries sets) (ManifestSet.allEntries sets') := by
  induction h with
  | nil => exact .nil
  | cons hset _ ih => exact hset.append ih

/-- More entries can require more flags, and the limit of restarts does not fall. -/
theorem length_useTokens_le
    (h : Padded buildType (ManifestSet.allEntries sets) (ManifestSet.allEntries sets')) :
    (ManifestSet.useTokens sets).length ≤ (ManifestSet.useTokens sets').length := by
  have hsubset : ManifestSet.useTokens sets ⊆ ManifestSet.useTokens sets' := by
    intro token ht
    rw [ManifestSet.useTokens, ManifestSet.mem_distinct, List.mem_flatMap] at ht ⊢
    obtain ⟨entry, hentry, htoken⟩ := ht
    exact ⟨entry, h.sublist.subset hentry, htoken⟩
  exact List.Nodup.length_le_of_subset (ManifestSet.nodup_distinct _) hsubset

end Padded

/-- A foreign entry is skipped, under any flags of the build type. -/
theorem FileEntry.Foreign.exists_judge_eq_skipped {f : FlagSet} {e : FileEntry}
    (h : e.Foreign f.buildType) : ∃ cause, judge f e.flags = .skipped cause := by
  obtain ⟨before, group, after, hflags, huse, hgroup⟩ := h
  rw [hflags]
  clear hflags
  -- no directive in front of the filter requires a flag, so each of them skips the entry or hands on
  induction before with
  | nil =>
    rw [List.nil_append, judge, hgroup]
    exact ⟨.buildType, rfl⟩
  | cons directive before ih =>
    obtain ⟨cause, hrest⟩ := ih fun token ht => huse token (List.mem_cons_of_mem directive ht)
    cases directive with
    | flags other =>
      rw [List.cons_append, judge, hrest]
      split
      · exact ⟨cause, rfl⟩
      · exact ⟨.buildType, rfl⟩
    | options other =>
      rw [List.cons_append, judge, hrest]
      split
      · exact ⟨cause, rfl⟩
      · exact ⟨.flags other, rfl⟩
    | use token => exact absurd List.mem_cons_self (huse token)
    | raw argument =>
      rw [List.cons_append, judge, hrest]
      exact ⟨cause, rfl⟩

namespace Selector

variable {s : Selector} {d : Disk} {f : FlagSet} {entries xs ys : List SourceEntry}

/-! ## Passes and the loop -/

/-- A pass does the same with foreign entries as without. -/
theorem attempt_padded (h : Padded f.buildType xs ys) : s.attempt d f ys = s.attempt d f xs := by
  induction h with
  | nil => rfl
  | keep entry _ ih => rw [attempt, attempt, ih]
  | insert foreign _ ih =>
    obtain ⟨cause, hskip⟩ := foreign.exists_judge_eq_skipped
    rw [attempt, hskip]
    exact ih

/-- Under one limit the loop does the same: restarts leave the build type as it is. -/
theorem settle_padded {allowed restarts : Nat} (h : Padded f.buildType xs ys) :
    s.settle d ys allowed restarts f = s.settle d xs allowed restarts f := by
  induction allowed generalizing f restarts with
  | zero => rw [settle, settle, attempt_padded (f := f.pruneWidths) h]
  | succ allowed ih =>
    rw [settle, settle, attempt_padded (f := f.pruneWidths) h]
    cases ha : s.attempt d f.pruneWidths xs with
    | error e => rfl
    | ok ended =>
      cases ended with
      | stable selection => rfl
      | restart g =>
        obtain ⟨token, -, rfl⟩ := attempt_eq_restart_iff.1 ha
        exact ih h

/-- Where the loop does not give up, more restarts would change nothing. -/
theorem settle_eq_of_le {allowed allowed' restarts : Nat} (hle : allowed ≤ allowed')
    (h : ∀ n, s.settle d entries allowed restarts f ≠ .error (.diverged n)) :
    s.settle d entries allowed' restarts f = s.settle d entries allowed restarts f := by
  rcases s.settle_cases d entries allowed restarts f with
    ⟨added, selection, hlen, hsettles, heq⟩ | ⟨_, _, -, -, heq⟩ | ⟨added, g, e, hlen, hrun, hfail, heq⟩
  · rw [heq, hsettles.settle_eq (Nat.le_trans hlen hle)]
  · exact absurd heq (h _)
  · rw [heq, hrun.settle_eq_error (Nat.le_trans hlen hle) hfail]

/-! ## Resolution -/

variable {sets sets' : List ManifestSet}

/-- Foreign entries change nothing about a resolution that does not give up. -/
theorem resolve_eq_of_padded
    (h : List.Forall₂ (fun a b : ManifestSet => Padded f.buildType a.entries b.entries) sets sets')
    (hsettles : ∀ n, s.resolve d sets f ≠ .error (.diverged n)) :
    s.resolve d sets' f = s.resolve d sets f := by
  have hpadded := Padded.allEntries h
  rw [resolve, settle_padded hpadded]
  apply settle_eq_of_le hpadded.length_useTokens_le
  exact hsettles

/-- Files of other build types are inert. A resolution without them comes to the same with them, in
flags, selection and restarts or in the file that cannot be queried; and where it gives up with them,
it gave up without them, no later. -/
theorem resolve_padded (s : Selector) (d : Disk) (sets sets' : List ManifestSet) (f : FlagSet)
    (h : List.Forall₂ (fun a b : ManifestSet => Padded f.buildType a.entries b.entries) sets sets') :
    (∀ r, s.resolve d sets f = .ok r → s.resolve d sets' f = .ok r) ∧
    (∀ p cause, s.resolve d sets f = .error (.io p cause) →
      s.resolve d sets' f = .error (.io p cause)) ∧
    (∀ n, s.resolve d sets' f = .error (.diverged n) →
      ∃ m, m ≤ n ∧ s.resolve d sets f = .error (.diverged m)) := by
  refine ⟨fun r hr => ?_, fun p cause hio => ?_, fun n hn => ?_⟩
  · rw [resolve_eq_of_padded h, hr]
    intro n hn
    rw [hr] at hn
    cases hn
  · rw [resolve_eq_of_padded h, hio]
    intro n hn
    rw [hio] at hn
    cases hn
  · by_cases hgave : ∃ m, s.resolve d sets f = .error (.diverged m)
    · obtain ⟨m, hm⟩ := hgave
      have hle := (Padded.allEntries h).length_useTokens_le
      have hm' := (resolve_eq_diverged_iff.1 hm).1
      have hn' := (resolve_eq_diverged_iff.1 hn).1
      exact ⟨m, by omega, hm⟩
    · rw [resolve_eq_of_padded h fun m hm => hgave ⟨m, hm⟩] at hn
      exact ⟨n, Nat.le_refl n, hn⟩

namespace Sample

/-- A file of another build type, with a flag of its own and a dependency that is nowhere. -/
def foreignFile : SourceEntry :=
  (⟨"win32.c"⟩, ⟨[⟨"gone.h"⟩],
    [.options ⟨[.exclude "-fPIC"]⟩, .raw "-DW", .flags ⟨[.allow "win32"]⟩, .use "-mwindows"], [], []⟩)

/-- The sample with that file before all others, and again in the middle. -/
def widenedPadded : ManifestSet :=
  manifest [
    foreignFile,
    file "shared.c" [.options ⟨[.allow "-fPIC"]⟩, .raw "-DS"],
    file "main.c" [.raw "-DA", .raw "-DB"],
    foreignFile,
    file "pic.c" [.use "-fPIC"],
    file "wide.c" [.use FlagSet.width32],
    file "gtk.c" [.flags ⟨[.allow "gtk"]⟩, .use "-O3"]]

theorem foreignFile_foreign : foreignFile.2.Foreign "native" :=
  ⟨[.options ⟨[.exclude "-fPIC"]⟩, .raw "-DW"], ⟨[.allow "win32"]⟩, [.use "-mwindows"], rfl,
    by simp, by decide⟩

theorem widened_padded :
    List.Forall₂ (fun a b : ManifestSet => Padded "native" a.entries b.entries) [widened]
      [widenedPadded] :=
  .cons (.insert foreignFile_foreign (.keep _ (.keep _ (.insert foreignFile_foreign
    (.keep _ (.keep _ (.keep _ .nil))))))) .nil

end Sample

/-- The sample comes to the same two restarts and the same selection with the files put in. -/
theorem sample_padded :
    List.Forall₂ (fun a b : ManifestSet => Padded "native" a.entries b.entries) [Sample.widened]
        [Sample.widenedPadded] ∧
      Sample.selector.resolve Sample.disk [Sample.widenedPadded] (Sample.flags ["-m64", "-O0"]) =
        .ok ⟨Sample.flags ["-O0", "-fPIC", "-m32"], Sample.selection, 2⟩ :=
  ⟨Sample.widened_padded,
    (resolve_padded Sample.selector Sample.disk [Sample.widened] [Sample.widenedPadded]
      (Sample.flags ["-m64", "-O0"]) Sample.widened_padded).1 _ (by decide +kernel)⟩

end Selector

end VariantBuild
