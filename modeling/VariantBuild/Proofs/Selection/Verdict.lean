import VariantBuild.Proofs.FlagSet.Comparison
import VariantBuild.Selection.Basic
/-!
# Verdicts on entries

Directives are evaluated from left to right, and the first that does not let its entry through decides
(`judge_eq_of_obstacle`). Each verdict is thereby said without the evaluation: an entry is admitted if
all its directives let it through, a flag is required if its `@use` is the first obstacle, and an entry
is skipped if a filter is.
-/

namespace VariantBuild

namespace Directive

/-- Whether a directive lets its entry through: a filter that admits, a required flag that is active.
Raw arguments always do. -/
def passes (f : FlagSet) : Directive → Bool
  | flags group => group.admitsBuildType f.buildType
  | options group => group.admitsFlags f
  | use token => f.has token
  | raw _ => true

/-- Whether it is a filter, by build type or by active flags. -/
def isFilter : Directive → Bool
  | flags _ | options _ => true
  | use _ | raw _ => false

/-- The argument that a directive hands to the compiler. -/
def argument? : Directive → Option String
  | raw argument => some argument
  | _ => none

end Directive

namespace FileEntry

/-- Whether all directives of an entry let it through. -/
def admitted (f : FlagSet) (e : FileEntry) : Bool :=
  e.flags.all (·.passes f)

/-- The raw arguments of an entry, in order. -/
def rawArguments (e : FileEntry) : List String :=
  e.flags.filterMap Directive.argument?

end FileEntry

variable {f g : FlagSet} {ds : List Directive} {t : String}

namespace Group

/-! A group is tested part by part. -/

variable {parts : List GroupPart} {name : String}

@[simp] theorem admitsFlags_nil (f : FlagSet) : Group.admitsFlags ⟨[]⟩ f = true := rfl

@[simp] theorem admitsFlags_allow :
    Group.admitsFlags ⟨.allow name :: parts⟩ f = (f.has name && Group.admitsFlags ⟨parts⟩ f) := by
  simp [admitsFlags, allowed, excluded, Bool.and_assoc]

@[simp] theorem admitsFlags_exclude :
    Group.admitsFlags ⟨.exclude name :: parts⟩ f = (!f.has name && Group.admitsFlags ⟨parts⟩ f) := by
  simp [admitsFlags, allowed, excluded, Bool.and_left_comm]

end Group

/-- The first element that fails a test, with those in front of it, which do not. -/
theorem find?_not_eq_some_iff {α : Type} {p : α → Bool} {xs : List α} {x : α} :
    xs.find? (!p ·) = some x ↔
      p x = false ∧ ∃ before after, xs = before ++ x :: after ∧ ∀ b ∈ before, p b = true := by
  rw [List.find?_eq_some_iff_append]
  simp

/-- The verdict that the first obstacle gives; without one the entry is admitted. -/
theorem judge_eq_of_obstacle (f : FlagSet) (ds : List Directive) :
    judge f ds = match ds.find? (!·.passes f) with
      | some (.flags _) => .skipped .buildType
      | some (.options group) => .skipped (.flags group)
      | some (.use token) => .required token
      | some (.raw _) | none => .admitted (ds.filterMap Directive.argument?) := by
  induction ds with
  | nil => rfl
  | cons d ds ih =>
    by_cases hd : d.passes f = true
    · have hfind : (d :: ds).find? (!·.passes f) = ds.find? (!·.passes f) :=
        List.find?_cons_of_neg (by simp [hd])
      rw [hfind]
      -- a directive that passes leaves the verdict to those behind it; a raw argument adds itself
      cases d with
      | flags group => exact (if_pos hd).trans ih
      | options group => exact (if_pos hd).trans ih
      | use token => exact (if_pos hd).trans ih
      | raw argument =>
        rw [judge, ih]
        split <;> simp [Verdict.withArgument, Directive.argument?]
    · have hfind : (d :: ds).find? (!·.passes f) = some d :=
        List.find?_cons_of_pos (by simpa using hd)
      rw [hfind]
      cases d with
      | flags group => exact if_neg hd
      | options group => exact if_neg hd
      | use token => exact if_neg hd
      | raw argument => exact absurd rfl hd

theorem judge_eq_admitted_iff {e : FileEntry} {arguments : List String} :
    judge f e.flags = .admitted arguments ↔
      e.admitted f = true ∧ arguments = e.rawArguments := by
  have hall : e.admitted f = true ↔ e.flags.find? (!·.passes f) = none := by
    rw [List.find?_eq_none, FileEntry.admitted, List.all_eq_true]
    simp
  rw [judge_eq_of_obstacle, hall]
  cases hd : e.flags.find? (!·.passes f) with
  | none => simp [FileEntry.rawArguments, eq_comm]
  | some d =>
    cases d with
    | raw argument =>
      have hp : (Directive.raw argument).passes f = false := by simpa using List.find?_some hd
      cases hp
    | _ => simp

/-- A flag is required if its `@use` is the first obstacle. -/
theorem judge_eq_required_iff :
    judge f ds = .required t ↔ t ∉ f.tokens ∧ ∃ before after, ds = before ++ .use t :: after ∧
      ∀ b ∈ before, b.passes f = true := by
  have hfirst : judge f ds = .required t ↔ ds.find? (!·.passes f) = some (.use t) := by
    rw [judge_eq_of_obstacle]
    cases ds.find? (!·.passes f) with
    | none => simp
    | some d => cases d <;> simp
  rw [hfirst, find?_not_eq_some_iff, Directive.passes, FlagSet.has_eq_false_iff]

/-- An entry is skipped if a filter is the first obstacle. -/
theorem exists_judge_eq_skipped_iff :
    (∃ cause, judge f ds = .skipped cause) ↔ ∃ d before after, d.isFilter = true ∧
      d.passes f = false ∧ ds = before ++ d :: after ∧ ∀ b ∈ before, b.passes f = true := by
  have hfirst : (∃ cause, judge f ds = .skipped cause) ↔
      ∃ d, d.isFilter = true ∧ ds.find? (!·.passes f) = some d := by
    rw [judge_eq_of_obstacle]
    cases ds.find? (!·.passes f) with
    | none => simp
    | some d => cases d <;> simp [Directive.isFilter]
  rw [hfirst]
  simp only [find?_not_eq_some_iff]
  constructor
  · rintro ⟨d, hd, hp, before, after, hds, hb⟩
    exact ⟨d, before, after, hd, hp, hds, hb⟩
  · rintro ⟨d, before, after, hd, hp, hds, hb⟩
    exact ⟨d, hd, hp, before, after, hds, hb⟩

/-- What the directives of an admitted entry say, kind by kind. -/
theorem FileEntry.admitted_eq_true_iff {e : FileEntry} :
    e.admitted f = true ↔
      (∀ group, .flags group ∈ e.flags → group.admitsBuildType f.buildType = true) ∧
      (∀ group, .options group ∈ e.flags → group.admitsFlags f = true) ∧
      (∀ token, .use token ∈ e.flags → token ∈ f.tokens) := by
  rw [admitted, List.all_eq_true]
  constructor
  · intro h
    refine ⟨fun group hg => h _ hg, fun group hg => h _ hg, fun token ht => ?_⟩
    exact FlagSet.has_eq_true_iff.1 (h _ ht)
  · rintro ⟨hflags, hoptions, huse⟩ d hd
    cases d with
    | flags group => exact hflags group hd
    | options group => exact hoptions group hd
    | use token => exact FlagSet.has_eq_true_iff.2 (huse token hd)
    | raw argument => rfl

/-! ## Other flag sets -/

theorem Directive.passes_congr (a : f.Alike g) (d : Directive) : d.passes f = d.passes g := by
  have hhas : f.has = g.has := funext a.has_eq
  cases d with
  | flags group => simp only [passes, a.buildType]
  | options group => simp only [passes, Group.admitsFlags, hhas]
  | use token => simp only [passes, hhas]
  | raw argument => rfl

theorem judge_congr (a : f.Alike g) (ds : List Directive) : judge f ds = judge g ds := by
  simp only [judge_eq_of_obstacle, Directive.passes_congr a]

theorem FileEntry.admitted_congr (a : f.Alike g) (e : FileEntry) : e.admitted f = e.admitted g := by
  simp only [admitted, Directive.passes_congr a]

/-- More flags let more through, where no filter asks for the absence of one. -/
theorem Directive.passes_mono (a : f.Within g) {d : Directive}
    (hd : ∀ group, d = .options group → group.excluded = []) (h : d.passes f = true) :
    d.passes g = true := by
  cases d with
  | flags group => simpa [passes, a.buildType] using h
  | options group =>
    simp only [passes, Group.admitsFlags, hd group rfl, List.any_nil, Bool.not_false, Bool.and_true,
      List.all_eq_true, FlagSet.has_eq_true_iff] at h ⊢
    exact fun name hname => a.subset (h name hname)
  | use token =>
    simp only [passes, FlagSet.has_eq_true_iff] at h ⊢
    exact a.subset h
  | raw argument => rfl

end VariantBuild
