import VariantBuild.Proofs.ObjectKey.Placement
import VariantBuild.Proofs.Variant.Flags
import VariantBuild.Variant.Inheritance
/-!
# Objects of different invocations

Not every switch of an invocation tells objects apart. A name keeps the tracked features and the 32-bit
width, so of two invocations of one variant it keeps whether they debug, instrument and target 32 bits,
which of the tracked levels they optimize at, and whether `emcc` compiles (`ObjectsAgree`). What the
variant or a package brings anyway is no difference. Other compilers, higher levels, the 64-bit width and
the output leave every object where it is.
-/

namespace VariantBuild

/-- The levels that are always tracked. -/
def OptLevel.tracked : List OptLevel :=
  [.bare, .level 0, .level 1, .level 2, .level 3]

/-- The tokens that are always tracked and that no switch sets. -/
def Feature.unswitched : List String :=
  ["-pie", "-DLIBCPU", "SIDE_MODULE=1", "-fPIC"]

/-- The features that are always tracked, by what can make them active. -/
theorem Feature.forall_defaults_iff {P : Feature → Prop} :
    (∀ x ∈ defaults, P x) ↔ P (.compiler "emcc") ∧ P (.flag "-g3") ∧ P (.flag "-DINSTRUMENT") ∧
      (∀ l ∈ OptLevel.tracked, P (.flag l.flag)) ∧ ∀ t ∈ unswitched, P (.flag t) := by
  have hflags : OptLevel.bare.flag = "-O" ∧ (OptLevel.level 0).flag = "-O0" ∧
      (OptLevel.level 1).flag = "-O1" ∧ (OptLevel.level 2).flag = "-O2" ∧
      (OptLevel.level 3).flag = "-O3" := by decide
  simp only [defaults, OptLevel.tracked, unswitched, List.forall_mem_cons, List.not_mem_nil,
    IsEmpty.forall_iff, implies_true, and_true, hflags]
  simp only [and_assoc, and_left_comm, and_comm]

namespace BuildOptions

variable {o : BuildOptions}

/-! ## What a switch sets -/

theorem archWidth_flag_ne {t : String} (h : t ∉ FlagSet.widths) :
    o.archWidth.map ArchWidth.flag ≠ some t := by
  intro heq
  obtain ⟨w, -, rfl⟩ := Option.map_eq_some_iff.1 heq
  cases w <;> exact h (by decide)

theorem sets_debug_iff : o.Sets "-g3" ↔ o.debugInfo = true := by
  have hlevel := (OptLevel.flag_ne (t := "-g3") (by decide) o.optimization).symm
  have hwidth := archWidth_flag_ne (o := o) (t := "-g3") (by decide)
  simp [Sets, hlevel, hwidth]

theorem sets_instrument_iff : o.Sets "-DINSTRUMENT" ↔ o.instrument = true := by
  have hlevel := (OptLevel.flag_ne (t := "-DINSTRUMENT") (by decide) o.optimization).symm
  have hwidth := archWidth_flag_ne (o := o) (t := "-DINSTRUMENT") (by decide)
  simp [Sets, hlevel, hwidth]

theorem sets_width32_iff : o.Sets FlagSet.width32 ↔ o.archWidth = some .bits32 := by
  have hlevel := (OptLevel.flag_ne (t := FlagSet.width32) (by decide) o.optimization).symm
  have hwidth : o.archWidth.map ArchWidth.flag = some FlagSet.width32 ↔
      o.archWidth = some .bits32 := by
    rcases o.archWidth with _ | _ | _ <;> decide
  have hother : FlagSet.width32 ≠ "-g3" ∧ FlagSet.width32 ≠ "-DINSTRUMENT" := by decide
  simp [Sets, hlevel, hwidth, hother]

theorem sets_flag_iff (l : OptLevel) : o.Sets l.flag ↔ o.optimization = l := by
  have hdebug := OptLevel.flag_ne (t := "-g3") (by decide) l
  have hinstrument := OptLevel.flag_ne (t := "-DINSTRUMENT") (by decide) l
  have hwidth : o.archWidth.map ArchWidth.flag ≠ some l.flag := by
    refine archWidth_flag_ne ?_
    have h32 := OptLevel.flag_ne (t := FlagSet.width32) (by decide) l
    have h64 := OptLevel.flag_ne (t := FlagSet.width64) (by decide) l
    simp [FlagSet.widths, h32, h64]
  simp only [Sets, hdebug, hinstrument, hwidth, false_and, false_or, OptLevel.flag_inj]
  exact eq_comm

theorem not_sets_of_mem_unswitched {t : String} (h : t ∈ Feature.unswitched) : ¬ o.Sets t := by
  have hclosed : ∀ u ∈ Feature.unswitched, u ≠ "-g3" ∧ u ≠ "-DINSTRUMENT" ∧ u ∉ FlagSet.widths ∧
      ¬ "-O".toList <+: u.toList := by decide
  obtain ⟨hdebug, hinstrument, hwidths, hlevel⟩ := hclosed t h
  have hflag := (OptLevel.flag_ne hlevel o.optimization).symm
  simp [Sets, hdebug, hinstrument, archWidth_flag_ne hwidths, hflag]

end BuildOptions

namespace Variant

variable {v : Variant} {o o₁ o₂ : BuildOptions} {pkg : PackageFlags} {t : String}

/-! ## What an object's name keeps of an invocation -/

/-- Whether two invocations of a variant make their objects alike, as far as names tell: `emcc` compiles
in both or in neither, and they agree on every tracked switch that the variant and its packages leave
open. -/
structure ObjectsAgree (v : Variant) (pkg : PackageFlags) (o₁ o₂ : BuildOptions) : Prop where
  compiler : v.compilerOf o₁ = "emcc" ↔ v.compilerOf o₂ = "emcc"
  debug : v.Brings pkg "-g3" ∨ (o₁.debugInfo = true ↔ o₂.debugInfo = true)
  instrument : v.Brings pkg "-DINSTRUMENT" ∨ (o₁.instrument = true ↔ o₂.instrument = true)
  width : v.Brings pkg FlagSet.width32 ∨
    (o₁.archWidth = some .bits32 ↔ o₂.archWidth = some .bits32)
  level : ∀ l ∈ OptLevel.tracked,
    v.Brings pkg l.flag ∨ (o₁.optimization = l ↔ o₂.optimization = l)

/-- Two invocations agree on a token if the variant or a package brings it, or if both set it or
neither does. -/
theorem has_initialFlags_eq_iff (h : IsOptional t) :
    (v.initialFlags o₁ pkg).has t = (v.initialFlags o₂ pkg).has t ↔
      v.Brings pkg t ∨ (o₁.Sets t ↔ o₂.Sets t) := by
  rw [Bool.eq_iff_iff, FlagSet.has_eq_true_iff, FlagSet.has_eq_true_iff, mem_initialFlags_iff h,
    mem_initialFlags_iff h]
  by_cases hbrings : v.Brings pkg t <;> simp [hbrings]

theorem isOptional_of_mem_tracked : ∀ l ∈ OptLevel.tracked, IsOptional l.flag := by
  decide

theorem isOptional_of_mem_unswitched : ∀ t ∈ Feature.unswitched, IsOptional t := by
  decide

/-- The features that are always tracked and the 32-bit width agree exactly if the objects do. -/
theorem objectsAgree_iff :
    ((∀ x ∈ Feature.defaults,
        x.isActive (v.initialFlags o₁ pkg) = x.isActive (v.initialFlags o₂ pkg)) ∧
      (v.initialFlags o₁ pkg).has FlagSet.width32 = (v.initialFlags o₂ pkg).has FlagSet.width32) ↔
    v.ObjectsAgree pkg o₁ o₂ := by
  have hcompiler : (Feature.compiler "emcc").isActive (v.initialFlags o₁ pkg) =
      (Feature.compiler "emcc").isActive (v.initialFlags o₂ pkg) ↔
      (v.compilerOf o₁ = "emcc" ↔ v.compilerOf o₂ = "emcc") := by
    rw [Bool.eq_iff_iff]
    simp only [Feature.isActive, (settings_initialFlags _ _ _).2.2, beq_iff_eq]
  have hdebug : (v.initialFlags o₁ pkg).has "-g3" = (v.initialFlags o₂ pkg).has "-g3" ↔
      v.Brings pkg "-g3" ∨ (o₁.debugInfo = true ↔ o₂.debugInfo = true) := by
    rw [has_initialFlags_eq_iff (by decide), BuildOptions.sets_debug_iff,
      BuildOptions.sets_debug_iff]
  have hinstrument : (v.initialFlags o₁ pkg).has "-DINSTRUMENT" =
      (v.initialFlags o₂ pkg).has "-DINSTRUMENT" ↔
      v.Brings pkg "-DINSTRUMENT" ∨ (o₁.instrument = true ↔ o₂.instrument = true) := by
    rw [has_initialFlags_eq_iff (by decide), BuildOptions.sets_instrument_iff,
      BuildOptions.sets_instrument_iff]
  have hwidth : (v.initialFlags o₁ pkg).has FlagSet.width32 =
      (v.initialFlags o₂ pkg).has FlagSet.width32 ↔
      v.Brings pkg FlagSet.width32 ∨
        (o₁.archWidth = some .bits32 ↔ o₂.archWidth = some .bits32) := by
    rw [has_initialFlags_eq_iff (by decide), BuildOptions.sets_width32_iff,
      BuildOptions.sets_width32_iff]
  have hlevel : ∀ l ∈ OptLevel.tracked,
      ((v.initialFlags o₁ pkg).has l.flag = (v.initialFlags o₂ pkg).has l.flag ↔
        v.Brings pkg l.flag ∨ (o₁.optimization = l ↔ o₂.optimization = l)) := by
    intro l hl
    rw [has_initialFlags_eq_iff (isOptional_of_mem_tracked l hl), BuildOptions.sets_flag_iff,
      BuildOptions.sets_flag_iff]
  have hunswitched : ∀ t ∈ Feature.unswitched,
      (v.initialFlags o₁ pkg).has t = (v.initialFlags o₂ pkg).has t := by
    intro t ht
    rw [has_initialFlags_eq_iff (isOptional_of_mem_unswitched t ht)]
    exact .inr (iff_of_false (BuildOptions.not_sets_of_mem_unswitched ht)
      (BuildOptions.not_sets_of_mem_unswitched ht))
  rw [Feature.forall_defaults_iff, hcompiler]
  simp only [Feature.isActive]
  rw [hdebug, hinstrument, hwidth, forall₂_congr hlevel]
  constructor
  · rintro ⟨⟨compiler, debug, instrument, level, -⟩, width⟩
    exact ⟨compiler, debug, instrument, width, level⟩
  · rintro ⟨compiler, debug, instrument, width, level⟩
    exact ⟨⟨compiler, debug, instrument, level, hunswitched⟩, width⟩

/-- When two invocations of one variant put the object of a source in the same place: if their flag sets
agree on the features that are always tracked and on the 32-bit width, which is to say, if the switches
that objects are told apart by agree. -/
theorem samePlace_objectPath_switches (digest : String → UInt64) (directory : Path) (v : Variant)
    (pkg : PackageFlags) (o₁ o₂ : BuildOptions) (source : Path) :
    let c : ObjectCache := ⟨directory, .standard digest⟩
    let f₁ := v.initialFlags o₁ pkg
    let f₂ := v.initialFlags o₂ pkg
    ((c.objectPath source f₁).SamePlace (c.objectPath source f₂) ↔
      (∀ x ∈ Feature.defaults, x.isActive f₁ = x.isActive f₂) ∧
        f₁.has FlagSet.width32 = f₂.has FlagSet.width32) ∧
    ((c.objectPath source f₁).SamePlace (c.objectPath source f₂) ↔ v.ObjectsAgree pkg o₁ o₂) := by
  intro c f₁ f₂
  have hvariant : f₁.variant = f₂.variant := by
    obtain ⟨hname₁, hbuildType₁, -⟩ := settings_initialFlags v o₁ pkg
    obtain ⟨hname₂, hbuildType₂, -⟩ := settings_initialFlags v o₂ pkg
    simp only [f₁, f₂, FlagSet.variant, hname₁, hname₂, hbuildType₁, hbuildType₂]
  have hlimit : c.deriver.features.length ≤ Feature.limit :=
    show Feature.defaults.length ≤ Feature.limit by decide
  have hplace : (c.objectPath source f₁).SamePlace (c.objectPath source f₂) ↔
      (∀ x ∈ Feature.defaults, x.isActive f₁ = x.isActive f₂) ∧
        f₁.has FlagSet.width32 = f₂.has FlagSet.width32 := by
    rw [c.samePlace_objectPath_iff, KeyDeriver.fileName_derive_eq_iff hlimit, hvariant]
    simp only [true_and, and_true]
    rfl
  exact ⟨hplace, hplace.trans objectsAgree_iff⟩

/-- The flags of a native build without packages. -/
def Sample.nativeFlags (o : BuildOptions) : FlagSet :=
  (plain "native").initialFlags o .none

/-- Another compiler, and another level above three: flag sets that differ, and one object. -/
theorem sample_switches_share :
    resolve [] "native" = .ok (plain "native") ∧
    ((Sample.nativeFlags { BuildOptions.default with cc := some "clang" }).compiler ≠
        (Sample.nativeFlags .default).compiler ∧
      (ObjectCache.Sample.cache.objectPath ⟨"src/cpu.c"⟩
          (Sample.nativeFlags { BuildOptions.default with cc := some "clang" })).SamePlace
        (ObjectCache.Sample.cache.objectPath ⟨"src/cpu.c"⟩ (Sample.nativeFlags .default))) ∧
    ((Sample.nativeFlags { BuildOptions.default with optimization := .level 4 }).tokens ≠
        (Sample.nativeFlags { BuildOptions.default with optimization := .level 5 }).tokens ∧
      (ObjectCache.Sample.cache.objectPath ⟨"src/cpu.c"⟩
          (Sample.nativeFlags { BuildOptions.default with optimization := .level 4 })).SamePlace
        (ObjectCache.Sample.cache.objectPath ⟨"src/cpu.c"⟩
          (Sample.nativeFlags { BuildOptions.default with optimization := .level 5 }))) := by
  decide +kernel

end Variant

end VariantBuild
