import VariantBuild.Proofs.Variant.Flags
import VariantBuild.Variant.Inheritance
/-!
# Switches against the flags of a variant

The switches of an invocation are meant to win over what a variant and its packages bring
(`Variant.SwitchesWin`). The width and the dialect do: a width stands behind all flags that it competes with,
and the dialect is replaced wherever it stands. The debug flag and `-shared` are taken away once only, so they
stay if they were brought more often than that, and these are the only ways in which a switch can lose
(`Variant.switchesWin_iff`).
-/

namespace VariantBuild

/-! ## Tokens of a group -/

section Tokens

variable {p : String → Bool} {xs : List String} {a b : String}

theorem filter_erase_of_neg (ha : p a = false) : (xs.erase a).filter p = xs.filter p := by
  induction xs with
  | nil => rfl
  | cons x xs ih =>
    rw [List.erase_cons]
    split
    next h =>
      obtain rfl : x = a := by simpa using h
      rw [List.filter_cons_of_neg (by simp [ha])]
    next h => rw [List.filter_cons, List.filter_cons, ih]

theorem filter_replace_of_neg (ha : p a = false) (hb : p b = false) :
    (xs.map fun t => if t = a then b else t).filter p = xs.filter p := by
  induction xs with
  | nil => rfl
  | cons x xs ih =>
    rw [List.map_cons, List.filter_cons, List.filter_cons, ih]
    by_cases h : x = a
    · simp [h, ha, hb]
    · simp [h]

/-- A token is still there after it was taken away once if it was there twice. -/
theorem mem_erase_self_iff : a ∈ xs.erase a ↔ 1 < xs.count a := by
  rw [← List.count_pos_iff, List.count_erase_self]
  omega

end Tokens

namespace Variant

variable {v : Variant} {o : BuildOptions} {pkg : PackageFlags} {f : FlagSet} {t : String}

/-- Every switch of an invocation wins over what the variant and its packages bring. -/
structure SwitchesWin (v : Variant) (o : BuildOptions) (pkg : PackageFlags) : Prop where
  debug : o.debugInfo = false → "-g3" ∉ (v.initialFlags o pkg).tokens
  /-- A libcpu build of a script is no shared module. -/
  shared : v.buildType = "libcpu" → hasExtension (v.outputPath o) "js" = true →
    "-shared" ∉ (v.initialFlags o pkg).tokens
  dialect : v.buildType = "emscripten" → "-std=c99" ∉ (v.initialFlags o pkg).tokens
  width : ∀ w, o.archWidth = some w →
    ((v.initialFlags o pkg).pruneExclusive FlagSet.widths).tokens.filter (· ∈ FlagSet.widths) = [w.flag]

/-! ## Widths -/

theorem notMem_widths_buildTypeMacro (buildType : String) : buildTypeMacro buildType ∉ FlagSet.widths := by
  have hending : ∀ w ∈ FlagSet.widths, ¬ "_BUILD".toList <:+ w.toList := by decide
  exact fun h => hending _ h (isSuffix_buildTypeMacro buildType)

theorem notMem_widths_optLevel (l : OptLevel) : l.flag ∉ FlagSet.widths := by
  have hhead : ∀ w ∈ FlagSet.widths, ¬ "-O".toList <+: w.toList := by decide
  exact fun h => OptLevel.flag_ne (hhead _ h) l rfl

/-- Debugging and the build type leave widths alone. -/
theorem widths_applyBuildType :
    (v.applyBuildType o (applyDebug o f)).tokens.filter (· ∈ FlagSet.widths) =
      f.tokens.filter (· ∈ FlagSet.widths) := by
  have hdebug : (applyDebug o f).tokens.filter (· ∈ FlagSet.widths) = f.tokens.filter (· ∈ FlagSet.widths) := by
    rw [applyDebug]
    split
    · rfl
    · exact filter_erase_of_neg (by decide)
  have hreplace : ∀ g : FlagSet, (g.replace "-std=c99" "-std=gnu99").tokens.filter (· ∈ FlagSet.widths) =
      g.tokens.filter (· ∈ FlagSet.widths) :=
    fun g => filter_replace_of_neg (by decide) (by decide)
  have hmodule : ∀ g : FlagSet, ((g.remove "-shared").extend ["-s", "STANDALONE_WASM=1"]).tokens.filter
      (· ∈ FlagSet.widths) = g.tokens.filter (· ∈ FlagSet.widths) := by
    intro g
    have hnone : (["-s", "STANDALONE_WASM=1"] : List String).filter (· ∈ FlagSet.widths) = [] := by decide
    rw [FlagSet.extend, List.filter_append, hnone, List.append_nil]
    exact filter_erase_of_neg (by decide)
  simp only [applyBuildType]
  split <;> split <;> simp only [hmodule, hreplace, hdebug]

/-- The widths of a build are those of the variant, those of packages and the one that is asked for. -/
theorem widths_initialFlags : (v.initialFlags o pkg).tokens.filter (· ∈ FlagSet.widths) =
    (v.flags ++ pkg.cflags).filter (· ∈ FlagSet.widths) ++ (o.archWidth.map ArchWidth.flag).toList := by
  have hbase : baseFlags.filter (· ∈ FlagSet.widths) = [] := by decide
  have hinstrument : (if o.instrument then ["-DINSTRUMENT"] else []).filter (· ∈ FlagSet.widths) = [] := by
    cases o.instrument <;> decide
  have hwidth : (o.archWidth.map ArchWidth.flag).toList.filter (· ∈ FlagSet.widths) =
      (o.archWidth.map ArchWidth.flag).toList := by
    cases o.archWidth with
    | none => rfl
    | some w => cases w <;> decide
  have hlast : [buildTypeMacro v.buildType, o.optimization.flag].filter (· ∈ FlagSet.widths) = [] := by
    simp [notMem_widths_buildTypeMacro, notMem_widths_optLevel]
  rw [initialFlags, FlagSet.extend, List.filter_append, hlast, List.append_nil, widths_applyBuildType, commonFlags]
  simp only [List.filter_append, hbase, hinstrument, hwidth, List.nil_append, List.append_nil]

/-- The width that is asked for is the one that a prune leaves. -/
theorem widths_pruneExclusive {w : ArchWidth} (hw : o.archWidth = some w) :
    ((v.initialFlags o pkg).pruneExclusive FlagSet.widths).tokens.filter (· ∈ FlagSet.widths) = [w.flag] := by
  rw [FlagSet.pruneExclusive, FlagSet.members_pruneTokens, widths_initialFlags, hw]
  simp

/-! ## Debugging, dialect and modules -/

/-- The debug flag of a variant or a package stays, even where debug information is off. -/
theorem mem_debug_iff (hdebug : o.debugInfo = false) :
    "-g3" ∈ (v.initialFlags o pkg).tokens ↔ v.Brings pkg "-g3" := by
  have hsets : ¬ o.Sets "-g3" := by
    rintro (⟨-, h⟩ | ⟨h, -⟩ | h | h)
    · rw [hdebug] at h
      cases h
    · exact absurd h (by decide)
    · obtain ⟨w, -, h⟩ := Option.map_eq_some_iff.1 h
      cases w <;> exact absurd h (by decide)
    · exact OptLevel.flag_ne (by decide) _ h.symm
  rw [mem_initialFlags_iff (by decide), or_iff_left hsets]

/-- What follows the flags that build types work on. -/
theorem mem_initialFlags_iff_applyBuildType (hbuild : ¬ "_BUILD".toList <:+ t.toList)
    (hlevel : ¬ "-O".toList <+: t.toList) : t ∈ (v.initialFlags o pkg).tokens ↔
      t ∈ (v.applyBuildType o (applyDebug o (v.commonFlags o pkg))).tokens := by
  have hne : t ≠ buildTypeMacro v.buildType := by
    rintro rfl
    exact hbuild (isSuffix_buildTypeMacro v.buildType)
  have hne' : t ≠ o.optimization.flag := fun h => OptLevel.flag_ne hlevel _ h.symm
  rw [initialFlags, FlagSet.extend, List.mem_append]
  simp [hne, hne']

theorem notMem_dialect (h : v.buildType = "emscripten") : "-std=c99" ∉ (v.initialFlags o pkg).tokens := by
  have hother : ¬ (v.buildType = "libcpu" ∧ hasExtension (v.outputPath o) "js" = true) := by
    rintro ⟨hlibcpu, -⟩
    exact absurd (h.symm.trans hlibcpu) (by decide)
  rw [mem_initialFlags_iff_applyBuildType (by decide) (by decide), applyBuildType, if_pos h,
    if_neg hother, FlagSet.replace]
  intro hmem
  obtain ⟨u, -, hu⟩ := List.mem_map.1 hmem
  split at hu
  · exact absurd hu (by decide)
  next hne => exact hne hu

/-- How often the flag of shared modules is brought. -/
theorem count_shared : (applyDebug o (v.commonFlags o pkg)).tokens.count "-shared" =
    (v.flags ++ pkg.cflags).count "-shared" := by
  have hbase : (if o.debugInfo then baseFlags else fixedFlags).count "-shared" = 0 := by
    cases o.debugInfo <;> decide
  have hwidth : (o.archWidth.map ArchWidth.flag).toList.count "-shared" = 0 := by
    cases o.archWidth with
    | none => rfl
    | some w => cases w <;> decide
  have hinstrument : (if o.instrument then ["-DINSTRUMENT"] else []).count "-shared" = 0 := by
    cases o.instrument <;> decide
  rw [tokens_applyDebug_commonFlags]
  simp only [List.count_append, hbase, hwidth, hinstrument]
  omega

theorem mem_shared_iff (h : v.buildType = "libcpu") (hjs : hasExtension (v.outputPath o) "js" = true) :
    "-shared" ∈ (v.initialFlags o pkg).tokens ↔ 1 < (v.flags ++ pkg.cflags).count "-shared" := by
  have hother : v.buildType ≠ "emscripten" := by
    rw [h]
    decide
  rw [mem_initialFlags_iff_applyBuildType (by decide) (by decide), applyBuildType, if_neg hother,
    if_pos ⟨h, hjs⟩, FlagSet.extend, FlagSet.remove, List.mem_append, mem_erase_self_iff, count_shared]
  exact or_iff_left (by decide)

/-- Switches win, unless debug information is off and the variant or a package brings the debug flag, or a
libcpu build of a script gets `-shared` more than once. -/
theorem switchesWin_iff (v : Variant) (o : BuildOptions) (pkg : PackageFlags) :
    v.SwitchesWin o pkg ↔
      (o.debugInfo = false → ¬ v.Brings pkg "-g3") ∧
        (v.buildType = "libcpu" → hasExtension (v.outputPath o) "js" = true →
          (v.flags ++ pkg.cflags).count "-shared" ≤ 1) := by
  constructor
  · intro hwin
    refine ⟨fun hdebug hbrings => hwin.debug hdebug ((mem_debug_iff hdebug).2 hbrings), fun hlibcpu hjs => ?_⟩
    exact Nat.not_lt.1 fun htwice => hwin.shared hlibcpu hjs ((mem_shared_iff hlibcpu hjs).2 htwice)
  · rintro ⟨hdebug, hshared⟩
    exact {
      debug := fun hoff hmem => hdebug hoff ((mem_debug_iff hoff).1 hmem)
      shared := fun hlibcpu hjs hmem =>
        Nat.not_lt.2 (hshared hlibcpu hjs) ((mem_shared_iff hlibcpu hjs).1 hmem)
      dialect := notMem_dialect
      width := fun _ => widths_pruneExclusive }

/-- Settings that bring the debug flag and a second `-shared` to a libcpu build of a script. -/
def SwitchesWin.repeatedFlags : VariantSettings :=
  { (default : VariantSettings) with flags := some ["-g3", "-shared"], output := some ⟨"libcpu.js"⟩ }

/-- Both stay where debug information is off. -/
theorem switches_lose_to_repeated_flags : ∃ v, resolve [("libcpu", SwitchesWin.repeatedFlags)] "libcpu" = .ok v ∧
    "-g3" ∈ (v.initialFlags { BuildOptions.default with debugInfo := false } .none).tokens ∧
    "-shared" ∈ (v.initialFlags { BuildOptions.default with debugInfo := false } .none).tokens ∧
    ¬ v.SwitchesWin { BuildOptions.default with debugInfo := false } .none := by
  let v : Variant := merge { plain "libcpu" with
    flags := ["-fPIC", "-shared", "-DLIBCPU"], excludedManifests := [0, 2] } SwitchesWin.repeatedFlags
  have hdebug : "-g3" ∈ (v.initialFlags { BuildOptions.default with debugInfo := false } .none).tokens := by
    decide +kernel
  refine ⟨v, ?_, hdebug, by decide +kernel, fun hwin => hwin.debug rfl hdebug⟩
  rw [resolve, resolveFrom]
  rfl

end Variant

end VariantBuild
