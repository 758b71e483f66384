import VariantBuild.Proofs.FlagSet.Pruning
import VariantBuild.Variant.Flags
/-!
# Tokens of a build

The flags that resolution starts from come from four sources: the base, the variant with its packages,
the switches of the invocation, and the build type. A build type touches a few tokens only and adds its
macro. Any other token that is not a base flag is active exactly if the variant or a package brings it or
a switch sets it (`mem_initialFlags_iff`).
-/

namespace VariantBuild

/-! ## Switches -/

/-- Different levels have different flags. -/
theorem OptLevel.flag_inj {l m : OptLevel} : l.flag = m.flag ↔ l = m := by
  constructor
  · intro h
    have hnumber : ∀ n : Nat, "-O" ≠ "-O" ++ toString n := by
      intro n heq
      have hempty : "" = toString n := (String.append_right_inj "-O").1 heq
      exact Nat.repr_ne_empty hempty.symm
    cases l with
    | bare =>
      cases m with
      | bare => rfl
      | level n => exact absurd h (hnumber n)
    | level k =>
      cases m with
      | bare => exact absurd h.symm (hnumber k)
      | level n =>
        have hdigits : Nat.toDigits 10 k = Nat.toDigits 10 n := by
          have hrepr : toString k = toString n := (String.append_right_inj "-O").1 h
          rwa [Nat.toString_eq_ofList_toDigits, Nat.toString_eq_ofList_toDigits,
            String.ofList_inj] at hrepr
        -- a numeral is read back as its number
        have hvalue : k = n := calc
          k = Nat.ofDigitChars 10 (Nat.toDigits 10 k) 0 := Nat.ofDigitChars_ten_toDigits.symm
          _ = Nat.ofDigitChars 10 (Nat.toDigits 10 n) 0 := by rw [hdigits]
          _ = n := Nat.ofDigitChars_ten_toDigits
        rw [hvalue]
  · rintro rfl
    rfl

/-- A token that does not start like a level is not the flag of one. -/
theorem OptLevel.flag_ne {t : String} (h : ¬ "-O".toList <+: t.toList) (l : OptLevel) :
    l.flag ≠ t := by
  rintro rfl
  apply h
  cases l with
  | bare => exact List.prefix_rfl
  | level n => exact ⟨(toString n).toList, by simp [flag]⟩

/-- Whether a switch of an invocation sets a token. -/
def BuildOptions.Sets (o : BuildOptions) (t : String) : Prop :=
  (t = "-g3" ∧ o.debugInfo = true) ∨ (t = "-DINSTRUMENT" ∧ o.instrument = true) ∨
    o.archWidth.map ArchWidth.flag = some t ∨ t = o.optimization.flag

namespace Variant

/-- Whether the variant or one of its packages brings a token. -/
def Brings (v : Variant) (pkg : PackageFlags) (t : String) : Prop :=
  t ∈ v.flags ∨ t ∈ pkg.cflags

/-- The base flags that no switch takes away. -/
def fixedFlags : List String := ["-Wall", "-Wextra", "-Werror", "-std=c99"]

/-- The tokens that build types replace, take away or bring. -/
def buildTypeTokens : List String :=
  ["-std=c99", "-std=gnu99", "-shared", "-s", "STANDALONE_WASM=1"]

/-- A token that is there only if the variant, a package or a switch wants it: no base flag that stays, no
token of a build type, and not named like the macro of one. -/
def IsOptional (t : String) : Prop :=
  t ∉ fixedFlags ∧ t ∉ buildTypeTokens ∧ ¬ "_BUILD".toList <:+ t.toList

instance (t : String) : Decidable (IsOptional t) :=
  inferInstanceAs (Decidable (_ ∧ _))

variable {v : Variant} {o : BuildOptions} {pkg : PackageFlags} {f : FlagSet} {t : String}

/-! ## Settings -/

theorem settings_applyDebug (o : BuildOptions) (f : FlagSet) :
    (applyDebug o f).variantName = f.variantName ∧ (applyDebug o f).buildType = f.buildType ∧
      (applyDebug o f).compiler = f.compiler := by
  rw [applyDebug]
  split <;> exact ⟨rfl, rfl, rfl⟩

theorem settings_applyBuildType (v : Variant) (o : BuildOptions) (f : FlagSet) :
    (v.applyBuildType o f).variantName = f.variantName ∧
      (v.applyBuildType o f).buildType = f.buildType ∧
      (v.applyBuildType o f).compiler = f.compiler := by
  simp only [applyBuildType]
  split <;> split <;> exact ⟨rfl, rfl, rfl⟩

/-- Debugging and the build type change tokens only: the flags of a build are for the variant and the
compiler that were chosen. -/
theorem settings_initialFlags (v : Variant) (o : BuildOptions) (pkg : PackageFlags) :
    (v.initialFlags o pkg).variantName = v.name ∧ (v.initialFlags o pkg).buildType = v.buildType ∧
      (v.initialFlags o pkg).compiler = v.compilerOf o := by
  obtain ⟨hname, hbuildType, hcompiler⟩ := settings_applyDebug o (v.commonFlags o pkg)
  obtain ⟨hname', hbuildType', hcompiler'⟩ :=
    settings_applyBuildType v o (applyDebug o (v.commonFlags o pkg))
  exact ⟨hname'.trans hname, hbuildType'.trans hbuildType, hcompiler'.trans hcompiler⟩

/-! ## Tokens -/

/-- Only the debug flag of the base goes where debug information is off; others of its kind stay. -/
theorem tokens_applyDebug_commonFlags (v : Variant) (o : BuildOptions) (pkg : PackageFlags) :
    (applyDebug o (v.commonFlags o pkg)).tokens =
      (if o.debugInfo then baseFlags else fixedFlags) ++ (v.flags ++ (pkg.cflags ++
        ((o.archWidth.map ArchWidth.flag).toList ++
          (if o.instrument then ["-DINSTRUMENT"] else [])))) := by
  cases hdebug : o.debugInfo with
  | true => simp [applyDebug, hdebug, commonFlags]
  | false =>
    have hbase : "-g3" ∈ baseFlags := by decide
    have herase : baseFlags.erase "-g3" = fixedFlags := by decide
    simp only [applyDebug, hdebug, commonFlags, FlagSet.remove, List.append_assoc,
      List.erase_append_left _ hbase, herase]
    rfl

theorem mem_applyBuildType_iff (ht : t ∉ buildTypeTokens) :
    t ∈ (v.applyBuildType o f).tokens ↔ t ∈ f.tokens := by
  simp only [buildTypeTokens, List.mem_cons, List.not_mem_nil, or_false, not_or] at ht
  obtain ⟨hc99, hgnu99, hshared, hs, hwasm⟩ := ht
  have hreplace : t ∈ (f.replace "-std=c99" "-std=gnu99").tokens ↔ t ∈ f.tokens := by
    simp only [FlagSet.replace, List.mem_map]
    constructor
    · rintro ⟨u, hu, heq⟩
      split at heq
      · exact absurd heq.symm hgnu99
      · exact heq ▸ hu
    · intro h
      exact ⟨t, h, if_neg hc99⟩
  have hmodule : ∀ g : FlagSet,
      t ∈ ((g.remove "-shared").extend ["-s", "STANDALONE_WASM=1"]).tokens ↔ t ∈ g.tokens := by
    intro g
    simp [FlagSet.extend, FlagSet.remove, List.mem_erase_of_ne hshared, hs, hwasm]
  simp only [applyBuildType]
  split <;> split <;> simp only [hmodule, hreplace]

/-- A macro of a build type ends like one. -/
theorem isSuffix_buildTypeMacro (buildType : String) :
    "_BUILD".toList <:+ (buildTypeMacro buildType).toList :=
  ⟨_, by rw [buildTypeMacro, ← String.toList_append]⟩

/-- Where an optional token comes from. -/
theorem mem_initialFlags_iff (h : IsOptional t) :
    t ∈ (v.initialFlags o pkg).tokens ↔ v.Brings pkg t ∨ o.Sets t := by
  obtain ⟨hfixed, ht, hending⟩ := h
  have hne : t ≠ buildTypeMacro v.buildType := by
    rintro rfl
    exact hending (isSuffix_buildTypeMacro v.buildType)
  have hbase : t ∈ baseFlags ↔ t = "-g3" := by
    simp only [fixedFlags, List.mem_cons, List.not_mem_nil, or_false, not_or] at hfixed
    simp [baseFlags, hfixed]
  have hbaseDebug : t ∈ (if o.debugInfo then baseFlags else fixedFlags) ↔
      t = "-g3" ∧ o.debugInfo = true := by
    cases o.debugInfo with
    | true => simpa using hbase
    | false => simpa using hfixed
  have hinstrument : t ∈ (if o.instrument then ["-DINSTRUMENT"] else []) ↔
      t = "-DINSTRUMENT" ∧ o.instrument = true := by
    cases o.instrument <;> simp
  simp only [initialFlags, FlagSet.extend, List.mem_append, mem_applyBuildType_iff ht,
    tokens_applyDebug_commonFlags, hbaseDebug, hinstrument, Option.mem_toList, List.mem_cons, hne,
    List.not_mem_nil, or_false, false_or, Brings, BuildOptions.Sets]
  -- the same five sources, in another order
  simp only [or_assoc, or_left_comm, or_comm]

end Variant

end VariantBuild
