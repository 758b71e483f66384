import VariantBuild.Link
import VariantBuild.Proofs.ObjectKey.Collision
import VariantBuild.Proofs.Selection.Settled
import VariantBuild.Proofs.Variant.Flags
/-!
# Widths in commands

Flags are whole tokens to pruning, to `@options` and to the names of objects, and only a command line cuts
them into words. A token may thus bring a width along as one word of several (`Bundles`), and nothing that
compares tokens sees it: such a width is not pruned and not marked in a flag id. `CommandWidths` says what
is exclusive all the same. Only the variant, its packages and `@use` directives can bring such tokens, and
without them the words of a command are as exclusive as the tokens.
-/

namespace VariantBuild

namespace Text

variable {isSeparator : Char → Bool} {cs p : List Char}

theorem prefix_of_head?_pieces (h : (pieces isSeparator cs).head? = some p) : p <+: cs := by
  induction cs generalizing p with
  | nil =>
    cases h
    exact List.nil_prefix
  | cons c cs ih =>
    rw [pieces] at h
    split at h
    · cases h
      exact List.nil_prefix
    · rw [List.head?_modifyHead, Option.map_eq_some_iff] at h
      obtain ⟨q, hq, rfl⟩ := h
      exact List.cons_prefix_cons.2 ⟨rfl, ih hq⟩

/-- A piece is a stretch of the text. -/
theorem infix_of_mem_pieces (h : p ∈ pieces isSeparator cs) : p <:+: cs := by
  induction cs generalizing p with
  | nil => simp_all [pieces]
  | cons c cs ih =>
    have hrest : cs <:+: c :: cs := (List.suffix_cons c cs).isInfix
    rw [pieces] at h
    split at h
    · rcases List.mem_cons.1 h with rfl | h
      · exact List.nil_infix
      · exact (ih h).trans hrest
    · cases hp : pieces isSeparator cs with
      | nil => exact absurd hp (pieces_ne_nil isSeparator cs)
      | cons q qs =>
        rw [hp, List.modifyHead_cons] at h
        rcases List.mem_cons.1 h with rfl | h
        · have hq : q <+: cs := prefix_of_head?_pieces (by rw [hp, List.head?_cons])
          exact (List.cons_prefix_cons.2 ⟨rfl, hq⟩).isInfix
        · exact (ih (hp ▸ List.mem_cons_of_mem q h)).trans hrest

/-- A word is a stretch of its text. -/
theorem infix_of_mem_words {text w : String} (h : w ∈ words text) : w.toList <:+: text.toList := by
  obtain ⟨cs, hcs, rfl⟩ := List.mem_map.1 h
  rw [String.toList_ofList]
  exact infix_of_mem_pieces (List.mem_filter.1 hcs).1

/-- A text whose only dash starts it holds no word that goes on differently after a dash. -/
theorem notMem_words_of_dash {text w : String} {a b : Char} {as bs : List Char}
    (htext : text.toList = '-' :: a :: as) (hdash : '-' ∉ a :: as) (hw : w.toList = '-' :: b :: bs)
    (hne : b ≠ a) : w ∉ words text := by
  intro h
  obtain ⟨front, back, heq⟩ := infix_of_mem_words h
  rw [htext, hw] at heq
  cases front with
  | nil => exact hne (List.cons.inj (List.cons.inj heq).2).1
  | cons x front =>
    -- the dash of the word would be a second one
    have htail : front ++ '-' :: b :: bs ++ back = a :: as := (List.cons.inj heq).2
    rw [← htail] at hdash
    exact hdash (by simp)

end Text

/-- A token holds a flag as one of its words and is not that flag. -/
def Bundles (t w : String) : Prop :=
  t ≠ w ∧ w ∈ Text.words t

instance (t w : String) : Decidable (Bundles t w) :=
  inferInstanceAs (Decidable (_ ∧ _))

variable {t w : String}

theorem mem_words_of_mem_widths : ∀ w ∈ FlagSet.widths, w ∈ Text.words w := by
  decide

/-- No width bundles a width. -/
theorem notMem_widths_of_bundles (hw : w ∈ FlagSet.widths) (h : Bundles t w) : t ∉ FlagSet.widths := by
  have hnone : ∀ t ∈ FlagSet.widths, ∀ w ∈ FlagSet.widths, ¬ Bundles t w := by decide
  exact fun ht => hnone t ht w hw h

/-- A width among the words is a token of its own or one word of several. -/
theorem mem_wordsOfAll_iff {tokens : List String} (hw : w ∈ FlagSet.widths) :
    w ∈ Text.wordsOfAll tokens ↔ w ∈ tokens ∨ ∃ t ∈ tokens, Bundles t w := by
  rw [Text.wordsOfAll, List.mem_flatMap]
  constructor
  · rintro ⟨t, ht, hword⟩
    by_cases htw : t = w
    · exact .inl (htw ▸ ht)
    · exact .inr ⟨t, ht, htw, hword⟩
  · rintro (ht | ⟨t, ht, -, hword⟩)
    · exact ⟨w, ht, mem_words_of_mem_widths w hw⟩
    · exact ⟨t, ht, hword⟩

/-- Only the flag of a width starts with a dash and the letter of widths. -/
theorem exists_toList_of_mem_widths : ∀ w ∈ FlagSet.widths, ∃ cs, w.toList = '-' :: 'm' :: cs := by
  intro w hw
  simp only [FlagSet.widths, List.mem_cons, List.not_mem_nil, or_false] at hw
  rcases hw with rfl | rfl
  · exact ⟨['3', '2'], by decide⟩
  · exact ⟨['6', '4'], by decide⟩

/-! ## Where bundles come from -/

theorem not_bundles_optLevel (hw : w ∈ FlagSet.widths) (l : OptLevel) : ¬ Bundles l.flag w := by
  obtain ⟨cs, hcs⟩ := exists_toList_of_mem_widths w hw
  rintro ⟨-, hword⟩
  have hflag : ∃ digits, l.flag.toList = '-' :: 'O' :: digits ∧ '-' ∉ 'O' :: digits := by
    cases l with
    | bare => exact ⟨[], by decide, by decide⟩
    | level n =>
      refine ⟨Nat.toDigits 10 n, ?_, ?_⟩
      · simp [OptLevel.flag]
      · intro h
        have hdigit := Nat.isDigit_of_mem_toDigits (by decide) (by decide) (List.mem_of_ne_of_mem (by decide) h)
        revert hdigit
        decide
  obtain ⟨digits, htext, hdash⟩ := hflag
  exact Text.notMem_words_of_dash htext hdash hcs (by decide) hword

namespace Variant

theorem not_bundles_buildTypeMacro (hw : w ∈ FlagSet.widths) (buildType : String) :
    ¬ Bundles (buildTypeMacro buildType) w := by
  obtain ⟨cs, hcs⟩ := exists_toList_of_mem_widths w hw
  rintro ⟨-, hword⟩
  have hmacro : ∃ name, (buildTypeMacro buildType).toList = '-' :: 'D' :: name ∧ '-' ∉ 'D' :: name := by
    refine ⟨(Text.upper buildType).toList.map (fun c => if c = '-' then '_' else c) ++ "_BUILD".toList,
      ?_, ?_⟩
    · rw [buildTypeMacro, String.toList_append, String.toList_append, String.toList_map]
      rfl
    · -- the name of the build type has lost its dashes
      intro h
      rcases List.mem_append.1 (List.mem_of_ne_of_mem (by decide) h) with h | h
      · obtain ⟨c, -, hc⟩ := List.mem_map.1 h
        split at hc
        next => cases hc
        next hne => exact hne hc
      · revert h
        decide
  obtain ⟨name, htext, hdash⟩ := hmacro
  exact Text.notMem_words_of_dash htext hdash hcs (by decide) hword

/-- The flags that resolution starts from hold such a token exactly if the variant or a package brings it. -/
theorem mem_initialFlags_of_bundles {v : Variant} {o : BuildOptions} {pkg : PackageFlags}
    (hw : w ∈ FlagSet.widths) (h : Bundles t w) : t ∈ (v.initialFlags o pkg).tokens ↔ v.Brings pkg t := by
  have hbuildType : t ∉ buildTypeTokens := by
    have hnone : ∀ t ∈ buildTypeTokens, ∀ w ∈ FlagSet.widths, ¬ Bundles t w := by decide
    exact fun ht => hnone t ht w hw h
  have hbase : t ∉ (if o.debugInfo then baseFlags else fixedFlags) := by
    have hnone : ∀ t ∈ baseFlags, ∀ w ∈ FlagSet.widths, ¬ Bundles t w := by decide
    have hsub : ∀ t ∈ fixedFlags, t ∈ baseFlags := by decide
    split
    · exact fun ht => hnone t ht w hw h
    · exact fun ht => hnone t (hsub t ht) w hw h
  have hwidth : t ∉ (o.archWidth.map ArchWidth.flag).toList := by
    have hflag : ∀ l : ArchWidth, l.flag ∈ FlagSet.widths := by
      rintro (_ | _) <;> decide
    intro ht
    obtain ⟨l, -, rfl⟩ := Option.map_eq_some_iff.1 (Option.mem_toList.1 ht)
    exact notMem_widths_of_bundles hw h (hflag l)
  have hinstrument : t ∉ (if o.instrument then ["-DINSTRUMENT"] else []) := by
    have hnone : ∀ w ∈ FlagSet.widths, ¬ Bundles "-DINSTRUMENT" w := by decide
    split
    · intro ht
      obtain rfl := List.mem_singleton.1 ht
      exact hnone w hw h
    · exact List.not_mem_nil
  have hmacro : t ≠ buildTypeMacro v.buildType := by
    rintro rfl
    exact not_bundles_buildTypeMacro hw v.buildType h
  have hlevel : t ≠ o.optimization.flag := by
    rintro rfl
    exact not_bundles_optLevel hw o.optimization h
  simp only [initialFlags, FlagSet.extend, List.mem_append, mem_applyBuildType_iff hbuildType,
    tokens_applyDebug_commonFlags, hbase, hwidth, hinstrument, List.mem_cons, hmacro, hlevel,
    List.not_mem_nil, or_false, false_or, Brings]

end Variant

/-! ## Flag ids -/

/-- The highest bit of a flag id marks the flag of 32-bit targets. -/
theorem KeyDeriver.testBit_flagId {k : KeyDeriver} (hk : k.features.length ≤ Feature.limit) (f : FlagSet) :
    (k.flagId f).testBit 63 = f.has FlagSet.width32 := by
  have hfeatures := featureBits_lt (f := f) hk
  have hvariant : k.variantBits f < Nat.pow 2 31 := lowBits_lt 31 _
  rw [Nat.testBit_eq_decide_div_mod_eq, flagId]
  simp only [Feature.limit, Nat.pow_eq] at hfeatures hvariant ⊢
  cases f.has FlagSet.width32 with
  | true => rw [decide_eq_true_iff, Bool.toNat_true]; omega
  | false => rw [decide_eq_false_iff_not, Bool.toNat_false]; omega

/-! ## Commands -/

/-- What is exclusive about the widths of flags that a resolution ended with. -/
structure CommandWidths (v : Variant) (pkg : PackageFlags) (sets : List ManifestSet) (k : KeyDeriver)
    (f : FlagSet) : Prop where
  /-- The words of the flags stand in front of every compiler's arguments. -/
  compile : ∀ (c : Compiler) (task : CompileTask),
    Text.wordsOfAll f.tokens <+: (c.command f task).arguments
  /-- So they do in every command that links. -/
  link : ∀ (l : Linker) endFlags objects output, l.mode = .link →
    Text.wordsOfAll f.tokens <+: (l.command f endFlags objects output).arguments
  /-- As tokens, the two widths are never both active. -/
  one_token : ¬ (FlagSet.width32 ∈ f.tokens ∧ FlagSet.width64 ∈ f.tokens)
  /-- The highest bit of the flag id marks the token of 32-bit targets. -/
  bit_iff : (k.flagId f).testBit 63 = true ↔ FlagSet.width32 ∈ f.tokens
  /-- A width is a word of the commands if it is a token or one word of a longer token. -/
  word_iff : ∀ w ∈ FlagSet.widths,
    (w ∈ Text.wordsOfAll f.tokens ↔ w ∈ f.tokens ∨ ∃ t ∈ f.tokens, Bundles t w)
  /-- Such longer tokens come from the variant, a package or a `@use` directive and from nowhere else, -/
  bundle_source : ∀ t ∈ f.tokens, ∀ w ∈ FlagSet.widths, Bundles t w →
    v.Brings pkg t ∨ t ∈ ManifestSet.useTokens sets
  /-- and those of the variant and of packages are always there. -/
  bundle_stays : ∀ t, v.Brings pkg t → ∀ w ∈ FlagSet.widths, Bundles t w → t ∈ f.tokens
  /-- Where no active token is of that kind, the commands never have both widths as words, and the highest
  bit of the flag id says whether they have that of 32-bit targets. -/
  exclusive : (∀ t ∈ f.tokens, ∀ w ∈ FlagSet.widths, ¬ Bundles t w) →
    ¬ (FlagSet.width32 ∈ Text.wordsOfAll f.tokens ∧ FlagSet.width64 ∈ Text.wordsOfAll f.tokens) ∧
      ((k.flagId f).testBit 63 = true ↔ FlagSet.width32 ∈ Text.wordsOfAll f.tokens)

/-- The widths of a resolution that started from the flags of a variant, under a table of features that
tracks any flags. -/
theorem commandWidths_of_resolve (s : Selector) (d : Disk) (sets : List ManifestSet) (v : Variant)
    (o : BuildOptions) (pkg : PackageFlags) (digest : String → UInt64) (tracked : List String)
    (r : Resolution) (hk : (KeyDeriver.standard digest).withTracked tracked = .ok s.cache.deriver)
    (hr : s.resolve d sets (v.initialFlags o pkg) = .ok r) :
    CommandWidths v pkg sets s.cache.deriver r.flags := by
  obtain ⟨added, -, ⟨g, hrun, -⟩, hflags, -⟩ := Selector.resolve_eq_ok_iff.1 hr
  have hlimit : s.cache.deriver.features.length ≤ Feature.limit := by
    obtain ⟨hlength, hderiver⟩ := KeyDeriver.withTracked_eq_ok_iff.1 hk
    rw [hderiver]
    exact hlength
  have hmem : ∀ t, ∀ w ∈ FlagSet.widths, Bundles t w →
      (t ∈ r.flags.tokens ↔ v.Brings pkg t ∨ t ∈ added) := by
    intro t w hw h
    rw [hflags, FlagSet.mem_pruneWidths_of_notMem_widths (notMem_widths_of_bundles hw h), FlagSet.extend,
      List.mem_append, Variant.mem_initialFlags_of_bundles hw h]
  have hbit : (s.cache.deriver.flagId r.flags).testBit 63 = true ↔ FlagSet.width32 ∈ r.flags.tokens := by
    rw [KeyDeriver.testBit_flagId hlimit, FlagSet.has_eq_true_iff]
  have hone : ¬ (FlagSet.width32 ∈ r.flags.tokens ∧ FlagSet.width64 ∈ r.flags.tokens) := by
    rintro ⟨h32, h64⟩
    rw [hflags] at h32 h64
    exact absurd (FlagSet.eq_of_mem_pruneWidths h32 h64 (by decide) (by decide)) (by decide)
  have hsource : ∀ t ∈ r.flags.tokens, ∀ w ∈ FlagSet.widths, Bundles t w →
      v.Brings pkg t ∨ t ∈ ManifestSet.useTokens sets := by
    intro t ht w hw h
    exact ((hmem t w hw h).1 ht).imp_right (hrun.mem_useTokens t)
  refine
    { compile := fun c task => ?_
      link := fun l endFlags objects output hmode => ?_
      one_token := hone
      bit_iff := hbit
      word_iff := fun w hw => mem_wordsOfAll_iff hw
      bundle_source := hsource
      bundle_stays := fun t ht w hw h => (hmem t w hw h).2 (.inl ht)
      exclusive := fun hnone => ?_ }
  · simp only [Compiler.command, CompileTask.arguments, List.append_assoc]
    exact List.prefix_append _ _
  · simp only [Linker.command, Linker.arguments, hmode, List.append_assoc]
    exact List.prefix_append _ _
  · -- without such tokens the words are the tokens, as far as widths go
    have hword : ∀ w ∈ FlagSet.widths, (w ∈ Text.wordsOfAll r.flags.tokens ↔ w ∈ r.flags.tokens) := by
      intro w hw
      rw [mem_wordsOfAll_iff hw]
      constructor
      · rintro (h | ⟨t, ht, h⟩)
        · exact h
        · exact absurd h (hnone t ht w hw)
      · exact Or.inl
    rw [hword FlagSet.width32 (by decide), hword FlagSet.width64 (by decide)]
    exact ⟨hone, hbit⟩

namespace CommandWidths.Sample

/-- A native variant with flags of its own. -/
def variant (flags : List String) : Variant :=
  { Variant.plain "native" with flags }

/-- A build for 64-bit targets. -/
def options : BuildOptions :=
  { BuildOptions.default with archWidth := some .bits64 }

/-- One file, without directives. -/
def main : ManifestSet :=
  Selector.Sample.manifest [Selector.Sample.file "main.c" []]

/-- What comes of it, with the variant's flags as they are after pruning. -/
def resolution (flags : List String) : Resolution :=
  ⟨⟨Variant.baseFlags ++ flags ++ ["-m64", "-DNATIVE_BUILD", "-O0"], "native", "native", "gcc"⟩,
    ⟨[⟨"main.c"⟩], [Selector.Sample.task "main.c" "16g4etw-main-r0nri5xinhtv.o" []]⟩, 0⟩

end CommandWidths.Sample

open CommandWidths in
/-- In one token with another flag, the width of the variant stays beside the one that is asked for, and the
flag id does not mark it. -/
theorem sample_width_in_longer_token :
    Selector.Sample.selector.resolve Selector.Sample.disk [Sample.main]
        ((Sample.variant ["-pipe -m32"]).initialFlags Sample.options .none) =
          .ok (Sample.resolution ["-pipe -m32"]) ∧
      FlagSet.width32 ∈ Text.wordsOfAll (Sample.resolution ["-pipe -m32"]).flags.tokens ∧
      FlagSet.width64 ∈ Text.wordsOfAll (Sample.resolution ["-pipe -m32"]).flags.tokens ∧
      (KeyDeriver.default.flagId (Sample.resolution ["-pipe -m32"]).flags).testBit 63 = false := by
  decide +kernel

open CommandWidths in
/-- In two tokens it gives way to the one that is asked for. -/
theorem sample_commandWidths :
    (KeyDeriver.standard Digest.Sha256.leadingWord).withTracked [] =
        .ok Selector.Sample.selector.cache.deriver ∧
      Selector.Sample.selector.resolve Selector.Sample.disk [Sample.main]
        ((Sample.variant ["-pipe", "-m32"]).initialFlags Sample.options .none) =
          .ok (Sample.resolution ["-pipe"]) ∧
      CommandWidths (Sample.variant ["-pipe", "-m32"]) .none [Sample.main]
        Selector.Sample.selector.cache.deriver (Sample.resolution ["-pipe"]).flags ∧
      ¬ (FlagSet.width32 ∈ Text.wordsOfAll (Sample.resolution ["-pipe"]).flags.tokens ∧
        FlagSet.width64 ∈ Text.wordsOfAll (Sample.resolution ["-pipe"]).flags.tokens) := by
  have hk : (KeyDeriver.standard Digest.Sha256.leadingWord).withTracked [] =
      .ok Selector.Sample.selector.cache.deriver := rfl
  have hr : Selector.Sample.selector.resolve Selector.Sample.disk [Sample.main]
      ((Sample.variant ["-pipe", "-m32"]).initialFlags Sample.options .none) =
        .ok (Sample.resolution ["-pipe"]) := by decide +kernel
  have hwidths := commandWidths_of_resolve _ _ _ _ _ _ _ _ _ hk hr
  exact ⟨hk, hr, hwidths, (hwidths.exclusive (by decide)).1⟩

end VariantBuild
