import Mathlib.Data.List.Basic
import VariantBuild.ObjectKey
import VariantBuild.Proofs.FlagSet.Pruning
/-!
# Collisions of object names

An object's name gives back everything that went into it. No numeral holds a dash, so the first and
the last dash of a name are those that part it, whatever the stem looks like (`ObjectKey.fileName_inj`).
The three fields of a flag id share no bit as long as the table of features keeps to its limit
(`KeyDeriver.flagId_eq_iff`). What can still meet is what the digests and the stem do not tell apart.
-/

namespace VariantBuild

/-! ## Numerals -/

namespace Numeral

theorem digitChar_inj : ∀ a < 36, ∀ b < 36, digitChar a = digitChar b → a = b := by
  decide

/-- No digit parts a name or a path. -/
theorem digitChar_ne_mark : ∀ a < 36, digitChar a ≠ '-' ∧ digitChar a ≠ '/' := by
  decide

theorem base36Digits_of_lt {n : Nat} (h : n < 36) : base36Digits n = [digitChar n] := by
  rw [base36Digits, if_pos h]

theorem base36Digits_of_le {n : Nat} (h : 36 ≤ n) :
    base36Digits n = base36Digits (n / 36) ++ [digitChar (n % 36)] := by
  rw [base36Digits, if_neg (Nat.not_lt.2 h)]

theorem base36Digits_ne_nil (n : Nat) : base36Digits n ≠ [] := by
  rw [base36Digits]
  split <;> simp

theorem notMem_base36Digits (n : Nat) : '-' ∉ base36Digits n ∧ '/' ∉ base36Digits n := by
  induction n using base36Digits.induct with
  | case1 n h =>
    rw [base36Digits_of_lt h]
    have hd := digitChar_ne_mark n h
    simp [hd.1.symm, hd.2.symm]
  | case2 n h ih =>
    rw [base36Digits_of_le (Nat.not_lt.1 h)]
    have hd := digitChar_ne_mark (n % 36) (Nat.mod_lt n (by decide))
    simp [ih, hd.1.symm, hd.2.symm]

theorem base36Digits_injective : Function.Injective base36Digits := by
  intro m
  -- by the recursion of the first number: the last digits agree, and then all digits before them
  induction m using base36Digits.induct with
  | case1 m hm =>
    intro n h
    rw [base36Digits_of_lt hm] at h
    rcases Nat.lt_or_ge n 36 with hn | hn
    · rw [base36Digits_of_lt hn] at h
      exact digitChar_inj m hm n hn (List.singleton_inj.1 h)
    · rw [base36Digits_of_le hn] at h
      have hlen := congrArg List.length h
      have hpos := List.length_pos_iff.2 (base36Digits_ne_nil (n / 36))
      simp only [List.length_append, List.length_singleton] at hlen
      omega
  | case2 m hm ih =>
    intro n h
    rw [base36Digits_of_le (Nat.not_lt.1 hm)] at h
    rcases Nat.lt_or_ge n 36 with hn | hn
    · rw [base36Digits_of_lt hn] at h
      have hlen := congrArg List.length h
      have hpos := List.length_pos_iff.2 (base36Digits_ne_nil (m / 36))
      simp only [List.length_append, List.length_singleton] at hlen
      omega
    · rw [base36Digits_of_le hn] at h
      obtain ⟨hinit, hlast⟩ := List.append_inj' h rfl
      have hquot : m / 36 = n / 36 := ih hinit
      have hrem : m % 36 = n % 36 :=
        digitChar_inj _ (Nat.mod_lt m (by decide)) _ (Nat.mod_lt n (by decide))
          (List.singleton_inj.1 hlast)
      omega

/-- Numbers with the same numeral are the same. -/
theorem base36_inj {m n : Nat} : base36 m = base36 n ↔ m = n := by
  constructor
  · intro h
    exact base36Digits_injective (String.ofList_inj.1 h)
  · rintro rfl
    rfl

theorem notMem_base36 (n : Nat) : '-' ∉ (base36 n).toList ∧ '/' ∉ (base36 n).toList := by
  rw [base36, String.toList_ofList]
  exact notMem_base36Digits n

end Numeral

/-! ## Names -/

/-- A mark that stands in neither front part cuts both texts at the same place. -/
theorem append_mark_inj {mark : Char} {xs ys us vs : List Char} (hx : mark ∉ xs) (hy : mark ∉ ys)
    (h : xs ++ mark :: us = ys ++ mark :: vs) : xs = ys ∧ us = vs := by
  induction xs generalizing ys with
  | nil =>
    cases ys with
    | nil => exact ⟨rfl, (List.cons.inj h).2⟩
    | cons y ys => exact absurd (List.cons.inj h).1 (List.ne_of_not_mem_cons hy)
  | cons x xs ih =>
    cases ys with
    | nil => exact absurd (List.cons.inj h).1.symm (List.ne_of_not_mem_cons hx)
    | cons y ys =>
      obtain ⟨rfl, hrest⟩ := List.cons.inj h
      obtain ⟨rfl, rfl⟩ := ih (List.not_mem_of_not_mem_cons hx) (List.not_mem_of_not_mem_cons hy) hrest
      exact ⟨rfl, rfl⟩

/-- The same from the other end. -/
theorem mark_append_inj {mark : Char} {xs ys us vs : List Char} (hu : mark ∉ us) (hv : mark ∉ vs)
    (h : xs ++ mark :: us = ys ++ mark :: vs) : xs = ys ∧ us = vs := by
  have hr : us.reverse ++ mark :: xs.reverse = vs.reverse ++ mark :: ys.reverse := by
    simpa using congrArg List.reverse h
  obtain ⟨hus, hxs⟩ := append_mark_inj (by simpa using hu) (by simpa using hv) hr
  exact ⟨List.reverse_inj.1 hxs, List.reverse_inj.1 hus⟩

namespace ObjectKey

/-- The characters of a name. -/
theorem toList_fileName (k : ObjectKey) :
    k.fileName.toList = k.directoryHash.toList ++
      '-' :: (k.stem.toList ++ '-' :: (Numeral.base36 k.flagId).toList) ++ ['.', 'o'] := by
  simp [fileName, text, objectExtension]

/-- A name tells its parts, since neither numeral in it holds a dash. The stem may. -/
theorem fileName_inj {k l : ObjectKey} (hk : '-' ∉ k.directoryHash.toList)
    (hl : '-' ∉ l.directoryHash.toList) : k.fileName = l.fileName ↔ k = l := by
  constructor
  · intro h
    have hchars := String.toList_inj.2 h
    rw [toList_fileName, toList_fileName] at hchars
    have htext := List.append_cancel_right hchars
    obtain ⟨hdir, hrest⟩ := append_mark_inj hk hl htext
    obtain ⟨hstem, hid⟩ :=
      mark_append_inj (Numeral.notMem_base36 _).1 (Numeral.notMem_base36 _).1 hrest
    cases k
    cases l
    simp only [ObjectKey.mk.injEq]
    exact ⟨String.toList_inj.1 hdir, String.toList_inj.1 hstem,
      Numeral.base36_inj.1 (String.toList_inj.1 hid)⟩
  · rintro rfl
    rfl

end ObjectKey

namespace KeyDeriver

variable {k : KeyDeriver} {f g f₁ f₂ : FlagSet} {s₁ s₂ : Path}

/-! ## Flag ids -/

theorem bit_inj : ∀ {a b : Bool}, a.toNat = b.toNat → a = b := by
  decide

theorem bitsValue_lt (bs : List Bool) : bitsValue bs < Nat.pow 2 bs.length := by
  induction bs with
  | nil => simp [bitsValue]
  | cons b bs ih =>
    have hb := b.toNat_le
    rw [Nat.pow_eq] at ih
    rw [bitsValue, List.length_cons, Nat.pow_eq, Nat.pow_succ]
    omega

theorem lowBits_lt (count : Nat) (word : UInt64) : lowBits count word < Nat.pow 2 count :=
  Nat.mod_lt _ (Nat.pow_pos (by decide))

/-- A number of given length tells its bits. -/
theorem bitsValue_inj {as bs : List Bool} (hlen : as.length = bs.length) :
    bitsValue as = bitsValue bs ↔ as = bs := by
  constructor
  · intro h
    induction as generalizing bs with
    | nil => exact (List.length_eq_zero_iff.1 hlen.symm).symm
    | cons a as ih =>
      cases bs with
      | nil => simp at hlen
      | cons b bs =>
        have ha := a.toNat_le
        have hb := b.toNat_le
        rw [bitsValue, bitsValue] at h
        -- the lowest bit is the remainder by two
        have hbit : a = b := bit_inj (by omega)
        have hrest : as = bs := ih (Nat.succ.inj hlen) (by omega)
        rw [hbit, hrest]
  · rintro rfl
    rfl

/-- The feature bits agree for flag sets that have the same tracked features. -/
theorem featureBits_eq_iff :
    k.featureBits f = k.featureBits g ↔ ∀ x ∈ k.features, x.isActive f = x.isActive g := by
  rw [featureBits, featureBits, bitsValue_inj (by simp), List.map_inj_left]

theorem featureBits_lt (hk : k.features.length ≤ Feature.limit) :
    k.featureBits f < Nat.pow 2 Feature.limit := by
  have hlt := bitsValue_lt (k.features.map (·.isActive f))
  rw [List.length_map] at hlt
  exact Nat.lt_of_lt_of_le hlt (Nat.pow_le_pow_right (by decide) hk)

/-- A flag id tells its three fields, as long as the features keep to their limit. -/
theorem flagId_eq_iff (hk : k.features.length ≤ Feature.limit) :
    k.flagId f = k.flagId g ↔ (∀ x ∈ k.features, x.isActive f = x.isActive g) ∧
      k.variantBits f = k.variantBits g ∧ f.has FlagSet.width32 = g.has FlagSet.width32 := by
  rw [← featureBits_eq_iff]
  constructor
  · intro h
    have hf := featureBits_lt (f := f) hk
    have hg := featureBits_lt (f := g) hk
    have hvf : k.variantBits f < Nat.pow 2 31 := lowBits_lt 31 _
    have hvg : k.variantBits g < Nat.pow 2 31 := lowBits_lt 31 _
    have hwf := (f.has FlagSet.width32).toNat_le
    have hwg := (g.has FlagSet.width32).toNat_le
    rw [flagId, flagId] at h
    simp only [Feature.limit, Nat.pow_eq] at h hf hg hvf hvg
    exact ⟨by omega, by omega, bit_inj (by omega)⟩
  · rintro ⟨hfeatures, hvariant, hwidth⟩
    rw [flagId, flagId, hfeatures, hvariant, hwidth]

/-! ## Tracked features -/

theorem mem_track {features : List Feature} {token : String} {x : Feature} :
    x ∈ track features token ↔ x ∈ features ∨ x = .flag token := by
  rw [track]
  split
  next h =>
    have hmem : Feature.flag token ∈ features := by simpa using h
    constructor
    · exact Or.inl
    · rintro (hx | rfl)
      · exact hx
      · exact hmem
  next => simp

theorem mem_foldl_track {features : List Feature} {tokens : List String} {x : Feature} :
    x ∈ tokens.foldl track features ↔ x ∈ features ∨ ∃ token ∈ tokens, x = .flag token := by
  induction tokens generalizing features with
  | nil => simp
  | cons token tokens ih =>
    rw [List.foldl_cons, ih, mem_track]
    simp [or_assoc]

/-- A deriver with more tracked flags keeps its digest, and its features keep to their limit. -/
theorem withTracked_eq_ok_iff {tokens : List String} {l : KeyDeriver} :
    k.withTracked tokens = .ok l ↔ (tokens.foldl track k.features).length ≤ Feature.limit ∧
      l = ⟨k.digest, tokens.foldl track k.features⟩ := by
  rw [withTracked]
  by_cases h : Feature.limit < (tokens.foldl track k.features).length
  · simp [h, Nat.not_le.2 h]
  · simp [h, Nat.not_lt.1 h, eq_comm]

/-! ## Object names -/

/-- The directory of a derived key is a numeral, so the name tells the key. -/
theorem fileName_derive_inj :
    (k.derive s₁ f₁).fileName = (k.derive s₂ f₂).fileName ↔ k.derive s₁ f₁ = k.derive s₂ f₂ := by
  have hdash : ∀ s f, '-' ∉ (k.derive s f).directoryHash.toList := by
    intro s f
    simp only [derive, directoryHash]
    exact (Numeral.notMem_base36 _).1
  exact ObjectKey.fileName_inj (hdash s₁ f₁) (hdash s₂ f₂)

/-- Two objects have one name exactly if nothing that the name keeps tells them apart. -/
theorem fileName_derive_eq_iff (hk : k.features.length ≤ Feature.limit) :
    (k.derive s₁ f₁).fileName = (k.derive s₂ f₂).fileName ↔
      lowBits 32 (k.digest (directoryText s₁)) = lowBits 32 (k.digest (directoryText s₂)) ∧
      stem s₁ = stem s₂ ∧
      (∀ x ∈ k.features, x.isActive f₁ = x.isActive f₂) ∧
      f₁.has FlagSet.width32 = f₂.has FlagSet.width32 ∧
      lowBits 31 (k.digest f₁.variant) = lowBits 31 (k.digest f₂.variant) := by
  rw [fileName_derive_inj]
  simp only [derive, ObjectKey.mk.injEq, directoryHash, Numeral.base36_inj, flagId_eq_iff hk,
    variantBits]
  constructor
  · rintro ⟨hdir, hstem, hfeatures, hvariant, hwidth⟩
    exact ⟨hdir, hstem, hfeatures, hwidth, hvariant⟩
  · rintro ⟨hdir, hstem, hfeatures, hwidth, hvariant⟩
    exact ⟨hdir, hstem, hfeatures, hvariant, hwidth⟩

/-- The name of an object, for a table of features that tracks `tokens` and for any digest: it tells the
directory and the variant as far as their digests do, the stem, every tracked feature and the 32-bit
width, and it depends on nothing else. -/
theorem derive_collision_law (digest : String → UInt64) (tokens : List String) (k : KeyDeriver)
    (hk : (standard digest).withTracked tokens = .ok k) :
    (∀ x, x ∈ k.features ↔ x ∈ Feature.defaults ∨ ∃ token ∈ tokens, x = .flag token) ∧
    (∀ s₁ s₂ f₁ f₂, (k.derive s₁ f₁).fileName = (k.derive s₂ f₂).fileName ↔
      lowBits 32 (digest (directoryText s₁)) = lowBits 32 (digest (directoryText s₂)) ∧
      stem s₁ = stem s₂ ∧
      (∀ x ∈ k.features, x.isActive f₁ = true ↔ x.isActive f₂ = true) ∧
      (FlagSet.width32 ∈ f₁.tokens ↔ FlagSet.width32 ∈ f₂.tokens) ∧
      lowBits 31 (digest f₁.variant) = lowBits 31 (digest f₂.variant)) ∧
    (∀ s f₁ f₂, f₁.variant = f₂.variant → f₁.compiler = f₂.compiler →
      (∀ t, .flag t ∈ k.features ∨ t = FlagSet.width32 → (t ∈ f₁.tokens ↔ t ∈ f₂.tokens)) →
      (k.derive s f₁).fileName = (k.derive s f₂).fileName) ∧
    (∀ s₁ s₂ f₁ f₂, (∃ x ∈ k.features, x.isActive f₁ ≠ x.isActive f₂) →
      (k.derive s₁ f₁).fileName ≠ (k.derive s₂ f₂).fileName) := by
  obtain ⟨hlimit, rfl⟩ := withTracked_eq_ok_iff.1 hk
  refine ⟨fun x => mem_foldl_track, ?_, ?_, ?_⟩
  · intro s₁ s₂ f₁ f₂
    rw [fileName_derive_eq_iff hlimit]
    simp only [← Bool.eq_iff_iff, ← FlagSet.has_eq_true_iff]
    rfl
  · intro s f₁ f₂ hvariant hcompiler htokens
    have hhas : ∀ t, .flag t ∈ tokens.foldl track Feature.defaults ∨ t = FlagSet.width32 →
        f₁.has t = f₂.has t := by
      intro t ht
      rw [Bool.eq_iff_iff, FlagSet.has_eq_true_iff, FlagSet.has_eq_true_iff]
      exact htokens t ht
    refine (fileName_derive_eq_iff hlimit).2 ⟨rfl, rfl, ?_, hhas _ (.inr rfl), by rw [hvariant]⟩
    intro x hx
    cases x with
    | flag token => exact hhas token (.inl hx)
    | compiler name => simp only [Feature.isActive, hcompiler]
  · rintro s₁ s₂ f₁ f₂ ⟨x, hx, hne⟩ h
    exact hne (((fileName_derive_eq_iff hlimit).1 h).2.2.1 x hx)

/-- Flags of a native build. -/
def Sample.native (tokens : List String) : FlagSet :=
  ⟨tokens, "", "native", "gcc"⟩

/-- The deriver in use, with one more flag. -/
def Sample.deriver : KeyDeriver :=
  ⟨Digest.Sha256.leadingWord, Feature.defaults ++ [.flag "-DFAST"]⟩

/-- Order, repetition and `-Wall` do not matter to a stem that looks like one with an id; the flag that
is tracked in addition does. -/
theorem sample_collision_law :
    (standard Digest.Sha256.leadingWord).withTracked ["-DFAST", "-O2"] = .ok Sample.deriver ∧
      (Sample.deriver.derive ⟨"src/a-1.c"⟩
          (Sample.native ["-Wall", "-O2", "-m32", "-O2"])).fileName =
        (Sample.deriver.derive ⟨"src/a-1"⟩ (Sample.native ["-m32", "-O2"])).fileName ∧
      (Sample.deriver.derive ⟨"src/a-1.c"⟩ (Sample.native ["-DFAST"])).fileName ≠
        (Sample.deriver.derive ⟨"src/a"⟩ (Sample.native [])).fileName := by
  have hk : (standard Digest.Sha256.leadingWord).withTracked ["-DFAST", "-O2"] =
      .ok Sample.deriver := rfl
  obtain ⟨-, hlaw, -, htoggle⟩ := derive_collision_law _ _ _ hk
  refine ⟨hk, (hlaw _ _ _ _).2 ⟨rfl, by decide, by decide, by decide, rfl⟩, htoggle _ _ _ _ ?_⟩
  exact ⟨.flag "-DFAST", by decide, by decide⟩

end KeyDeriver

end VariantBuild
