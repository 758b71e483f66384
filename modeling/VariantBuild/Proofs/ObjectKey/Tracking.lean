import Mathlib.Algebra.Ring.Nat
import Mathlib.Data.List.Infix
import Mathlib.Data.Finset.Dedup
import Mathlib.Data.Finset.Card
import VariantBuild.ObjectCache
import VariantBuild.Proofs.ObjectKey.Collision
/-!
# Tables of tracked features

A table is extended token by token. A token that is no feature yet takes the next free bit, so the features
of a table stay where they are when more are tracked (`foldl_track_eq`), and the flag id of an extended table
is the one of the default table with bits added (`withTracked_extends`).

Whether there is room is asked only after all tokens were taken in. That is early enough: a deriver exists only
for tables of at most thirty-two features, and the bits from the thirty-second on are those of the variant
and the width (`testBit_flagId_eq`).
-/

namespace VariantBuild.KeyDeriver

variable {features : List Feature} {tokens : List String} {t : String} {k : KeyDeriver} {f : FlagSet}

/-! ## New flags -/

/-- The flags among some tokens that a table does not have, each where it occurs first. -/
def newFlags (features : List Feature) (tokens : List String) : List String :=
  (tokens.filter fun t => Feature.flag t ∉ features).eraseDups

theorem mem_newFlags_iff : t ∈ newFlags features tokens ↔ t ∈ tokens ∧ .flag t ∉ features := by
  rw [newFlags, List.mem_eraseDups, List.mem_filter, decide_eq_true_iff]

/-- One more token is a new flag unless it is a feature or came before. -/
theorem newFlags_concat (features : List Feature) (tokens : List String) (t : String) :
    newFlags features (tokens ++ [t]) =
      if .flag t ∈ features ∨ t ∈ tokens then newFlags features tokens
      else newFlags features tokens ++ [t] := by
  rw [newFlags, List.filter_append, List.eraseDups_append]
  by_cases hfeature : Feature.flag t ∈ features
  · simp [hfeature, newFlags, List.removeAll]
  · by_cases htoken : t ∈ tokens
    · simp [hfeature, htoken, newFlags, List.removeAll]
    · simp [hfeature, htoken, newFlags, List.removeAll, List.eraseDups_cons]

/-- New flags come in the order in which they occur first. -/
theorem pairwise_newFlags (features : List Feature) (tokens : List String) :
    (newFlags features tokens).Pairwise fun a b => tokens.idxOf a < tokens.idxOf b := by
  induction tokens using List.reverseRecOn with
  | nil => exact .nil
  | append_singleton tokens t ih =>
    have hkeep : (newFlags features tokens).Pairwise fun a b =>
        (tokens ++ [t]).idxOf a < (tokens ++ [t]).idxOf b := by
      refine ih.imp_of_mem fun ha hb hlt => ?_
      rwa [List.idxOf_append_of_mem (mem_newFlags_iff.1 ha).1,
        List.idxOf_append_of_mem (mem_newFlags_iff.1 hb).1]
    rw [newFlags_concat]
    split
    next => exact hkeep
    next hnew =>
      rw [not_or] at hnew
      refine List.pairwise_append.2 ⟨hkeep, List.pairwise_singleton _ t, fun a ha b hb => ?_⟩
      obtain rfl := List.mem_singleton.1 hb
      have ha := (mem_newFlags_iff.1 ha).1
      rw [List.idxOf_append_of_mem ha, List.idxOf_append_of_notMem hnew.2]
      exact Nat.lt_add_right _ (List.idxOf_lt_length_iff.2 ha)

theorem nodup_newFlags (features : List Feature) (tokens : List String) :
    (newFlags features tokens).Nodup := by
  refine (pairwise_newFlags features tokens).imp ?_
  rintro a b hlt rfl
  exact Nat.lt_irrefl _ hlt

theorem length_newFlags (features : List Feature) (tokens : List String) :
    (newFlags features tokens).length = {t ∈ tokens.toFinset | Feature.flag t ∉ features}.card := by
  rw [← List.toFinset_card_of_nodup (nodup_newFlags features tokens)]
  congr 1
  ext t
  rw [List.mem_toFinset, mem_newFlags_iff, Finset.mem_filter, List.mem_toFinset]

/-- Tracking puts the new flags behind the features that are there. -/
theorem foldl_track_eq (features : List Feature) (tokens : List String) :
    tokens.foldl track features = features ++ (newFlags features tokens).map .flag := by
  induction tokens using List.reverseRecOn with
  | nil => simp [newFlags]
  | append_singleton tokens t ih =>
    have hmem : Feature.flag t ∈ features ++ (newFlags features tokens).map Feature.flag ↔
        .flag t ∈ features ∨ t ∈ tokens := by
      rw [List.mem_append, List.mem_map_of_injective fun a b h => Feature.flag.inj h, mem_newFlags_iff]
      tauto
    rw [List.foldl_append, ih, List.foldl_cons, List.foldl_nil, track, newFlags_concat]
    simp only [List.contains_iff_mem, hmem]
    split
    · rfl
    · rw [List.map_append, List.append_assoc]
      rfl

/-- The table with its new flags, whether there is room for them or not. -/
def extended (k : KeyDeriver) (tokens : List String) : KeyDeriver :=
  ⟨k.digest, k.features ++ (newFlags k.features tokens).map .flag⟩

theorem withTracked_eq (k : KeyDeriver) (tokens : List String) : k.withTracked tokens =
    if Feature.limit < (k.extended tokens).features.length then
      .error (.tooManyTracked (k.extended tokens).features.length Feature.limit)
    else .ok (k.extended tokens) := by
  rw [withTracked, foldl_track_eq]
  rfl

/-- Tracking more flags later is tracking all of them at once. -/
theorem extended_extended (k : KeyDeriver) (tokens more : List String) :
    (k.extended tokens).extended more = k.extended (tokens ++ more) := by
  simp only [extended, ← foldl_track_eq, List.foldl_append]

theorem length_extended (k : KeyDeriver) (tokens : List String) :
    (k.extended tokens).features.length =
      k.features.length + {t ∈ tokens.toFinset | Feature.flag t ∉ k.features}.card := by
  rw [extended, List.length_append, List.length_map, length_newFlags]

theorem nodup_extended (hk : k.features.Nodup) (tokens : List String) :
    (k.extended tokens).features.Nodup := by
  refine List.nodup_append.2 ⟨hk, ?_, ?_⟩
  · exact (nodup_newFlags k.features tokens).map fun a b h => Feature.flag.inj h
  · rintro x hx y hy rfl
    obtain ⟨t, ht, rfl⟩ := List.mem_map.1 hy
    exact (mem_newFlags_iff.1 ht).2 hx

/-! ## Bits of flag ids -/

theorem testBit_bitsValue (bs : List Bool) (i : Nat) : (bitsValue bs).testBit i = (bs[i]?.getD false) := by
  induction bs generalizing i with
  | nil => simp [bitsValue]
  | cons b bs ih =>
    have hb := b.toNat_le
    cases i with
    | zero =>
      rw [bitsValue, Nat.testBit_zero]
      cases b <;> simp
    | succ i =>
      have hhalf : (b.toNat + 2 * bitsValue bs) / 2 = bitsValue bs := by omega
      rw [bitsValue, Nat.testBit_succ, hhalf, ih]
      rfl

theorem bitsValue_append (as bs : List Bool) :
    bitsValue (as ++ bs) = bitsValue as + Nat.pow 2 as.length * bitsValue bs := by
  induction as with
  | nil => simp [bitsValue]
  | cons a as ih =>
    rw [List.cons_append, bitsValue, bitsValue, ih, List.length_cons, Nat.pow_eq, Nat.pow_eq, Nat.pow_succ',
      Nat.mul_assoc, Nat.mul_add, Nat.add_assoc]

/-- The bits of a flag id from the thirty-second on: those of the variant, and the width. -/
def upperBits (k : KeyDeriver) (f : FlagSet) : Nat :=
  k.variantBits f + Nat.pow 2 31 * (f.has FlagSet.width32).toNat

theorem flagId_eq (k : KeyDeriver) (f : FlagSet) :
    k.flagId f = Nat.pow 2 32 * k.upperBits f + k.featureBits f := by
  rw [flagId, upperBits]
  simp only [Nat.pow_eq]
  omega

/-- The bit of a feature is set exactly if the feature is active, and no feature has a bit above. -/
theorem testBit_flagId_eq (hk : k.features.length ≤ Feature.limit) (f : FlagSet) (i : Nat) :
    (k.flagId f).testBit i =
      if i < 32 then (k.features[i]?.map (·.isActive f)).getD false else (k.upperBits f).testBit (i - 32) := by
  have hlt : k.featureBits f < 2 ^ 32 := featureBits_lt hk
  rw [flagId_eq, Nat.pow_eq, Nat.testBit_two_pow_mul_add _ hlt, featureBits, testBit_bitsValue,
    List.getElem?_map]

/-- The value of the bits of some flags in a flag set, of which the first has a given place. -/
def bitsOf (f : FlagSet) (flags : List String) (place : Nat) : Nat :=
  ((flags.zipIdx place).map fun (t, i) => if f.has t then 2 ^ i else 0).sum

theorem bitsOf_cons (f : FlagSet) (t : String) (flags : List String) (place : Nat) :
    bitsOf f (t :: flags) place = (if f.has t then 2 ^ place else 0) + bitsOf f flags (place + 1) := rfl

theorem bitsOf_eq (f : FlagSet) (flags : List String) (place : Nat) :
    bitsOf f flags place = 2 ^ place * bitsValue (flags.map f.has) := by
  induction flags generalizing place with
  | nil => rfl
  | cons t flags ih =>
    rw [bitsOf_cons, ih, List.map_cons, bitsValue, Nat.mul_add, Nat.pow_succ, Nat.mul_assoc]
    cases f.has t <;> simp

theorem bitsOf_eq_zero {flags : List String} (h : ∀ t ∈ flags, t ∉ f.tokens) (place : Nat) :
    bitsOf f flags place = 0 := by
  induction flags generalizing place with
  | nil => rfl
  | cons t flags ih =>
    obtain ⟨ht, hflags⟩ := List.forall_mem_cons.1 h
    rw [bitsOf_cons, FlagSet.has_eq_false_iff.2 ht, ih hflags]
    rfl

/-- New flags only add their bits. -/
theorem flagId_extended (k : KeyDeriver) (tokens : List String) (f : FlagSet) :
    (k.extended tokens).flagId f =
      k.flagId f + bitsOf f (newFlags k.features tokens) k.features.length := by
  have hfeatures : (k.extended tokens).featureBits f =
      k.featureBits f + bitsOf f (newFlags k.features tokens) k.features.length := by
    rw [featureBits, extended, List.map_append, bitsValue_append, List.map_map, List.length_map,
      Nat.pow_eq, bitsOf_eq]
    rfl
  have hupper : (k.extended tokens).upperBits f = k.upperBits f := rfl
  rw [flagId_eq, flagId_eq, hfeatures, hupper, Nat.add_assoc]

/-- Which bits are added: those of the new flags that are active. -/
theorem testBit_flagId_extended (hlimit : (k.extended tokens).features.length ≤ Feature.limit)
    (f : FlagSet) (i : Nat) :
    ((k.extended tokens).flagId f).testBit i = true ↔ (k.flagId f).testBit i = true ∨
      ∃ t ∈ f.tokens, (t, i) ∈ (newFlags k.features tokens).zipIdx k.features.length := by
  have hlength : (k.extended tokens).features.length =
      k.features.length + (newFlags k.features tokens).length := by
    rw [extended, List.length_append, List.length_map]
  have hk : k.features.length ≤ Feature.limit := by omega
  have hplace : ∀ t, (t, i) ∈ (newFlags k.features tokens).zipIdx k.features.length ↔
      k.features.length ≤ i ∧ (newFlags k.features tokens)[i - k.features.length]? = some t :=
    fun t => List.mk_mem_zipIdx_iff_le_and_getElem?_sub
  rw [testBit_flagId_eq hlimit, testBit_flagId_eq hk]
  simp only [hplace]
  split
  next =>
    rcases Nat.lt_or_ge i k.features.length with hi | hi
    · rw [extended, List.getElem?_append_left hi]
      simp [Nat.not_le.2 hi]
    · have hnone : k.features[i]? = none := List.getElem?_eq_none hi
      rw [extended, List.getElem?_append_right hi, hnone, List.getElem?_map]
      cases hnew : (newFlags k.features tokens)[i - k.features.length]? with
      | none => simp
      | some t => simp [Feature.isActive, FlagSet.has_eq_true_iff, hi]
  next hi =>
    have hnone : (newFlags k.features tokens)[i - k.features.length]? = none := by
      refine List.getElem?_eq_none ?_
      rw [hlength, Feature.limit] at hlimit
      omega
    have hupper : (k.extended tokens).upperBits f = k.upperBits f := rfl
    simp [hnone, hupper]

/-! ## Extended tables -/

/-- What a deriver makes of the tokens that it tracks in addition. -/
structure Tracks (digest : String → UInt64) (tokens : List String) (k : KeyDeriver) : Prop where
  features_eq : k.features = Feature.defaults ++ (newFlags Feature.defaults tokens).map .flag
  mem_iff : ∀ t, t ∈ newFlags Feature.defaults tokens ↔ t ∈ tokens ∧ .flag t ∉ Feature.defaults
  ordered : (newFlags Feature.defaults tokens).Pairwise fun a b => tokens.idxOf a < tokens.idxOf b
  nodup : k.features.Nodup
  /-- Tokens that are tracked later might as well have been tracked at once. -/
  more : ∀ later, k.withTracked later = (standard digest).withTracked (tokens ++ later)
  flagId_eq : ∀ f, k.flagId f = (standard digest).flagId f +
    bitsOf f (newFlags Feature.defaults tokens) Feature.defaults.length
  testBit_iff : ∀ f i, (k.flagId f).testBit i = true ↔
    ((standard digest).flagId f).testBit i = true ∨ ∃ t ∈ f.tokens,
      (t, i) ∈ (newFlags Feature.defaults tokens).zipIdx Feature.defaults.length
  unused : ∀ f, (∀ t ∈ newFlags Feature.defaults tokens, t ∉ f.tokens) →
    k.flagId f = (standard digest).flagId f ∧ ∀ directory source,
      ObjectCache.objectPath ⟨directory, k⟩ source f =
        ObjectCache.objectPath ⟨directory, standard digest⟩ source f
  /-- Every feature has its bit below the thirty-second. -/
  room : ∀ x i, (x, i) ∈ k.features.zipIdx → i < 32
  /-- The bits from there on are those of a table without features. -/
  upper : ∀ f i, 32 ≤ i → (k.flagId f).testBit i = ((⟨digest, []⟩ : KeyDeriver).flagId f).testBit i

theorem tracks_extended (digest : String → UInt64) {tokens : List String}
    (hlimit : ((standard digest).extended tokens).features.length ≤ Feature.limit) :
    Tracks digest tokens ((standard digest).extended tokens) where
  features_eq := rfl
  mem_iff t := mem_newFlags_iff
  ordered := pairwise_newFlags _ _
  nodup := nodup_extended (show Feature.defaults.Nodup by decide) tokens
  more later := by
    rw [withTracked_eq, withTracked_eq, extended_extended]
  flagId_eq := flagId_extended _ _
  testBit_iff := testBit_flagId_extended hlimit
  unused f hf := by
    have hid : ((standard digest).extended tokens).flagId f = (standard digest).flagId f := by
      rw [flagId_extended]
      exact Nat.add_eq_left.2 (bitsOf_eq_zero hf _)
    refine ⟨hid, fun directory source => ?_⟩
    simp only [ObjectCache.objectPath, derive, hid]
    rfl
  room x i hi := by
    obtain ⟨-, hlt, -⟩ := List.mem_zipIdx hi
    rw [Feature.limit] at hlimit
    omega
  upper f i hi := by
    rw [testBit_flagId_eq hlimit, testBit_flagId_eq (Nat.zero_le _), if_neg (Nat.not_lt.2 hi),
      if_neg (Nat.not_lt.2 hi)]
    rfl

/-- A table takes any tokens for which it has room, each once and in the order in which they occur first; more
tokens can be tracked later as well as at once, and a flag id only gains the bits of new flags that are
active. -/
theorem withTracked_extends (digest : String → UInt64) (tokens : List String) :
    let count := Feature.defaults.length + {t ∈ tokens.toFinset | Feature.flag t ∉ Feature.defaults}.card
    ((∃ k, (standard digest).withTracked tokens = .ok k) ↔ count ≤ 32) ∧
    (32 < count → (standard digest).withTracked tokens = .error (.tooManyTracked count 32)) ∧
    ∀ k, (standard digest).withTracked tokens = .ok k → Tracks digest tokens k := by
  intro count
  have hcount : ((standard digest).extended tokens).features.length = count := length_extended _ tokens
  rcases Nat.lt_or_ge 32 count with hfull | hroom
  · have herror : (standard digest).withTracked tokens = .error (.tooManyTracked count 32) := by
      rw [withTracked_eq, hcount, Feature.limit, if_pos hfull]
    simp [herror, hfull]
  · have hok : (standard digest).withTracked tokens = .ok ((standard digest).extended tokens) := by
      rw [withTracked_eq, hcount, Feature.limit, if_neg (Nat.not_lt.2 hroom)]
    refine ⟨iff_of_true ⟨_, hok⟩ hroom, fun hfull => absurd hroom (Nat.not_le.2 hfull), ?_⟩
    intro k hk
    obtain rfl : (standard digest).extended tokens = k := Except.ok.inj (hok.symm.trans hk)
    exact tracks_extended digest (hcount.trans_le hroom)

namespace Sample

/-- So many different tokens, none of which is a default feature. -/
def fresh (count : Nat) : List String :=
  (List.range count).map fun i => String.ofList (List.replicate (i + 1) 'x')

/-- The digest in use. -/
def digest : String → UInt64 := Digest.Sha256.leadingWord

end Sample

/-- A repeated token and a default flag take no bit, the name of a compiler takes one as any flag does, twenty
new flags fill the table to its last bit, and one more is refused. -/
theorem sample_extends :
    (standard Sample.digest).withTracked ["-DFAST", "emcc", "-O2", "-DFAST"] =
        .ok ⟨Sample.digest, Feature.defaults ++ [.flag "-DFAST", .flag "emcc"]⟩ ∧
    (⟨Sample.digest, Feature.defaults ++ [.flag "-DFAST", .flag "emcc"]⟩ : KeyDeriver).flagId
        (Sample.native ["-O2", "emcc"]) =
      (standard Sample.digest).flagId (Sample.native ["-O2", "emcc"]) + 2 ^ 13 ∧
    (∃ k, (standard Sample.digest).withTracked (Sample.fresh 20) = .ok k) ∧
    (standard Sample.digest).withTracked (Sample.fresh 21) = .error (.tooManyTracked 33 32) := by
  have hk : (standard Sample.digest).withTracked ["-DFAST", "emcc", "-O2", "-DFAST"] =
      .ok ⟨Sample.digest, Feature.defaults ++ [.flag "-DFAST", .flag "emcc"]⟩ := rfl
  obtain ⟨-, -, htracks⟩ := withTracked_extends Sample.digest ["-DFAST", "emcc", "-O2", "-DFAST"]
  obtain ⟨hroom, -, -⟩ := withTracked_extends Sample.digest (Sample.fresh 20)
  obtain ⟨-, hfull, -⟩ := withTracked_extends Sample.digest (Sample.fresh 21)
  have hcounts : Feature.defaults.length +
        {t ∈ (Sample.fresh 20).toFinset | Feature.flag t ∉ Feature.defaults}.card = 32 ∧
      Feature.defaults.length +
        {t ∈ (Sample.fresh 21).toFinset | Feature.flag t ∉ Feature.defaults}.card = 33 := by
    decide +kernel
  refine ⟨hk, (htracks _ hk).flagId_eq _, hroom.2 hcounts.1.le, ?_⟩
  rw [hfull (by rw [hcounts.2]; decide), hcounts.2]

end VariantBuild.KeyDeriver
