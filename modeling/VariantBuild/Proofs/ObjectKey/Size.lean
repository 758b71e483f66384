import VariantBuild.Proofs.Disk.Directories
import VariantBuild.Proofs.ObjectKey.Placement
/-!
# Sizes of object names

An object's name is longer than its stem, but not by much: both numerals in it are short, since the numbers
have thirty-two and sixty-four bits (`KeyDeriver.size_fileName_bounds`). So there are sources whose own names
the disk takes and whose objects' names it refuses: those with a stem of about 230 to 253 bytes.
-/

namespace VariantBuild

/-! ## Numerals -/

namespace Numeral

theorem size_digitChar : ∀ d < 36, (String.singleton (digitChar d)).utf8ByteSize = 1 := by
  decide

theorem digitChar_ne_nul : ∀ d < 36, digitChar d ≠ Char.ofNat 0 := by
  decide

theorem base36_of_lt {n : Nat} (h : n < 36) : base36 n = String.singleton (digitChar n) := by
  rw [base36, base36Digits_of_lt h, ← String.toList_inj]
  simp

theorem base36_of_le {n : Nat} (h : 36 ≤ n) :
    base36 n = base36 (n / 36) ++ String.singleton (digitChar (n % 36)) := by
  rw [base36, base36, base36Digits_of_le h, ← String.toList_inj]
  simp

theorem size_base36_pos (n : Nat) : 0 < (base36 n).utf8ByteSize := by
  rcases Nat.lt_or_ge n 36 with h | h
  · rw [base36_of_lt h, size_digitChar n h]
    decide
  · rw [base36_of_le h, String.utf8ByteSize_append, size_digitChar _ (Nat.mod_lt n (by decide))]
    omega

/-- A numeral has as many bytes as it has digits, and small numbers have few. -/
theorem size_base36_le {n k : Nat} (h : n < Nat.pow 36 (k + 1)) : (base36 n).utf8ByteSize ≤ k + 1 := by
  induction k generalizing n with
  | zero =>
    rw [base36_of_lt (by simpa using h), size_digitChar n (by simpa using h)]
  | succ k ih =>
    rcases Nat.lt_or_ge n 36 with hn | hn
    · rw [base36_of_lt hn, size_digitChar n hn]
      omega
    · have hquot : n / 36 < Nat.pow 36 (k + 1) := Nat.div_lt_of_lt_mul (by rwa [Nat.mul_comm])
      rw [base36_of_le hn, String.utf8ByteSize_append, size_digitChar _ (Nat.mod_lt n (by decide))]
      exact Nat.succ_le_succ (ih hquot)

theorem nul_notMem_base36 (n : Nat) : Char.ofNat 0 ∉ (base36 n).toList := by
  rw [base36, String.toList_ofList]
  induction n using base36Digits.induct with
  | case1 n h =>
    rw [base36Digits_of_lt h]
    simpa using (digitChar_ne_nul n h).symm
  | case2 n h ih =>
    rw [base36Digits_of_le (Nat.not_lt.1 h)]
    simpa [ih] using (digitChar_ne_nul (n % 36) (Nat.mod_lt n (by decide))).symm

end Numeral

/-! ## Names -/

namespace KeyDeriver

variable {k : KeyDeriver}

theorem flagId_lt (hk : k.features.length ≤ Feature.limit) (f : FlagSet) : k.flagId f < Nat.pow 2 64 := by
  have hfeatures := featureBits_lt (f := f) hk
  have hvariant : k.variantBits f < Nat.pow 2 31 := lowBits_lt 31 _
  have hwidth := (f.has FlagSet.width32).toNat_le
  rw [flagId]
  simp only [Feature.limit, Nat.pow_eq] at hfeatures hvariant ⊢
  omega

theorem length_features_default : default.features.length ≤ Feature.limit := by
  decide

theorem size_fileName_eq (k : KeyDeriver) (s : Path) (f : FlagSet) :
    (k.derive s f).fileName.utf8ByteSize = (k.directoryHash s).utf8ByteSize + (stem s).utf8ByteSize +
      (Numeral.base36 (k.flagId f)).utf8ByteSize + 4 := by
  have hdash : "-".utf8ByteSize = 1 := by decide
  have hpoint : ".".utf8ByteSize = 1 := by decide
  have hextension : ObjectKey.objectExtension.utf8ByteSize = 1 := by decide
  simp only [ObjectKey.fileName, ObjectKey.text, derive, String.utf8ByteSize_append, hdash, hpoint,
    hextension]
  omega

/-- A name has six to twenty-four bytes more than its stem. -/
theorem size_fileName_bounds (hk : k.features.length ≤ Feature.limit) (s : Path) (f : FlagSet) :
    (stem s).utf8ByteSize + 6 ≤ (k.derive s f).fileName.utf8ByteSize ∧
      (k.derive s f).fileName.utf8ByteSize ≤ (stem s).utf8ByteSize + 24 := by
  have hhash : (k.directoryHash s).utf8ByteSize ≤ 7 :=
    Numeral.size_base36_le (Nat.lt_trans (lowBits_lt 32 _) (by decide))
  have hid : (Numeral.base36 (k.flagId f)).utf8ByteSize ≤ 13 :=
    Numeral.size_base36_le (Nat.lt_trans (flagId_lt hk f) (by decide))
  have hhash' : 0 < (k.directoryHash s).utf8ByteSize := Numeral.size_base36_pos _
  have hid' := Numeral.size_base36_pos (k.flagId f)
  rw [size_fileName_eq]
  omega

/-- A name holds a NUL only if its stem does. -/
theorem holdsNul_fileName (k : KeyDeriver) (s : Path) (f : FlagSet) :
    holdsNul (k.derive s f).fileName = holdsNul (stem s) := by
  have hhash : Char.ofNat 0 ∉ (k.directoryHash s).toList := Numeral.nul_notMem_base36 _
  have hid := Numeral.nul_notMem_base36 (k.flagId f)
  rw [Bool.eq_iff_iff, holdsNul, holdsNul, List.contains_iff_mem, List.contains_iff_mem,
    ObjectKey.toList_fileName]
  simp [derive, hhash, hid]

/-- The stem of a file in no directory. -/
theorem stem_append_c {head : String} (hname : Path.IsFileName (head ++ ".c")) (hhead : head ≠ "") :
    stem ⟨head ++ ".c"⟩ = head := by
  have hfile : Path.fileName? ⟨head ++ ".c"⟩ = some (head ++ ".c") := by
    rw [Path.fileName?, hname.components_eq]
    rfl
  rcases stem_cases hfile with ⟨-, h⟩ | ⟨-, hkeeps⟩
  · exact (append_c_inj h).symm
  · exact absurd (hkeeps head rfl) hhead

end KeyDeriver

/-! ## Paths -/

/-- The path of an object can be looked up: it holds no NUL if the directory and the stem hold none, and
it is only a little longer than both. -/
theorem ObjectCache.refusal?_objectPath_eq_none {c : ObjectCache} {source : Path}
    (habsolute : c.directory.isAbsolute = true) (hk : c.deriver.features.length ≤ Feature.limit)
    (hdirectory : holdsNul c.directory.text = false) (hstem : holdsNul (KeyDeriver.stem source) = false)
    (hsize : c.directory.text.utf8ByteSize + (KeyDeriver.stem source).utf8ByteSize + 24 <
      Disk.greatestPathSize) (f : FlagSet) : Disk.refusal? (c.objectPath source f) = none := by
  have hbound := (KeyDeriver.size_fileName_bounds hk source f).2
  rw [objectPath]
  refine Disk.refusal?_joinText_eq_none habsolute (c.deriver.isFileName_fileName source f) hdirectory ?_
    (by omega)
  rwa [KeyDeriver.holdsNul_fileName]

end VariantBuild
