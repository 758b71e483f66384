import Mathlib.Data.List.Basic
import VariantBuild.Json.Parser
import VariantBuild.Json.Printer
/-!
# Numbers in JSON

A number ends where its text cannot go on. A reader of a part of a number is `Steady`: what it reads does
not depend on what follows, as long as that is the end, a comma or a line break, which is all that the
indented layout puts behind a value.

An integer of 64 bits is read from its decimal digits as itself. A binary64 is written with the fewest
digits that identify it, and the reader rounds step by step, so that it need not come back:
`Binary64.ReadsBack` says of one number that it does.
-/

namespace VariantBuild

open Numeral (isDigit digitValue)

/-! ## Decimal digits -/

theorem isDigit_of_mem_toDigits {n : Nat} {c : Char} (hc : c ∈ Nat.toDigits 10 n) : isDigit c = true := by
  have h := Nat.isDigit_of_mem_toDigits (by decide) (by decide) hc
  simpa [isDigit, Char.isDigit, Char.le_def] using h

/-- The digits of a positive number do not start with a zero. -/
theorem exists_toDigits_eq_cons {n : Nat} (h : 0 < n) :
    ∃ c ds, Nat.toDigits 10 n = c :: ds ∧ c ≠ '0' := by
  induction n using Nat.strongRecOn with
  | _ n ih =>
    rcases Nat.lt_or_ge n 10 with hlt | hge
    · have hall : ∀ m < 10, 0 < m → Nat.digitChar m ≠ '0' := by decide
      exact ⟨_, _, Nat.toDigits_of_lt_base hlt, hall n hlt h⟩
    · obtain ⟨c, ds, hdigits, hc⟩ := ih (n / 10) (by omega) (by omega)
      exact ⟨c, _, by rw [Nat.toDigits_of_base_le (by decide) hge, hdigits, List.cons_append], hc⟩

namespace Json

/-- Digits whose number stays below 64 bits are all taken. -/
theorem takeDigits_eq {s : Nat} {ds : List Char} (h : Nat.ofDigitChars 10 ds s < integerBound) :
    takeDigits s ds = (Nat.ofDigitChars 10 ds s, ds.length) := by
  induction ds generalizing s with
  | nil => rfl
  | cons d ds ih =>
    have hnext : 10 * s + (d.toNat - '0'.toNat) = s * 10 + digitValue d := by
      rw [Nat.mul_comm]
      rfl
    rw [Nat.ofDigitChars_cons, hnext] at h ⊢
    -- what has been taken stays below the whole number
    have hle : s * 10 + digitValue d ≤ Nat.ofDigitChars 10 ds (s * 10 + digitValue d) := by
      rw [Nat.ofDigitChars_eq_ofDigitChars_zero]
      exact Nat.le_trans (Nat.le_mul_of_pos_left _ (Nat.pow_pos (by decide))) (Nat.le_add_right _ _)
    rw [takeDigits, if_pos (by omega), ih h]
    rfl

/-- The significand that is taken has at most 64 bits. -/
theorem takeDigits_lt {s : Nat} (hs : s < integerBound) (ds : List Char) :
    (takeDigits s ds).1 < integerBound := by
  induction ds generalizing s with
  | nil => exact hs
  | cons d ds ih =>
    rw [takeDigits]
    split
    next h => exact ih h
    next => exact hs

/-! ## What may follow a value -/

/-- Nothing follows, or what the indented layout puts behind a value. -/
def Closed (rest : List Char) : Prop :=
  rest.head? = none ∨ rest.head? = some ',' ∨ rest.head? = some '\n'

theorem closed_nil : Closed [] :=
  .inl rfl

theorem closed_comma (rest : List Char) : Closed (',' :: rest) :=
  .inr (.inl rfl)

theorem closed_lineStart (level : Nat) (rest : List Char) : Closed (lineStart level ++ rest) :=
  .inr (.inr rfl)

/-- Reads the same and stops at the same place when a closed text follows. -/
def Steady {α : Type} (reader : Reader α) : Prop :=
  ∀ ⦃cs x tail⦄, reader cs = some (x, tail) →
    ∀ ⦃rest⦄, Closed rest → reader (cs ++ rest) = some (x, tail ++ rest)

theorem Closed.takeWhile_isDigit {rest : List Char} (h : Closed rest) : rest.takeWhile isDigit = [] := by
  cases rest with
  | nil => rfl
  | cons c rest =>
    rcases h with h | h | h <;> cases h <;> rfl

theorem takeWhile_isDigit_append {cs rest : List Char} (h : Closed rest) :
    (cs ++ rest).takeWhile isDigit = cs.takeWhile isDigit := by
  rw [List.takeWhile_append, h.takeWhile_isDigit, List.append_nil]
  split
  next hlen => exact ((List.takeWhile_prefix _).eq_of_length hlen).symm
  next => rfl

theorem dropWhile_isDigit_append {cs rest : List Char} (h : Closed rest) :
    (cs ++ rest).dropWhile isDigit = cs.dropWhile isDigit ++ rest := by
  have hcut := List.takeWhile_append_dropWhile (p := isDigit) (l := cs ++ rest)
  rw [takeWhile_isDigit_append h] at hcut
  refine List.append_cancel_left (hcut.trans ?_)
  rw [← List.append_assoc, List.takeWhile_append_dropWhile]

/-! ## The parts of a number -/

theorem readDigits_steady : Steady readDigits := by
  intro cs ds tail h rest hrest
  rw [readDigits] at h ⊢
  rw [takeWhile_isDigit_append hrest, dropWhile_isDigit_append hrest]
  split at h
  next => cases h
  next hne =>
    cases h
    rw [if_neg hne]

/-- Digits are read up to a closed text. -/
theorem readDigits_append {ds rest : List Char} (hne : ds ≠ []) (hds : ∀ c ∈ ds, isDigit c = true)
    (hrest : Closed rest) : readDigits (ds ++ rest) = some (ds, rest) := by
  have hdrop : (ds ++ []).dropWhile isDigit = [] := List.dropWhile_append_of_pos hds
  rw [List.append_nil] at hdrop
  rw [readDigits, List.takeWhile_append_of_pos hds, hrest.takeWhile_isDigit, List.append_nil,
    dropWhile_isDigit_append hrest, hdrop, if_neg (by simpa), List.nil_append]

theorem readWhole_of_ne {c : Char} (h : c ≠ '0') (cs : List Char) :
    readWhole (c :: cs) = readDigits (c :: cs) := by
  rw [readWhole]
  simpa using h

theorem readWhole_steady : Steady readWhole := by
  intro cs ds tail h rest hrest
  cases cs with
  | nil => cases h
  | cons c cs =>
    by_cases hc : c = '0'
    · subst hc
      cases h
      rfl
    · rw [readWhole_of_ne hc] at h
      rw [List.cons_append, readWhole_of_ne hc]
      exact readDigits_steady h hrest

theorem readFraction_of_closed {rest : List Char} (h : Closed rest) :
    readFraction rest = some (none, rest) := by
  cases rest with
  | nil => rfl
  | cons c rest =>
    rcases h with h | h | h <;> cases h <;> rfl

theorem readFraction_steady : Steady readFraction := by
  intro cs ds tail h rest hrest
  cases cs with
  | nil =>
    cases h
    exact readFraction_of_closed hrest
  | cons c cs =>
    by_cases hc : c = '.'
    · subst hc
      obtain ⟨⟨ds', tail'⟩, hdigits, heq⟩ := Option.map_eq_some_iff.1 h
      cases heq
      exact Option.map_eq_some_iff.2 ⟨_, readDigits_steady hdigits hrest, rfl⟩
    · have hnone : ∀ cs, readFraction (c :: cs) = some (none, c :: cs) := by
        intro cs
        rw [readFraction]
        simpa using hc
      rw [hnone] at h
      cases h
      exact hnone _

theorem readExponent_of_closed {rest : List Char} (h : Closed rest) :
    readExponent rest = some (none, rest) := by
  cases rest with
  | nil => rfl
  | cons c rest =>
    rcases h with h | h | h <;> cases h <;> rfl

/-- The digits of an exponent, after its sign if there is one. -/
theorem readExponent_cons_cons {c : Char} (hc : c = 'e' ∨ c = 'E') (d : Char) (ds : List Char) :
    readExponent (c :: d :: ds) = (readDigits (if d = '-' ∨ d = '+' then ds else d :: ds)).map
      fun (digits, rest) => (some (decide (d = '-'), digits), rest) := by
  by_cases hminus : d = '-'
  · subst hminus
    simp [readExponent, hc]
  · by_cases hplus : d = '+'
    · subst hplus
      simp [readExponent, hc]
    · simp [readExponent, hc, hminus, hplus]

theorem readExponent_steady : Steady readExponent := by
  intro cs e tail h rest hrest
  cases cs with
  | nil =>
    cases h
    exact readExponent_of_closed hrest
  | cons c cs =>
    by_cases hc : c = 'e' ∨ c = 'E'
    · cases cs with
      | nil => simp [readExponent, hc, readDigits] at h
      | cons d ds =>
        rw [readExponent_cons_cons hc] at h
        obtain ⟨⟨digits, tail'⟩, hdigits, heq⟩ := Option.map_eq_some_iff.1 h
        cases heq
        have hsteady := readDigits_steady hdigits hrest
        rw [List.cons_append, List.cons_append, readExponent_cons_cons hc]
        split
        next hsign =>
          rw [if_pos hsign] at hsteady
          rw [hsteady]
          rfl
        next hsign =>
          rw [if_neg hsign, List.cons_append] at hsteady
          rw [hsteady]
          rfl
    · have hnone : ∀ cs, readExponent (c :: cs) = some (none, c :: cs) := fun cs => if_neg hc
      rw [hnone] at h
      cases h
      exact hnone _

/-! ## Whole numbers -/

/-- A number after its sign. -/
def readUnsigned (negative : Bool) (cs : List Char) : Option (Json × List Char) := do
  let (whole, cs) ← readWhole cs
  let (fraction, cs) ← readFraction cs
  let (exponent, cs) ← readExponent cs
  let value ← NumberParts.value? ⟨negative, whole, fraction, exponent⟩
  some (value, cs)

theorem readNumber_minus (cs : List Char) : readNumber ('-' :: cs) = readUnsigned true cs :=
  rfl

theorem readNumber_of_ne {c : Char} (h : c ≠ '-') (cs : List Char) :
    readNumber (c :: cs) = readUnsigned false (c :: cs) := by
  rw [readNumber]
  · rfl
  · simpa using h

theorem readUnsigned_steady (negative : Bool) : Steady (readUnsigned negative) := by
  intro cs j tail h rest hrest
  obtain ⟨⟨whole, cs₁⟩, hwhole, h⟩ := Option.bind_eq_some_iff.1 h
  obtain ⟨⟨fraction, cs₂⟩, hfraction, h⟩ := Option.bind_eq_some_iff.1 h
  obtain ⟨⟨exponent, cs₃⟩, hexponent, h⟩ := Option.bind_eq_some_iff.1 h
  obtain ⟨value, hvalue, hlast⟩ := Option.bind_eq_some_iff.1 h
  cases hlast
  refine Option.bind_eq_some_iff.2 ⟨_, readWhole_steady hwhole hrest, ?_⟩
  refine Option.bind_eq_some_iff.2 ⟨_, readFraction_steady hfraction hrest, ?_⟩
  refine Option.bind_eq_some_iff.2 ⟨_, readExponent_steady hexponent hrest, ?_⟩
  exact Option.bind_eq_some_iff.2 ⟨_, hvalue, rfl⟩

theorem readNumber_steady : Steady readNumber := by
  intro cs j tail h rest hrest
  cases cs with
  | nil => cases h
  | cons c cs =>
    by_cases hc : c = '-'
    · subst hc
      exact readUnsigned_steady true h hrest
    · rw [readNumber_of_ne hc] at h
      rw [List.cons_append, readNumber_of_ne hc]
      exact readUnsigned_steady false h hrest

/-- A number starts with a sign or a digit. -/
theorem head_of_readNumber {cs : List Char} {r : Json × List Char} (h : readNumber cs = some r) :
    ∃ c rest, cs = c :: rest ∧ (c = '-' ∨ isDigit c = true) := by
  cases cs with
  | nil => cases h
  | cons c cs =>
    refine ⟨c, cs, rfl, ?_⟩
    by_cases hc : c = '-'
    · exact .inl hc
    · right
      rw [readNumber_of_ne hc] at h
      obtain ⟨⟨whole, tail⟩, hwhole, -⟩ := Option.bind_eq_some_iff.1 h
      by_cases hzero : c = '0'
      · subst hzero
        rfl
      · rw [readWhole_of_ne hzero] at hwhole
        by_contra hdigit
        simp [readDigits, hdigit] at hwhole

/-! ## Integers -/

theorem takeDigits_toDigits {n : Nat} (h : n < integerBound) :
    takeDigits 0 (Nat.toDigits 10 n) = (n, (Nat.toDigits 10 n).length) := by
  rw [takeDigits_eq (by rwa [Nat.ofDigitChars_ten_toDigits]), Nat.ofDigitChars_ten_toDigits]

theorem value?_natural {n : Nat} (h : n < integerBound) :
    NumberParts.value? ⟨false, Nat.toDigits 10 n, none, none⟩ = some (.integer n) := by
  simp [NumberParts.value?, takeDigits_toDigits h]

theorem value?_negative {n : Nat} (hpos : 0 < n) (h : leastInteger ≤ -(n : Int)) :
    NumberParts.value? ⟨true, Nat.toDigits 10 n, none, none⟩ = some (.integer (-(n : Int))) := by
  have hbound : n < integerBound := by
    simp only [leastInteger] at h
    simp only [integerBound]
    omega
  have hne : ¬(n = 0 ∨ -(n : Int) < leastInteger) := by omega
  simp [NumberParts.value?, takeDigits_toDigits hbound, hne]

theorem readUnsigned_toDigits {n : Nat} {negative : Bool} {j : Json}
    (h : NumberParts.value? ⟨negative, Nat.toDigits 10 n, none, none⟩ = some j) :
    readUnsigned negative (Nat.toDigits 10 n) = some (j, []) := by
  have hwhole : readWhole (Nat.toDigits 10 n) = some (Nat.toDigits 10 n, []) := by
    rcases Nat.eq_zero_or_pos n with rfl | hpos
    · rfl
    · obtain ⟨c, ds, hdigits, hc⟩ := exists_toDigits_eq_cons hpos
      have hread : readDigits (Nat.toDigits 10 n ++ []) = some (Nat.toDigits 10 n, []) :=
        readDigits_append (hdigits ▸ List.cons_ne_nil c ds) (fun c hc => isDigit_of_mem_toDigits hc)
          closed_nil
      rw [List.append_nil] at hread
      rw [hdigits] at hread ⊢
      rwa [readWhole_of_ne hc]
  simp [readUnsigned, hwhole, readFraction, readExponent, h]

/-- An integer of 64 bits is read from its text. -/
theorem readNumber_integer {n : Int} (hleast : leastInteger ≤ n) (hbound : n < integerBound) :
    readNumber (scalar (.integer n)) = some (.integer n, []) := by
  cases n with
  | ofNat m =>
    have htext : scalar (.integer (.ofNat m)) = Nat.toDigits 10 m := by
      change (toString (Int.ofNat m)).toList = _
      rw [Int.toString_eq_repr, Int.repr, Nat.repr_eq_ofList_toDigits, String.toList_ofList]
    obtain ⟨c, ds, hdigits⟩ := List.exists_cons_of_ne_nil (Nat.toDigits_ne_nil (n := m) (b := 10))
    have hc : c ≠ '-' := by
      rintro rfl
      have := isDigit_of_mem_toDigits (hdigits ▸ List.mem_cons_self)
      cases this
    rw [htext, hdigits, readNumber_of_ne hc, ← hdigits]
    exact readUnsigned_toDigits (value?_natural (by simpa using hbound))
  | negSucc m =>
    have htext : scalar (.integer (.negSucc m)) = '-' :: Nat.toDigits 10 (m + 1) := by
      change (toString (Int.negSucc m)).toList = _
      rw [Int.toString_eq_repr, Int.repr, Nat.repr_eq_ofList_toDigits, String.toList_append,
        String.toList_ofList, String.toList_ofList]
      rfl
    rw [htext, readNumber_minus]
    exact readUnsigned_toDigits (value?_negative m.succ_pos hleast)

/-! ## Binary64 -/

/-- The number that a value is, if it is a binary64. -/
def double? : Json → Option Binary64
  | .double x => some x
  | _ => none

theorem double?_eq_some_iff {j : Json} {x : Binary64} : j.double? = some x ↔ j = .double x := by
  cases j <;> simp [double?]

end Json

/-- The text of a number is read as the number itself. -/
def Binary64.ReadsBack (x : Binary64) : Prop :=
  Json.readNumber x.text = some (.double x, [])

theorem Binary64.readsBack_iff {x : Binary64} : x.ReadsBack ↔
    (Json.readNumber x.text).map (Prod.map Json.double? id) = some (some x, []) := by
  simp [ReadsBack, Prod.ext_iff, Json.double?_eq_some_iff]

instance (x : Binary64) : Decidable x.ReadsBack :=
  decidable_of_iff _ Binary64.readsBack_iff.symm

end VariantBuild
