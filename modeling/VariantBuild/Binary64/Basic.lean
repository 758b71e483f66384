/-!
# Binary64 magnitudes

A number outside the 64-bit integers is kept as a binary64: a significand below `2 ^ 53` times a
power of two. `Magnitude.round` is the one place where precision is lost; it goes to the nearest
representable value and, halfway, to the even one. Products, quotients and powers of ten are exact
rationals that are rounded once.
-/

namespace VariantBuild

/-- `significand * 2 ^ exponent`. -/
structure Magnitude where
  significand : Nat
  exponent : Int
deriving DecidableEq, Repr, Inhabited

/-- A finite binary64. -/
structure Binary64 where
  negative : Bool
  magnitude : Magnitude
deriving DecidableEq, Repr, Inhabited

namespace Magnitude

/-- The exponent of the smallest positive magnitude, and of zero. -/
def leastExponent : Int := -1074

/-- The exponent of the largest magnitudes. -/
def greatestExponent : Int := 971

/-- No magnitude. -/
def zero : Magnitude := ⟨0, leastExponent⟩

/-- A quotient to the nearest natural number, halves to the even one. -/
def divideToEven (num den : Nat) : Nat :=
  let q := num / den
  let r := num % den
  if 2 * r < den ∨ (2 * r = den ∧ q % 2 = 0) then q else q + 1

/-- The binary exponent of a positive quotient: the greatest `k` with `2 ^ k ≤ num / den`. -/
def binaryOrder (num den : Nat) : Int :=
  let k : Int := (num.log2 : Int) - den.log2
  let reaches := if 0 ≤ k then den * Nat.pow 2 k.toNat ≤ num else den ≤ num * Nat.pow 2 (-k).toNat
  if reaches then k else k - 1

/-- The nearest magnitude to `num / den`, or nothing when it is past the largest one. -/
def round (num den : Nat) : Option Magnitude :=
  if num = 0 then some zero
  else
    let e := max leastExponent (binaryOrder num den - 52)
    let m := if 0 ≤ e then divideToEven num (den * Nat.pow 2 e.toNat)
      else divideToEven (num * Nat.pow 2 (-e).toNat) den
    let (m, e) := if m = Nat.pow 2 53 then (Nat.pow 2 52, e + 1) else (m, e)
    if greatestExponent < e then none else some ⟨m, e⟩

/-- The magnitude as a quotient of natural numbers. -/
def fraction (x : Magnitude) : Nat × Nat :=
  if 0 ≤ x.exponent then (x.significand * Nat.pow 2 x.exponent.toNat, 1)
  else (x.significand, Nat.pow 2 (-x.exponent).toNat)

/-- The rounded product. -/
def mul? (x y : Magnitude) : Option Magnitude :=
  round (x.fraction.1 * y.fraction.1) (x.fraction.2 * y.fraction.2)

/-- The rounded quotient by a positive magnitude. -/
def div? (x y : Magnitude) : Option Magnitude :=
  round (x.fraction.1 * y.fraction.2) (x.fraction.2 * y.fraction.1)

/-- The magnitude nearest to a natural number. -/
def ofNat? (n : Nat) : Option Magnitude :=
  round n 1

/-- The magnitude nearest to `digits * 10 ^ exponent`, or nothing when it is past the largest one. Where
the place of the first digit alone settles the matter, the power is not worked out. -/
def ofDecimal? (digits : Nat) (exponent : Int) : Option Magnitude :=
  let order := exponent + (Nat.toDigits 10 digits).length
  if digits = 0 ∨ order ≤ -330 then some zero
  else if 310 ≤ order then none
  else if 0 ≤ exponent then round (digits * Nat.pow 10 exponent.toNat) 1
  else round digits (Nat.pow 10 (-exponent).toNat)

end Magnitude

end VariantBuild
