import VariantBuild.Binary64.Basic
/-!
# Binary64 numbers as decimal text

Reading takes a significand of at most 64 bits and scales it by powers of ten, each step rounded on
its own (`Magnitude.scale`). Writing takes the fewest digits that identify the number, and of those
the nearest (`shortest`); `Binary64.text` lays them out, positionally for moderate exponents and in
scientific notation otherwise.
-/

namespace VariantBuild

namespace Magnitude

/-! ## Reading -/

/-- The largest power of ten that is applied in one step. -/
def greatestStep : Nat := 308

/-- The magnitude nearest to a power of ten. -/
def powerOfTen? (k : Nat) : Option Magnitude :=
  round (Nat.pow 10 k) 1

/-- Divides by `10 ^ k`, in steps of at most `10 ^ 308`. Two full steps leave no 64-bit significand
above zero, so three are never needed. -/
def scaleDown (x : Magnitude) : Nat → Nat → Option Magnitude
  | 0, _ => some zero
  | steps + 1, k =>
    if k ≤ greatestStep then do x.div? (← powerOfTen? k)
    else if x.significand = 0 then some x
    else do scaleDown (← x.div? (← powerOfTen? greatestStep)) steps (k - greatestStep)

/-- `significand * 10 ^ exponent`, or nothing when the result is past the largest magnitude. -/
def scale (significand : Nat) (exponent : Int) : Option Magnitude := do
  let x ← ofNat? significand
  if exponent < 0 then x.scaleDown 3 (-exponent).toNat
  else if exponent.toNat ≤ greatestStep then x.mul? (← powerOfTen? exponent.toNat)
  else if significand = 0 then some x
  else none

/-! ## Writing -/

/-- `digits * 10 ^ exponent`. -/
structure Decimal where
  digits : Nat
  exponent : Int
deriving DecidableEq, Repr

/-- Compares `a / b` with `c / d`. -/
def fractionLe (a b : Nat × Nat) : Bool :=
  a.1 * b.2 ≤ b.1 * a.2

/-- A decimal as a quotient of natural numbers. -/
def Decimal.fraction (d : Decimal) : Nat × Nat :=
  if 0 ≤ d.exponent then (d.digits * Nat.pow 10 d.exponent.toNat, 1)
  else (d.digits, Nat.pow 10 (-d.exponent).toNat)

/-- The two ends of the interval of numbers that round to `x`: halfway to the neighbours on either
side. Below a power of two the neighbour is half as far. -/
def interval (x : Magnitude) : (Nat × Nat) × (Nat × Nat) :=
  let quarter (m : Nat) : Nat × Nat := fraction ⟨m, x.exponent - 2⟩
  let below := if x.significand = Nat.pow 2 52 ∧ leastExponent < x.exponent then 1 else 2
  (quarter (4 * x.significand - below), quarter (4 * x.significand + 2))

/-- Whether a decimal reads back as `x`; the ends of the interval count when the significand is
even. -/
def identifies (x : Magnitude) (d : Decimal) : Bool :=
  let (low, high) := x.interval
  if x.significand % 2 = 0 then fractionLe low d.fraction && fractionLe d.fraction high
  else !fractionLe d.fraction low && !fractionLe high d.fraction

/-- The best decimal with the given exponent: the nearer of the two neighbours of `x` that identify
it, the even one when both are equally near. -/
def onGrid? (x : Magnitude) (exponent : Int) : Option Decimal :=
  let (num, den) := x.fraction
  let (num, den) := if 0 ≤ exponent then (num, den * Nat.pow 10 exponent.toNat)
    else (num * Nat.pow 10 (-exponent).toNat, den)
  let q := num / den
  let nearest := if 2 * (num % den) < den ∨ (2 * (num % den) = den ∧ q % 2 = 0) then q else q + 1
  let other := if nearest = q then q + 1 else q
  [nearest, other].map (Decimal.mk · exponent) |>.find? (x.identifies ·)

/-- Tries ever finer grids, downwards from a decimal exponent. -/
def refine (x : Magnitude) : Nat → Int → Option Decimal
  | 0, _ => none
  | tries + 1, exponent =>
    match x.onGrid? exponent with
    | some d => some d
    | none => refine x tries (exponent - 1)

/-- The decimal with the fewest digits that identifies a positive magnitude. The search starts above
the magnitude's own decimal order, and eighteen digits are always enough. -/
def shortest (x : Magnitude) : Decimal :=
  let order := (x.significand.log2 : Int) + x.exponent
  (x.refine 24 (Int.fdiv (order * 30103) 100000 + 2)).getD ⟨0, 0⟩

end Magnitude

/-! ## Layout -/

/-- Digits with a point after `point` of them; positions without a digit are zeros. -/
def positional (digits : List Char) (point : Int) : List Char :=
  if point ≤ 0 then '0' :: '.' :: List.replicate (-point).toNat '0' ++ digits
  else
    let whole := digits.take point.toNat
    let fraction := digits.drop point.toNat
    whole ++ List.replicate (point.toNat - digits.length) '0' ++
      '.' :: (if fraction.isEmpty then ['0'] else fraction)

/-- One digit before the point, the others after it, and a signed exponent of ten. -/
def scientific (digits : List Char) (exponent : Int) : List Char :=
  let mantissa := match digits with
    | [] => []
    | [d] => [d]
    | d :: ds => d :: '.' :: ds
  let sign := if exponent < 0 then '-' else '+'
  mantissa ++ 'e' :: sign :: (toString exponent.natAbs).toList

/-- The text of a magnitude: positional when the first digit stands between `10 ^ -5` and `10 ^ 15`,
and with at least one digit after the point. -/
def Magnitude.text (x : Magnitude) : List Char :=
  if x.significand = 0 then ['0', '.', '0']
  else
    let d := x.shortest
    let digits := (toString d.digits).toList
    let point := d.exponent + digits.length
    if -5 < point ∧ point ≤ 16 then positional digits point else scientific digits (point - 1)

/-- The text of a number, with a sign also for negative zero. -/
def Binary64.text (x : Binary64) : List Char :=
  if x.negative then '-' :: x.magnitude.text else x.magnitude.text

end VariantBuild
