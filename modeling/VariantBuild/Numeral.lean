/-!
# Numerals

Base 36 for the hash parts of object names, and the reader of unsigned decimal numbers that the
command line and the environment share.
-/

namespace VariantBuild.Numeral

/-- The digits `0` to `9`, then `a` to `z`. -/
def digitChar (d : Nat) : Char :=
  if d < 10 then Char.ofNat (48 + d) else Char.ofNat (87 + d)

/-- The base-36 digits of a number, most significant first and at least one. -/
def base36Digits (n : Nat) : List Char :=
  if n < 36 then [digitChar n] else base36Digits (n / 36) ++ [digitChar (n % 36)]
decreasing_by omega

/-- The base-36 numeral of a number. -/
def base36 (n : Nat) : String :=
  String.ofList (base36Digits n)

/-- The digits `0` to `9`. -/
def isDigit (c : Char) : Bool :=
  '0' ≤ c && c ≤ '9'

/-- The value of a decimal digit. -/
def digitValue (c : Char) : Nat :=
  c.toNat - 48

/-- The number that a list of decimal digits writes. -/
def ofDigits (cs : List Char) : Nat :=
  cs.foldl (fun n c => 10 * n + digitValue c) 0

/-- A decimal numeral below `bound`: at least one digit, after an optional plus sign. -/
def unsigned? (bound : Nat) (text : String) : Option Nat :=
  let digits := match text.toList with
    | '+' :: rest => rest
    | cs => cs
  if digits.isEmpty || !digits.all isDigit then none
  else
    let n := ofDigits digits
    if n < bound then some n else none

end VariantBuild.Numeral
