import VariantBuild.Binary64.Basic
/-!
# JSON values

Objects keep the order of their members: a member that is set again keeps its first place and takes
the last value. Numbers are exact integers of 64 bits, or binary64 numbers for all others.
-/

namespace VariantBuild

/-- A JSON value. -/
inductive Json where
  | null
  | boolean (value : Bool)
  | integer (value : Int)
  | double (value : Binary64)
  | string (value : String)
  | array (items : List Json)
  | object (members : List (String × Json))
deriving Inhabited, BEq

namespace Json

/-- The members of an object, in order. -/
abbrev Members := List (String × Json)

/-- Sets a member: in place if the name is there, and at the end otherwise. -/
def Members.set (name : String) (value : Json) : Members → Members
  | [] => [(name, value)]
  | (n, v) :: rest => if n = name then (n, value) :: rest else (n, v) :: set name value rest

/-- The names after a member is set. -/
theorem Members.names_set (name : String) (value : Json) (ms : Members) :
    (ms.set name value).map (·.1) =
      if name ∈ ms.map (·.1) then ms.map (·.1) else ms.map (·.1) ++ [name] := by
  induction ms with
  | nil => simp [Members.set]
  | cons m ms ih =>
    by_cases h : m.1 = name
    · simp [Members.set, h]
    · have h' : name ≠ m.1 := fun e => h e.symm
      simp only [Members.set, h, if_false, List.map_cons, List.mem_cons, h', false_or, ih]
      split <;> simp

/-- Integers that are kept exactly: those of 64 bits, signed or unsigned. -/
def leastInteger : Int := -9223372036854775808

/-- One past the greatest exact integer. -/
def integerBound : Nat := 18446744073709551616

end Json

end VariantBuild
