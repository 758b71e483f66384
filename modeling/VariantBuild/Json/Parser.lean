import VariantBuild.Json.Basic
import VariantBuild.Binary64.Decimal
import VariantBuild.Numeral
/-!
# Reading JSON

`Json.parse` reads strict JSON: one value, blanks around it, nothing else. Arrays and objects may be
nested `Json.nesting` deep, which is what the recursion descends on; inside one container the items
are read by a loop bounded by the length of the input. Every reader returns what it read and the
rest of the input.
-/

namespace VariantBuild.Json

open Numeral (isDigit digitValue ofDigits)

/-- A reader of a prefix of the input. -/
abbrev Reader (α : Type) := List Char → Option (α × List Char)

/-- How deep containers may be nested. -/
def nesting : Nat := 127

/-- The four blanks of JSON. -/
def isSpace (c : Char) : Bool :=
  c == ' ' || c == '\t' || c == '\n' || c == '\r'

/-- The input after leading blanks. -/
def skipSpace (cs : List Char) : List Char :=
  cs.dropWhile isSpace

/-! ## Strings -/

/-- The value of a hexadecimal digit. -/
def hexValue? (c : Char) : Option Nat :=
  if isDigit c then some (digitValue c)
  else if 'a' ≤ c ∧ c ≤ 'f' then some (c.toNat - 87)
  else if 'A' ≤ c ∧ c ≤ 'F' then some (c.toNat - 55)
  else none

/-- The number that four hexadecimal digits write. -/
def readHex4 : Reader Nat
  | a :: b :: c :: d :: rest => do
    let a ← hexValue? a
    let b ← hexValue? b
    let c ← hexValue? c
    let d ← hexValue? d
    some (((a * 16 + b) * 16 + c) * 16 + d, rest)
  | _ => none

/-- The character of a `\u` escape, after its `u`; two escapes form a pair of surrogates, and a
surrogate on its own is refused. -/
def readUnicodeEscape (cs : List Char) : Option (Char × List Char) := do
  let (n, rest) ← readHex4 cs
  if n < 0xD800 ∨ 0xDFFF < n then some (Char.ofNat n, rest)
  else if 0xDC00 ≤ n then none
  else match rest with
    | '\\' :: 'u' :: rest => do
      let (m, rest) ← readHex4 rest
      if 0xDC00 ≤ m ∧ m ≤ 0xDFFF then
        some (Char.ofNat (0x10000 + (n - 0xD800) * 0x400 + (m - 0xDC00)), rest)
      else none
    | _ => none

/-- The character of an escape, after its backslash. -/
def readEscape : Reader Char
  | '"' :: rest => some ('"', rest)
  | '\\' :: rest => some ('\\', rest)
  | '/' :: rest => some ('/', rest)
  | 'b' :: rest => some (Char.ofNat 8, rest)
  | 'f' :: rest => some (Char.ofNat 12, rest)
  | 'n' :: rest => some ('\n', rest)
  | 'r' :: rest => some ('\r', rest)
  | 't' :: rest => some ('\t', rest)
  | 'u' :: rest => readUnicodeEscape rest
  | _ => none

/-- The characters of a string after its opening quote, up to and with the closing one. -/
def readChars : Nat → Reader (List Char)
  | 0, _ => none
  | _ + 1, [] => none
  | fuel + 1, c :: rest =>
    if c = '"' then some ([], rest)
    else if c = '\\' then do
      let (d, rest) ← readEscape rest
      let (ds, rest) ← readChars fuel rest
      some (d :: ds, rest)
    else if c.toNat < 0x20 then none
    else do
      let (ds, rest) ← readChars fuel rest
      some (c :: ds, rest)

/-- A string after its opening quote. -/
def readString (cs : List Char) : Option (String × List Char) := do
  let (ds, rest) ← readChars (cs.length + 1) cs
  some (String.ofList ds, rest)

/-! ## Numbers -/

/-- The parts of a number: its digits before and after the point, and its exponent. -/
structure NumberParts where
  negative : Bool
  whole : List Char
  fraction : Option (List Char)
  exponent : Option (Bool × List Char)

/-- Takes digits into a significand while it stays below 64 bits; the count is of the digits
taken. -/
def takeDigits (significand : Nat) : List Char → Nat × Nat
  | [] => (significand, 0)
  | d :: ds =>
    let next := significand * 10 + digitValue d
    if next < integerBound then
      let (s, n) := takeDigits next ds
      (s, n + 1)
    else (significand, 0)

/-- Exponents from here on decide the result by their sign alone. -/
def exponentBound : Nat := 2147483648

/-- The value of a number. A whole number of 64 bits is an integer, and negative zero is not. All
others are binary64: the digits that fit into 64 bits, scaled by a power of ten that counts the
whole digits left out and the fraction digits taken. -/
def NumberParts.value? (n : NumberParts) : Option Json :=
  let (s, taken) := takeDigits 0 n.whole
  let dropped := n.whole.length - taken
  let double (m : Magnitude) : Json := .double ⟨n.negative, m⟩
  if n.fraction.isNone ∧ n.exponent.isNone ∧ dropped = 0 then
    if !n.negative then some (.integer s)
    else if s = 0 ∨ -(s : Int) < leastInteger then (Magnitude.ofNat? s).map double
    else some (.integer (-(s : Int)))
  else
    let (s, places) := takeDigits s (n.fraction.getD [])
    let point : Int := dropped - places
    match n.exponent with
    | none => (Magnitude.scale s point).map double
    | some (isNegative, digits) =>
      let e := ofDigits digits
      if exponentBound ≤ e then if s = 0 ∨ isNegative then some (double .zero) else none
      else (Magnitude.scale s (if isNegative then point - e else point + e)).map double

/-- At least one digit. -/
def readDigits (cs : List Char) : Option (List Char × List Char) :=
  let digits := cs.takeWhile isDigit
  if digits.isEmpty then none else some (digits, cs.dropWhile isDigit)

/-- The digits before the point: a single zero, or digits that do not start with one. -/
def readWhole : Reader (List Char)
  | '0' :: rest => some (['0'], rest)
  | cs => readDigits cs

/-- The digits after a point, if there is one. -/
def readFraction : Reader (Option (List Char))
  | '.' :: rest => (readDigits rest).map fun (ds, rest) => (some ds, rest)
  | cs => some (none, cs)

/-- The exponent, if there is one: whether it is negative, and its digits. -/
def readExponent : Reader (Option (Bool × List Char))
  | c :: rest =>
    if c = 'e' ∨ c = 'E' then
      let (isNegative, rest) := match rest with
        | '-' :: rest => (true, rest)
        | '+' :: rest => (false, rest)
        | _ => (false, rest)
      (readDigits rest).map fun (ds, rest) => (some (isNegative, ds), rest)
    else some (none, c :: rest)
  | [] => some (none, [])

/-- A number. -/
def readNumber (cs : List Char) : Option (Json × List Char) := do
  let (negative, cs) := match cs with
    | '-' :: rest => (true, rest)
    | _ => (false, cs)
  let (whole, cs) ← readWhole cs
  let (fraction, cs) ← readFraction cs
  let (exponent, cs) ← readExponent cs
  let value ← NumberParts.value? ⟨negative, whole, fraction, exponent⟩
  some (value, cs)

/-! ## Containers -/

/-- Items up to and with the closing character, each read by `item` and separated by commas. The
input starts at an item. -/
def readItems {α : Type} (close : Char) (item : Reader α) : Nat → Reader (List α)
  | 0, _ => none
  | fuel + 1, cs => do
    let (x, cs) ← item (skipSpace cs)
    match skipSpace cs with
    | c :: rest =>
      if c = close then some ([x], rest)
      else if c = ',' then do
        let (xs, rest) ← readItems close item fuel rest
        some (x :: xs, rest)
      else none
    | [] => none

/-- A container after its opening character; an empty one holds blanks only. -/
def readContainer {α : Type} (close : Char) (item : Reader α) (cs : List Char) :
    Option (List α × List Char) :=
  match skipSpace cs with
  | c :: rest => if c = close then some ([], rest) else readItems close item cs.length (c :: rest)
  | [] => none

/-- A member: a name, a colon and a value. -/
def readMember (value : Reader Json) : Reader (String × Json)
  | '"' :: cs => do
    let (name, cs) ← readString cs
    match skipSpace cs with
    | ':' :: cs => do
      let (v, cs) ← value (skipSpace cs)
      some ((name, v), cs)
    | _ => none
  | _ => none

/-- Members in the order read; a repeated name keeps its first place and takes the last value. -/
def collect (members : List (String × Json)) : Members :=
  members.foldl (fun ms (name, value) => ms.set name value) []

/-- A value in which containers are nested at most `depth` deep. The input starts at the value. -/
def readValue : Nat → Reader Json
  | _, '"' :: cs => (readString cs).map fun (s, rest) => (.string s, rest)
  | 0, '[' :: _ => none
  | depth + 1, '[' :: cs =>
    (readContainer ']' (readValue depth) cs).map fun (xs, rest) => (.array xs, rest)
  | 0, '\x7b' :: _ => none
  | depth + 1, '\x7b' :: cs =>
    (readContainer '\x7d' (readMember (readValue depth)) cs).map fun (ms, rest) =>
      (.object (collect ms), rest)
  | _, 'n' :: 'u' :: 'l' :: 'l' :: rest => some (.null, rest)
  | _, 't' :: 'r' :: 'u' :: 'e' :: rest => some (.boolean true, rest)
  | _, 'f' :: 'a' :: 'l' :: 's' :: 'e' :: rest => some (.boolean false, rest)
  | _, cs => readNumber cs

/-- The value that a text writes, or nothing if it is not JSON. -/
def parse (text : String) : Option Json := do
  let (value, rest) ← readValue nesting (skipSpace text.toList)
  if (skipSpace rest).isEmpty then some value else none

end VariantBuild.Json
