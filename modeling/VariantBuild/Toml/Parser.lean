import VariantBuild.Toml.Basic
import VariantBuild.Binary64.Basic
import VariantBuild.Json.Parser
/-!
# Reading TOML

`Toml.parse` reads a document into the entries of its root table. A document is a sequence of lines:
headers and keys with values, with blanks and comments around them. Values may span lines inside
brackets and in multi-line strings. Any fault refuses the whole document.

Recursion descends on the depth of nesting, which is bounded (`Toml.nesting`), and otherwise on a
bound computed from the length of the input.
-/

namespace VariantBuild.Toml

open Numeral (isDigit digitValue ofDigits)
open Json (Reader hexValue? readHex4)

/-- How deep values may be nested, and one more than the parts a dotted key may have. -/
def nesting : Nat := 80

/-! ## Blanks and line ends -/

/-- A blank within a line. -/
def isSpace (c : Char) : Bool :=
  c == ' ' || c == '\t'

/-- The input after blanks. -/
def skipSpace (cs : List Char) : List Char :=
  cs.dropWhile isSpace

/-- Whether a character may stand in a comment or in a string: all but control characters, tab
excepted. -/
def isPlain (c : Char) : Bool :=
  c == '\t' || (0x20 ≤ c.toNat && c.toNat != 0x7F)

/-- A line end. -/
def lineEnd? : List Char → Option (List Char)
  | '\n' :: rest => some rest
  | '\r' :: '\n' :: rest => some rest
  | _ => none

/-- The input after a comment, if one starts here. -/
def skipComment : List Char → List Char
  | '#' :: rest => rest.dropWhile isPlain
  | cs => cs

/-- The rest of a line after something: blanks, a comment, and the line end or the end of input. -/
def finishLine (cs : List Char) : Option (List Char) :=
  match skipComment (skipSpace cs) with
  | [] => some []
  | cs => lineEnd? cs

/-- The input after blanks, comments and line ends. -/
def skipLines : Nat → List Char → List Char
  | 0, cs => cs
  | fuel + 1, cs =>
    let cs := skipComment (skipSpace cs)
    match lineEnd? cs with
    | some rest => skipLines fuel rest
    | none => cs

/-- The input after all blanks, comments and line ends. -/
def skipBlankLines (cs : List Char) : List Char :=
  skipLines (cs.length + 1) cs

/-! ## Strings -/

/-- The character with a code, unless the code is none of a character. -/
def charOf? (n : Nat) : Option Char :=
  if n < 0xD800 ∨ (0xDFFF < n ∧ n < 0x110000) then some (Char.ofNat n) else none

/-- The character of an escape, after its backslash. -/
def readEscape : Reader Char
  | 'b' :: rest => some (Char.ofNat 8, rest)
  | 't' :: rest => some ('\t', rest)
  | 'n' :: rest => some ('\n', rest)
  | 'f' :: rest => some (Char.ofNat 12, rest)
  | 'r' :: rest => some ('\r', rest)
  | '"' :: rest => some ('"', rest)
  | '\\' :: rest => some ('\\', rest)
  | 'u' :: rest => do
    let (n, rest) ← readHex4 rest
    some (← charOf? n, rest)
  | 'U' :: rest => do
    let (high, rest) ← readHex4 rest
    let (low, rest) ← readHex4 rest
    some (← charOf? (high * 0x10000 + low), rest)
  | _ => none

/-- A basic string after its opening quote. -/
def readBasic : Nat → Reader (List Char)
  | 0, _ => none
  | _ + 1, [] => none
  | fuel + 1, c :: rest =>
    if c = '"' then some ([], rest)
    else if c = '\\' then do
      let (d, rest) ← readEscape rest
      let (ds, rest) ← readBasic fuel rest
      some (d :: ds, rest)
    else if isPlain c then do
      let (ds, rest) ← readBasic fuel rest
      some (c :: ds, rest)
    else none

/-- A literal string after its opening quote. -/
def readLiteral : Reader (List Char)
  | [] => none
  | c :: rest =>
    if c = '\'' then some ([], rest)
    else if isPlain c then do
      let (ds, rest) ← readLiteral rest
      some (c :: ds, rest)
    else none

/-- The end of a multi-line string that stands at its closing quotes: three close it, and up to two
more before them belong to the string. -/
def closing? (quote : Char) (cs : List Char) : Option (List Char × List Char) :=
  let count := (cs.takeWhile (· = quote)).length
  if count < 3 then none
  else
    let extra := min (count - 3) 2
    some (List.replicate extra quote, cs.drop (extra + 3))

/-- The input after blanks and line ends. -/
def skipToText : List Char → List Char
  | ' ' :: cs => skipToText cs
  | '\t' :: cs => skipToText cs
  | '\n' :: cs => skipToText cs
  | '\r' :: '\n' :: cs => skipToText cs
  | cs => cs

/-- The input after a backslash at the end of a line: all blanks and line ends up to the next text
are skipped. -/
def continued? (cs : List Char) : Option (List Char) :=
  (lineEnd? (skipSpace cs)).map skipToText

/-- A multi-line string after its opening quotes. A line end counts as a line feed. -/
def readMultiline (quote : Char) (hasEscapes : Bool) : Nat → Reader (List Char)
  | 0, _ => none
  | fuel + 1, cs =>
    match closing? quote cs with
    | some result => some result
    | none =>
      match lineEnd? cs, cs with
      | some rest, _ => do
        let (ds, rest) ← readMultiline quote hasEscapes fuel rest
        some ('\n' :: ds, rest)
      | none, [] => none
      | none, c :: rest =>
        if hasEscapes && c == '\\' then
          match continued? rest with
          | some rest => readMultiline quote hasEscapes fuel rest
          | none => do
            let (d, rest) ← readEscape rest
            let (ds, rest) ← readMultiline quote hasEscapes fuel rest
            some (d :: ds, rest)
        else if isPlain c then do
          let (ds, rest) ← readMultiline quote hasEscapes fuel rest
          some (c :: ds, rest)
        else none

/-- A line end right after the opening quotes of a multi-line string does not count. -/
def skipFirstLineEnd (cs : List Char) : List Char :=
  (lineEnd? cs).getD cs

/-- A string on one line. -/
def readLineString : Reader String
  | '"' :: cs => (readBasic (cs.length + 1) cs).map fun (ds, rest) => (String.ofList ds, rest)
  | '\'' :: cs => (readLiteral cs).map fun (ds, rest) => (String.ofList ds, rest)
  | _ => none

/-- A string of any kind. -/
def readString : Reader String
  | '"' :: '"' :: '"' :: cs =>
    (readMultiline '"' true (cs.length + 1) (skipFirstLineEnd cs)).map fun (ds, rest) =>
      (String.ofList ds, rest)
  | '\'' :: '\'' :: '\'' :: cs =>
    (readMultiline '\'' false (cs.length + 1) (skipFirstLineEnd cs)).map fun (ds, rest) =>
      (String.ofList ds, rest)
  | cs => readLineString cs

/-! ## Keys -/

/-- A character of a key without quotes. -/
def isBare (c : Char) : Bool :=
  ('a' ≤ c && c ≤ 'z') || ('A' ≤ c && c ≤ 'Z') || isDigit c || c == '_' || c == '-'

/-- One part of a key. -/
def readKeyPart : Reader String
  | '"' :: cs => readLineString ('"' :: cs)
  | '\'' :: cs => readLineString ('\'' :: cs)
  | cs =>
    let name := cs.takeWhile isBare
    if name.isEmpty then none else some (String.ofList name, cs.dropWhile isBare)

/-- The parts of a key, with points between them and blanks around the points. -/
def readKeyParts : Nat → Reader (List String)
  | 0, _ => none
  | fuel + 1, cs => do
    let (part, cs) ← readKeyPart (skipSpace cs)
    match skipSpace cs with
    | '.' :: rest => do
      let (parts, rest) ← readKeyParts fuel rest
      some (part :: parts, rest)
    | rest => some ([part], rest)

/-- A key: the path before its last part, and that part. -/
def readKey (cs : List Char) : Option ((List String × String) × List Char) := do
  let (parts, rest) ← readKeyParts (cs.length + 1) cs
  if nesting ≤ parts.length then none
  else some ((parts.dropLast, ← parts.getLast?), rest)

/-! ## Numbers and times -/

/-- Digits with single underscores between them. -/
def readDigits (accepts : Char → Bool) : Reader (List Char)
  | [] => none
  | [c] => if accepts c then some ([c], []) else none
  | c :: d :: rest =>
    if !accepts c then none
    else if d = '_' then (readDigits accepts rest).map fun (ds, rest) => (c :: ds, rest)
    else if accepts d then
      (readDigits accepts (d :: rest)).map fun (ds, rest) => (c :: ds, rest)
    else some ([c], d :: rest)

/-- The number that digits of a base write. -/
def valueInBase (base : Nat) (digits : List Char) : Nat :=
  digits.foldl (fun n c => base * n + (hexValue? c).getD 0) 0

/-- An integer, if it has 64 bits with a sign. -/
def integer? (n : Int) : Option Toml :=
  if -9223372036854775808 ≤ n ∧ n ≤ 9223372036854775807 then some (.integer n) else none

/-- An integer in another base, after its prefix. -/
def readInBase (base : Nat) (accepts : Char → Bool) (cs : List Char) :
    Option (Toml × List Char) := do
  let (digits, rest) ← readDigits accepts cs
  some (← integer? (valueInBase base digits), rest)

/-- The exponent of a number, if there is one. -/
def readExponent : Reader (Option Int)
  | c :: rest =>
    if c = 'e' ∨ c = 'E' then
      let (isNegative, rest) := match rest with
        | '+' :: rest => (false, rest)
        | '-' :: rest => (true, rest)
        | _ => (false, rest)
      (readDigits isDigit rest).map fun (ds, rest) =>
        let n : Int := ofDigits ds
        (some (if isNegative then -n else n), rest)
    else some (none, c :: rest)
  | [] => some (none, [])

/-- The digits of a fraction, if there is one. -/
def readFraction : Reader (Option (List Char))
  | '.' :: rest => (readDigits isDigit rest).map fun (ds, rest) => (some ds, rest)
  | cs => some (none, cs)

/-- The characters of `cs` before its suffix `rest`. -/
def textBefore (cs rest : List Char) : String :=
  String.ofList (cs.take (cs.length - rest.length))

/-- A decimal number after its sign: an integer, or a number with a fraction or an exponent. A leading
zero stands alone. A number that is too large for a binary64 is refused only if it is positive. -/
def readDecimal (isNegative : Bool) (cs : List Char) : Option (Toml × List Char) := do
  let (digits, rest) ← match cs with
    | '0' :: rest => some (['0'], rest)
    | _ => readDigits isDigit cs
  let (fraction, rest) ← readFraction rest
  let (exponent, rest) ← readExponent rest
  if fraction.isNone ∧ exponent.isNone then
    let n : Int := ofDigits digits
    some (← integer? (if isNegative then -n else n), rest)
  else
    let places := fraction.getD []
    let size := Magnitude.ofDecimal? (ofDigits (digits ++ places)) (exponent.getD 0 - places.length)
    if size.isNone ∧ !isNegative then none else some (.float (textBefore cs rest), rest)

/-- A number that is not finite, after its sign. -/
def readSpecial : Reader Toml
  | 'i' :: 'n' :: 'f' :: rest => some (.float "inf", rest)
  | 'n' :: 'a' :: 'n' :: rest => some (.float "nan", rest)
  | _ => none

/-- A number. -/
def readNumber : Reader Toml
  | '0' :: 'x' :: rest => readInBase 16 (fun c => (hexValue? c).isSome) rest
  | '0' :: 'o' :: rest => readInBase 8 (fun c => '0' ≤ c && c ≤ '7') rest
  | '0' :: 'b' :: rest => readInBase 2 (fun c => c == '0' || c == '1') rest
  | '+' :: rest => (readSpecial rest).or (readDecimal false rest)
  | '-' :: rest => (readSpecial rest).or (readDecimal true rest)
  | cs => (readSpecial cs).or (readDecimal false cs)

/-- A number of exactly `count` digits between two bounds. -/
def readField (count low high : Nat) (cs : List Char) : Option (Nat × List Char) :=
  let digits := cs.take count
  let n := ofDigits digits
  if digits.length = count ∧ digits.all isDigit ∧ low ≤ n ∧ n ≤ high then some (n, cs.drop count)
  else none

/-- The input after an expected character. -/
def expect (c : Char) : List Char → Option (List Char)
  | d :: rest => if d = c then some rest else none
  | [] => none

/-- How many days a month has. -/
def daysOf (year month : Nat) : Nat :=
  if month = 2 then
    if year % 4 = 0 ∧ (year % 100 ≠ 0 ∨ year % 400 = 0) then 29 else 28
  else if month = 4 ∨ month = 6 ∨ month = 9 ∨ month = 11 then 30
  else 31

/-- The input after a date. -/
def skipDate (cs : List Char) : Option (List Char) := do
  let (year, cs) ← readField 4 0 9999 cs
  let (month, cs) ← readField 2 1 12 (← expect '-' cs)
  let (_, cs) ← readField 2 1 (daysOf year month) (← expect '-' cs)
  some cs

/-- The input after a time of day. -/
def skipTimeOfDay (cs : List Char) : Option (List Char) := do
  let (_, cs) ← readField 2 0 23 cs
  let (_, cs) ← readField 2 0 59 (← expect ':' cs)
  let (_, cs) ← readField 2 0 60 (← expect ':' cs)
  match cs with
  | '.' :: rest =>
    if (rest.takeWhile isDigit).isEmpty then none else some (rest.dropWhile isDigit)
  | _ => some cs

/-- The input after an offset from universal time, if there is one. -/
def skipOffset (cs : List Char) : Option (List Char) :=
  match cs with
  | c :: rest =>
    if c = 'Z' ∨ c = 'z' then some rest
    else if c = '+' ∨ c = '-' then do
      let (_, rest) ← readField 2 0 23 rest
      let (_, rest) ← readField 2 0 59 (← expect ':' rest)
      some rest
    else some cs
  | [] => some []

/-- The input after a date, and after a time of day if one follows. -/
def skipDateTime (cs : List Char) : Option (List Char) := do
  let cs ← skipDate cs
  match cs with
  | c :: rest =>
    if c = 'T' ∨ c = 't' then skipOffset (← skipTimeOfDay rest)
    else if c = ' ' ∧ (rest.head?.map isDigit).getD false then skipOffset (← skipTimeOfDay rest)
    else some cs
  | [] => some []

/-- A point in time. -/
def readTime (cs : List Char) : Option (Toml × List Char) :=
  ((skipDateTime cs).or (skipTimeOfDay cs)).map fun rest => (.time (textBefore cs rest), rest)

/-- Whether the input starts like a date or a time of day, and so can be nothing else. -/
def startsTime : List Char → Bool
  | a :: b :: ':' :: _ => isDigit a && isDigit b
  | a :: b :: c :: d :: '-' :: _ => isDigit a && isDigit b && isDigit c && isDigit d
  | _ => false

/-! ## Values -/

/-- The items of an array after its opening bracket, with a comma allowed after the last. -/
def readItems (item : Reader Toml) : Nat → Reader (List Toml)
  | 0, _ => none
  | fuel + 1, cs =>
    match skipBlankLines cs with
    | ']' :: rest => some ([], rest)
    | cs => do
      let (x, cs) ← item cs
      match skipBlankLines cs with
      | ',' :: rest => do
        let (xs, rest) ← readItems item fuel rest
        some (x :: xs, rest)
      | ']' :: rest => some ([x], rest)
      | _ => none

/-- A key, an equals sign and a value. -/
def readPair (value : Reader Toml) (cs : List Char) :
    Option ((List String × String × Toml) × List Char) := do
  let ((path, key), cs) ← readKey cs
  let (v, cs) ← value (skipSpace (← expect '=' (skipSpace cs)))
  some ((path, key, v), cs)

/-- The pairs of an inline table, at least one, up to its closing brace. -/
def readPairs (value : Reader Toml) : Nat → Reader (List (List String × String × Toml))
  | 0, _ => none
  | fuel + 1, cs => do
    let (pair, cs) ← readPair value (skipSpace cs)
    match skipSpace cs with
    | ',' :: rest => do
      let (pairs, rest) ← readPairs value fuel rest
      some (pair :: pairs, rest)
    | '\x7d' :: rest => some ([pair], rest)
    | _ => none

/-- The inline table of its pairs. -/
def inlineTable (pairs : List (List String × String × Toml)) : Option Toml := do
  let (_, entries) ← pairs.foldlM
    (fun (o, es) (path, key, value) => addDotted path key value o es) (Origin.header, [])
  some (.table .inline entries)

/-- A value in which arrays and inline tables are nested fewer than `depth` deep. -/
def readValue : Nat → Reader Toml
  | _, '"' :: cs => (readString ('"' :: cs)).map fun (s, rest) => (.string s, rest)
  | _, '\'' :: cs => (readString ('\'' :: cs)).map fun (s, rest) => (.string s, rest)
  | _, 't' :: 'r' :: 'u' :: 'e' :: rest => some (.boolean true, rest)
  | _, 'f' :: 'a' :: 'l' :: 's' :: 'e' :: rest => some (.boolean false, rest)
  | 0, _ => none
  | depth + 1, '[' :: cs =>
    if depth = 0 then none
    else (readItems (readValue depth) (cs.length + 1) cs).map fun (xs, rest) => (.array xs, rest)
  | depth + 1, '\x7b' :: cs =>
    if depth = 0 then none
    else match skipSpace cs with
      | '\x7d' :: rest => some (.table .inline [], rest)
      | cs => do
        let (pairs, rest) ← readPairs (readValue depth) (cs.length + 1) cs
        some (← inlineTable pairs, rest)
  | _, cs => if startsTime cs then readTime cs else readNumber cs

/-! ## Documents -/

/-- What has been read: the path of the current header, and the root table. -/
structure Document where
  header : List String
  root : Entries

/-- A header or a pair, and the rest of the input after it. -/
def readStatement (doc : Document) : List Char → Option (Document × List Char)
  | '[' :: '[' :: cs => do
    let ((path, key), cs) ← readKey cs
    let cs ← expect ']' (← expect ']' cs)
    some (⟨path ++ [key], ← openItem path key doc.root⟩, cs)
  | '[' :: cs => do
    let ((path, key), cs) ← readKey cs
    let cs ← expect ']' cs
    some (⟨path ++ [key], ← openTable path key doc.root⟩, cs)
  | cs => do
    let ((path, key, value), cs) ← readPair (readValue nesting) cs
    some ({ doc with root := ← insert doc.header path key value doc.root }, cs)

/-- The statements of a document, each on a line of its own. -/
def readStatements : Nat → Document → List Char → Option Entries
  | 0, _, _ => none
  | fuel + 1, doc, cs =>
    match skipBlankLines cs with
    | [] => some doc.root
    | cs => do
      let (doc, cs) ← readStatement doc cs
      readStatements fuel doc (← finishLine cs)

/-- The root table of a document, or nothing if it is not TOML. A byte order mark in front does not
count. -/
def parse (text : String) : Option Entries :=
  let cs := match text.toList with
    | [] => []
    | c :: rest => if c.toNat = 0xFEFF then rest else c :: rest
  readStatements (cs.length + 1) ⟨[], []⟩ cs

end VariantBuild.Toml
