import VariantBuild.Json.Basic
import VariantBuild.Binary64.Decimal
/-!
# Writing JSON

Two layouts: `compact` without blanks, and `indented` with a line for every item and four spaces for
every level. Both leave all characters unescaped that JSON allows to stand for themselves.
-/

namespace VariantBuild.Json

/-- A hexadecimal digit. -/
def hexDigit (n : Nat) : Char :=
  if n < 10 then Char.ofNat (48 + n) else Char.ofNat (87 + n)

/-- A character inside a string: quotes, backslashes and control characters are escaped. -/
def escape (c : Char) : List Char :=
  if c = '"' then ['\\', '"']
  else if c = '\\' then ['\\', '\\']
  else if c = '\n' then ['\\', 'n']
  else if c = '\r' then ['\\', 'r']
  else if c = '\t' then ['\\', 't']
  else if c.toNat = 8 then ['\\', 'b']
  else if c.toNat = 12 then ['\\', 'f']
  else if c.toNat < 0x20 then
    ['\\', 'u', '0', '0', hexDigit (c.toNat / 16), hexDigit (c.toNat % 16)]
  else [c]

/-- A string in quotes. -/
def quote (s : String) : List Char :=
  '"' :: s.toList.flatMap escape ++ ['"']

/-- The text of a value that holds no others. -/
def scalar : Json → List Char
  | null => "null".toList
  | boolean true => "true".toList
  | boolean false => "false".toList
  | integer n => (toString n).toList
  | double x => x.text
  | string s => quote s
  | array _ => ['[', ']']
  | object _ => ['\x7b', '\x7d']

mutual

/-- A value without blanks. -/
def compactChars : Json → List Char
  | array [] => ['[', ']']
  | array (x :: xs) => '[' :: compactChars x ++ compactItems xs
  | object [] => ['\x7b', '\x7d']
  | object ((name, v) :: ms) => '\x7b' :: quote name ++ ':' :: compactChars v ++ compactMembers ms
  | null => scalar null
  | boolean b => scalar (boolean b)
  | integer n => scalar (integer n)
  | double x => scalar (double x)
  | string s => scalar (string s)

/-- The items after the first, and the end of the array. -/
def compactItems : List Json → List Char
  | [] => [']']
  | x :: xs => ',' :: compactChars x ++ compactItems xs

/-- The members after the first, and the end of the object. -/
def compactMembers : List (String × Json) → List Char
  | [] => ['\x7d']
  | (name, v) :: ms => ',' :: quote name ++ ':' :: compactChars v ++ compactMembers ms

end

/-- A line break and the indentation of a level. -/
def lineStart (level : Nat) : List Char :=
  '\n' :: List.replicate (4 * level) ' '

mutual

/-- A value at a level of indentation; empty containers stay on one line. -/
def indentedChars (level : Nat) : Json → List Char
  | array [] => ['[', ']']
  | array (x :: xs) =>
    '[' :: lineStart (level + 1) ++ indentedChars (level + 1) x ++ indentedItems level xs
  | object [] => ['\x7b', '\x7d']
  | object ((name, v) :: ms) =>
    '\x7b' :: lineStart (level + 1) ++ quote name ++ ':' :: ' ' :: indentedChars (level + 1) v ++
      indentedMembers level ms
  | null => scalar null
  | boolean b => scalar (boolean b)
  | integer n => scalar (integer n)
  | double x => scalar (double x)
  | string s => scalar (string s)

/-- The items after the first, and the end of the array. -/
def indentedItems (level : Nat) : List Json → List Char
  | [] => lineStart level ++ [']']
  | x :: xs =>
    ',' :: lineStart (level + 1) ++ indentedChars (level + 1) x ++ indentedItems level xs

/-- The members after the first, and the end of the object. -/
def indentedMembers (level : Nat) : List (String × Json) → List Char
  | [] => lineStart level ++ ['\x7d']
  | (name, v) :: ms =>
    ',' :: lineStart (level + 1) ++ quote name ++ ':' :: ' ' :: indentedChars (level + 1) v ++
      indentedMembers level ms

end

/-- A value on one line, without blanks. -/
def compact (value : Json) : String :=
  String.ofList (compactChars value)

/-- A value over several lines, indented by four spaces. -/
def indented (value : Json) : String :=
  String.ofList (indentedChars 0 value)

end VariantBuild.Json
