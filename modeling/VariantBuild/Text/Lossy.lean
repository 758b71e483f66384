/-!
# Reading bytes as text

Tools write bytes. Where their output has to be text, each ill-formed stretch of UTF-8 becomes one
replacement character: the longest run of bytes that begins some well-formed character, or else a
single byte. Files, in contrast, must be well formed (`Disk.readText`).
-/

namespace VariantBuild.Text

/-- Stands for an ill-formed stretch. -/
def replacement : Char := Char.ofNat 0xFFFD

/-- Bytes `80` to `BF`, which continue a character. -/
def isContinuation (b : UInt8) : Bool :=
  0x80 ≤ b && b ≤ 0xBF

/-- Whether `c` may follow the leading byte `b`; overlong forms, surrogates and code points past
the last one are ruled out here. -/
def isSecond (b c : UInt8) : Bool :=
  if 0xC2 ≤ b && b ≤ 0xDF then isContinuation c
  else if b == 0xE0 then 0xA0 ≤ c && c ≤ 0xBF
  else if b == 0xED then 0x80 ≤ c && c ≤ 0x9F
  else if 0xE1 ≤ b && b ≤ 0xEF then isContinuation c
  else if b == 0xF0 then 0x90 ≤ c && c ≤ 0xBF
  else if 0xF1 ≤ b && b ≤ 0xF3 then isContinuation c
  else if b == 0xF4 then 0x80 ≤ c && c ≤ 0x8F
  else false

/-- The six payload bits of a continuation byte. -/
def payload (b : UInt8) : Nat :=
  b.toNat % 64

/-- Characters of a byte list, with a replacement character for each ill-formed stretch. -/
def decodeLossy : List UInt8 → List Char
  | [] => []
  | b :: bs =>
    if b < 0x80 then Char.ofNat b.toNat :: decodeLossy bs
    else match bs with
    | [] => [replacement]
    | c :: cs =>
      if !isSecond b c then replacement :: decodeLossy (c :: cs)
      else if b < 0xE0 then Char.ofNat (b.toNat % 32 * 64 + payload c) :: decodeLossy cs
      else match cs with
      | [] => [replacement]
      | d :: ds =>
        if !isContinuation d then replacement :: decodeLossy (d :: ds)
        else if b < 0xF0 then
          Char.ofNat ((b.toNat % 16 * 64 + payload c) * 64 + payload d) :: decodeLossy ds
        else match ds with
        | [] => [replacement]
        | e :: es =>
          if !isContinuation e then replacement :: decodeLossy (e :: es)
          else
            Char.ofNat (((b.toNat % 8 * 64 + payload c) * 64 + payload d) * 64 + payload e) ::
              decodeLossy es
termination_by bs => bs.length

/-- The text of a byte list. -/
def ofBytes (bytes : List UInt8) : String :=
  String.ofList (decodeLossy bytes)

end VariantBuild.Text
