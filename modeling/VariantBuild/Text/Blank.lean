import VariantBuild.Text.Pieces
/-!
# Blank characters, words and trimming

A character is blank when it has the Unicode property `White_Space`. Flag tokens and the output of
tools are cut into words at blanks, and error output is trimmed of them.
-/

namespace VariantBuild.Text

/-- The Unicode property `White_Space`: twenty-five characters. -/
def isBlank (c : Char) : Bool :=
  let n := c.toNat
  (0x09 ≤ n && n ≤ 0x0D) || n == 0x20 || n == 0x85 || n == 0xA0 || n == 0x1680 ||
    (0x2000 ≤ n && n ≤ 0x200A) || n == 0x2028 || n == 0x2029 || n == 0x202F || n == 0x205F ||
    n == 0x3000

/-- The longest blank-free stretches, in order. -/
def wordsOf (cs : List Char) : List (List Char) :=
  (pieces isBlank cs).filter (!·.isEmpty)

/-- The words of a string. -/
def words (text : String) : List String :=
  (wordsOf text.toList).map String.ofList

/-- The words of several strings, one after another. -/
def wordsOfAll (texts : List String) : List String :=
  texts.flatMap words

/-- `text` without the blanks at both ends. -/
def trim (text : String) : String :=
  String.ofList ((text.toList.dropWhile isBlank).reverse.dropWhile isBlank).reverse

end VariantBuild.Text
