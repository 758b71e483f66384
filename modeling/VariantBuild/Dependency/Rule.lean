import VariantBuild.Path
import VariantBuild.Text.Blank
/-!
# Make rules

A dependency scan prints a make rule: targets, a colon, and prerequisites, the first of which is the
source itself. A backslash before a line end continues the line. Continued lines are joined first, then
the backslashes that are left are dropped, and what follows the colon is cut into words.
-/

namespace VariantBuild.Dependency

/-- Joins the lines that a backslash before a line feed continues; both become one blank. -/
def joinLines : List Char → List Char
  | [] => []
  | '\\' :: '\n' :: cs => ' ' :: joinLines cs
  | c :: cs => c :: joinLines cs

/-- Joins the lines that a backslash before a carriage return and a line feed continues; the three
become one blank. -/
def joinReturnedLines : List Char → List Char
  | [] => []
  | '\\' :: '\r' :: '\n' :: cs => ' ' :: joinReturnedLines cs
  | c :: cs => c :: joinReturnedLines cs

/-- The rule with its continued lines joined and without the backslashes that are left. -/
def onOneLine (cs : List Char) : List Char :=
  (joinReturnedLines (joinLines cs)).filter (· != '\\')

/-- The text after the first colon, or all of it if there is none. -/
def afterColon (cs : List Char) : List Char :=
  match cs.dropWhile (· != ':') with
  | [] => cs
  | _ :: rest => rest

/-- The prerequisites of a rule. -/
def prerequisites (output : String) : List String :=
  (Text.wordsOf (afterColon (onOneLine output.toList))).map String.ofList

/-- The dependencies that a rule lists: all prerequisites but the first. -/
def dependencies (output : String) : List Path :=
  (prerequisites output).tail.map Path.mk

/-- The first prerequisite, if it is not the source. -/
def unexpectedFirst? (source : Path) (output : String) : Option String :=
  match prerequisites output with
  | first :: _ => if Path.SamePlace ⟨first⟩ source then none else some first
  | [] => none

end VariantBuild.Dependency
