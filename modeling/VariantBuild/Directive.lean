import VariantBuild.FlagSet
import VariantBuild.Text.Pieces
/-!
# Directives

The additional flags of a manifest entry are directives, which start with `@`, and raw arguments.

* `@flags=gtk|win32|!libcpu` admits the file for some build types only;
* `@options=-m32|!-DLIBCPU` admits it under some active flags only;
* `@use=-fPIC` requires a flag.

A group is read leniently, its empty parts are dropped; a keyword is not.
-/

namespace VariantBuild

/-- One part of a group. -/
inductive GroupPart where
  | allow (name : String)
  | exclude (name : String)
deriving DecidableEq, Repr

/-- Names between bars, each excluded if an exclamation mark precedes it. -/
structure Group where
  parts : List GroupPart
deriving DecidableEq, Repr, Inhabited

namespace GroupPart

/-- A part from its characters. -/
def ofChars : List Char → GroupPart
  | '!' :: name => exclude (String.ofList name)
  | name => allow (String.ofList name)

/-- The part as written. -/
def text : GroupPart → String
  | allow name => name
  | exclude name => "!" ++ name

end GroupPart

namespace Group

/-- Reads a group; every text is one. -/
def parse (text : String) : Group :=
  ⟨((Text.pieces (· == '|') text.toList).filter (!·.isEmpty)).map GroupPart.ofChars⟩

/-- The names without an exclamation mark. -/
def allowed (g : Group) : List String :=
  g.parts.filterMap fun
    | .allow name => some name
    | .exclude _ => none

/-- The names with an exclamation mark. -/
def excluded (g : Group) : List String :=
  g.parts.filterMap fun
    | .exclude name => some name
    | .allow _ => none

/-- The rule of `@flags`: the build type is among the allowed names, if there are any, and not among
the excluded ones. -/
def admitsBuildType (g : Group) (buildType : String) : Bool :=
  (g.allowed.isEmpty || g.allowed.contains buildType) && !g.excluded.contains buildType

/-- The rule of `@options`: all allowed flags are active, and none of the excluded ones. -/
def admitsFlags (g : Group) (f : FlagSet) : Bool :=
  g.allowed.all f.has && !g.excluded.any f.has

/-- The group with its empty parts dropped. -/
def text (g : Group) : String :=
  "|".intercalate (g.parts.map GroupPart.text)

end Group

/-- A directive or a raw argument. -/
inductive Directive where
  | flags (group : Group)
  | options (group : Group)
  | use (token : String)
  | raw (argument : String)
deriving DecidableEq, Repr

/-- Why a text that starts with `@` is no directive. -/
inductive DirectiveError where
  | missingFlag (text : String)
  | unknownKeyword (text keyword : String)
deriving DecidableEq, Repr

/-- The error in words. -/
def DirectiveError.message : DirectiveError → String
  | missingFlag text => "Invalid directive '" ++ text ++ "': @use requires a flag"
  | unknownKeyword text keyword =>
    "Invalid directive '" ++ text ++ "': unknown directive keyword '" ++ keyword ++ "'"

namespace Directive

/-- Reads one additional flag. The keyword ends at the first equals sign. -/
def parse (text : String) : Except DirectiveError Directive :=
  if text.toList.head? ≠ some '@' then .ok (raw text)
  else
    let (keyword, value) := (Text.splitFirst '=' text).getD (text, "")
    if keyword = "@flags" then .ok (flags (.parse value))
    else if keyword = "@options" then .ok (options (.parse value))
    else if keyword = "@use" then
      if value.isEmpty then .error (.missingFlag text) else .ok (use value)
    else .error (.unknownKeyword text keyword)

/-- The canonical text. -/
def text : Directive → String
  | flags group => "@flags=" ++ group.text
  | options group => "@options=" ++ group.text
  | use token => "@use=" ++ token
  | raw argument => argument

/-- Whether it is a directive, and not a raw argument. -/
def isDirective : Directive → Bool
  | raw _ => false
  | _ => true

/-- The flag that a directive requires. -/
def requires? : Directive → Option String
  | use token => some token
  | _ => none

end Directive

end VariantBuild
