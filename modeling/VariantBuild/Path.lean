import VariantBuild.Text.Pieces
/-!
# Paths

A path is kept as it was written, and printed so. What it means is read off its components:
repeated separators, a trailing separator and `.` anywhere but in front count for nothing, and `..`
stays. `parent`, `fileName` and `extension` cut the text at component borders, so a parent keeps the
spelling of what is left of it; `SamePlace` compares components.
-/

namespace VariantBuild

/-- A file path, as written. -/
structure Path where
  text : String
deriving DecidableEq, Repr, Inhabited

namespace Path

/-- A step of a path. -/
inductive Component where
  | root
  | here
  | up
  | name (text : String)
deriving DecidableEq, Repr

/-- What a path starts with; only the body after it can be cut. -/
inductive Head where
  | absolute
  | here
  | relative
deriving DecidableEq, Repr

/-- The pieces between separators, as written. -/
def pieces (p : Path) : List String :=
  Text.split (· == '/') p.text

/-- Whether a piece counts for nothing. -/
def isVoid (piece : String) : Bool :=
  piece == "" || piece == "."

/-- The head of a path and the pieces of its body. -/
def parts (p : Path) : Head × List String :=
  match p.pieces with
  | "" :: rest => if rest.isEmpty then (.relative, []) else (.absolute, rest)
  | "." :: rest => (.here, rest)
  | pieces => (.relative, pieces)

/-- The component that a head stands for, if any. -/
def Head.components : Head → List Component
  | .absolute => [.root]
  | .here => [.here]
  | .relative => []

/-- The component that a piece of the body stands for. -/
def componentOf (piece : String) : Component :=
  if piece = ".." then .up else .name piece

/-- The steps of a path. -/
def components (p : Path) : List Component :=
  let (head, body) := p.parts
  head.components ++ (body.filter (!isVoid ·)).map componentOf

/-- The text of a head and a body. -/
def ofParts : Head → List String → Path
  | .absolute, body => ⟨"/" ++ "/".intercalate body⟩
  | .here, body => ⟨"/".intercalate ("." :: body)⟩
  | .relative, body => ⟨"/".intercalate body⟩

/-- A body without the void pieces at its end. -/
def trimBody (body : List String) : List String :=
  (body.reverse.dropWhile isVoid).reverse

/-- The path without its last component; the root and the empty path have no parent. -/
def parent? (p : Path) : Option Path :=
  let (head, body) := p.parts
  let body := trimBody body
  if body.isEmpty then
    match head with
    | .here => some ⟨""⟩
    | _ => none
  else some (ofParts head (trimBody body.dropLast))

/-- A path and its successive parents, at most `fuel` of them. -/
def climb : Nat → Path → List Path
  | 0, _ => []
  | fuel + 1, p =>
    p :: match p.parent? with
      | some parent => climb fuel parent
      | none => []

/-- A path and its successive parents, by the spelling of the path alone. Each parent has fewer
components, so all of them are listed. -/
def ancestors (p : Path) : List Path :=
  climb (p.components.length + 1) p

/-- The last component, if it is a name. -/
def fileName? (p : Path) : Option String :=
  match p.components.getLast? with
  | some (.name text) => some text
  | _ => none

/-- What follows the last point of the file name; a point in front starts no extension. -/
def extension? (p : Path) : Option String := do
  let name ← p.fileName?
  let reversed := name.toList.reverse
  match reversed.dropWhile (· != '.') with
  | [] => none
  | [_] => none
  | _ :: _ => some (String.ofList (reversed.takeWhile (· != '.')).reverse)

/-- Whether the path starts at the root. -/
def isAbsolute (p : Path) : Bool :=
  p.text.toList.head? == some '/'

/-- `q` seen from `p`: after a separator, or alone if it is absolute. -/
def join (p q : Path) : Path :=
  if q.isAbsolute then q
  else if p.text.isEmpty || p.text.toList.getLast? == some '/' then ⟨p.text ++ q.text⟩
  else ⟨p.text ++ "/" ++ q.text⟩

/-- `p` and a name below it. -/
def joinText (p : Path) (name : String) : Path :=
  p.join ⟨name⟩

/-- Two spellings of one path. -/
def SamePlace (p q : Path) : Prop :=
  p.components = q.components

instance (p q : Path) : Decidable (SamePlace p q) :=
  inferInstanceAs (Decidable (_ = _))

/-- The absolute path of a list of names. -/
def ofNames (names : List String) : Path :=
  ⟨"/" ++ "/".intercalate names⟩

/-- Several paths in one line. -/
def listText (ps : List Path) : String :=
  ", ".intercalate (ps.map (·.text))

end Path

end VariantBuild
