import VariantBuild.Path
import VariantBuild.Disk.Error
/-!
# The disk

Everything a build reads or changes is a value: a list of nodes by location, the directory that
relative paths start from, and the time that the disk stamps on what is written now. A path is
looked up step by step, so a missing directory and a file in the place of a directory are told
apart, `..` leads to the parent of a directory that exists, and a name that is too long is refused
only where it is looked up.

The clock stands still here. Whoever runs programs may hand back a disk with a later one.
-/

namespace VariantBuild

/-- A point in time; only the order matters. -/
abbrev Time := Int

/-- The names from the root down to a node. -/
abbrev Location := List String

/-- Contents are compared as the core library compares them, whatever else is imported. -/
local instance decidableEqContents : DecidableEq ByteArray := ByteArray.instDecidableEq

/-- What stands at a location. -/
inductive Node where
  | directory (modified : Time)
  | file (contents : ByteArray) (modified : Time)
deriving DecidableEq

namespace Node

/-- The time of the last change. -/
def modified : Node → Time
  | directory t => t
  | file _ t => t

/-- Whether the node is a regular file. -/
def isFile : Node → Bool
  | directory _ => false
  | file _ _ => true

/-- The node with another time. -/
def stamp (t : Time) : Node → Node
  | directory _ => directory t
  | file contents _ => file contents t

end Node

/-- All nodes, the working directory and the clock. -/
structure Disk where
  nodes : List (Location × Node)
  here : Location
  clock : Time

namespace Disk

/-! ## Nodes -/

/-- The node at a location. -/
def node? (d : Disk) (l : Location) : Option Node :=
  (d.nodes.find? (·.1 = l)).map (·.2)

/-- The disk with a node put at a location. -/
def set (d : Disk) (l : Location) (n : Node) : Disk :=
  { d with nodes := (l, n) :: d.nodes.filter (·.1 ≠ l) }

/-- The disk without the node at a location. -/
def erase (d : Disk) (l : Location) : Disk :=
  { d with nodes := d.nodes.filter (·.1 ≠ l) }

/-- The directory at a location carries the clock's time: an entry was added or taken away. -/
def touchDirectory (d : Disk) (l : Location) : Disk :=
  match d.node? l with
  | some (.directory _) => d.set l (.directory d.clock)
  | _ => d

@[simp] theorem node?_set_self (d : Disk) (l : Location) (n : Node) :
    (d.set l n).node? l = some n := by
  simp [node?, set]

theorem node?_set_of_ne (d : Disk) {l m : Location} (n : Node) (h : m ≠ l) :
    (d.set l n).node? m = d.node? m := by
  have h' : l ≠ m := fun e => h e.symm
  simp only [node?, set, List.find?_cons, h', decide_false, List.find?_filter]
  congr 2
  funext x
  by_cases hx : x.1 = m
  · simp [hx, h]
  · simp [hx]

@[simp] theorem node?_erase_self (d : Disk) (l : Location) : (d.erase l).node? l = none := by
  simp [node?, erase, List.find?_filter]

theorem node?_erase_of_ne (d : Disk) {l m : Location} (h : m ≠ l) :
    (d.erase l).node? m = d.node? m := by
  simp only [node?, erase, List.find?_filter]
  congr 2
  funext x
  by_cases hx : x.1 = m
  · simp [hx, h]
  · simp [hx]

/-! ## Paths on the disk -/

/-- Where a piece of a path leads from a directory. -/
def step (l : Location) (piece : String) : Location :=
  if Path.isVoid piece then l else if piece = ".." then l.dropLast else l ++ [piece]

/-- How many bytes a name may have. -/
def greatestNameSize : Nat := 255

/-- How many bytes a path may have. -/
def greatestPathSize : Nat := 4095

/-- Follows pieces from a location; every step, also a void one, starts in a directory. -/
def walk (d : Disk) (l : Location) : List String → Except SystemError Location
  | [] => .ok l
  | piece :: rest =>
    match d.node? l with
    | none => .error .notFound
    | some (.file _ _) => .error .notDirectory
    | some (.directory _) =>
      if greatestNameSize < piece.utf8ByteSize then .error .nameTooLong
      else d.walk (step l piece) rest

/-- Where a path starts. -/
def origin (d : Disk) (p : Path) : Location :=
  if p.isAbsolute then [] else d.here

/-- What is wrong with a path wherever it leads. The empty path names nothing. -/
def refusal? (p : Path) : Option SystemError :=
  if holdsNul p.text then some .nulInPath
  else if p.text = "" then some .notFound
  else if greatestPathSize < p.text.utf8ByteSize then some .nameTooLong
  else none

/-- Follows pieces of a path from its start, unless the path is refused. -/
def follow (d : Disk) (p : Path) (pieces : List String) : Except SystemError Location :=
  match refusal? p with
  | some e => .error e
  | none => d.walk (d.origin p) pieces

/-- The location that a path names; nothing needs to stand there. -/
def locate (d : Disk) (p : Path) : Except SystemError Location :=
  d.follow p p.pieces

/-- The node that a path names. -/
def stat (d : Disk) (p : Path) : Except SystemError Node := do
  let l ← d.locate p
  match d.node? l with
  | some n => .ok n
  | none => .error .notFound

/-- The time of the last change of what a path names. -/
def modified (d : Disk) (p : Path) : Except SystemError Time :=
  (d.stat p).map (·.modified)

/-- Whether a path names anything that can be reached. -/
def contains (d : Disk) (p : Path) : Bool :=
  (d.stat p).toBool

/-- Whether a path names a regular file. -/
def isFile (d : Disk) (p : Path) : Bool :=
  match d.stat p with
  | .ok n => n.isFile
  | .error _ => false

/-- Whether a path names a directory. -/
def isDirectory (d : Disk) (p : Path) : Bool :=
  match d.stat p with
  | .ok n => !n.isFile
  | .error _ => false

/-- The working directory as an absolute path. -/
def herePath (d : Disk) : Path :=
  Path.ofNames d.here

/-! ## Reading -/

/-- The bytes of a file. -/
def readBytes (d : Disk) (p : Path) : Except SystemError ByteArray := do
  match ← d.stat p with
  | .file contents _ => .ok contents
  | .directory _ => .error .isDirectory

/-- The text of a file, which has to be well-formed UTF-8. -/
def readText (d : Disk) (p : Path) : Except ReadError String :=
  match d.readBytes p with
  | .error e => .error (.system e)
  | .ok bytes =>
    match String.fromUTF8? bytes with
    | some text => .ok text
    | none => .error .notText

/-- The names directly inside a location. -/
def names (d : Disk) (l : Location) : List String :=
  d.nodes.filterMap fun (m, _) =>
    match m.getLast? with
    | some name => if m.dropLast = l then some name else none
    | none => none

/-- The names directly inside a directory. -/
def list (d : Disk) (p : Path) : Except SystemError (List String) := do
  let l ← d.locate p
  match d.node? l with
  | none => .error .notFound
  | some (.file _ _) => .error .notDirectory
  | some (.directory _) => .ok (d.names l)

/-! ## Writing -/

/-- Puts a file with a given time where a path leads. A file that is there keeps its place in the
directory; a new one is a change of the directory as well. -/
def writeStamped (d : Disk) (p : Path) (contents : ByteArray) (t : Time) :
    Except SystemError Disk := do
  let l ← d.locate p
  match d.node? l with
  | some (.directory _) => .error .isDirectory
  | some (.file _ _) => .ok (d.set l (.file contents t))
  | none => .ok ((d.touchDirectory l.dropLast).set l (.file contents t))

/-- Writes a text file now. -/
def writeText (d : Disk) (p : Path) (text : String) : Except SystemError Disk :=
  d.writeStamped p text.toUTF8 d.clock

/-- Removes a file. -/
def remove (d : Disk) (p : Path) : Except SystemError Disk := do
  let l ← d.locate p
  match d.node? l with
  | none => .error .notFound
  | some (.directory _) => .error .isDirectory
  | some (.file _ _) => .ok ((d.touchDirectory l.dropLast).erase l)

/-! ## Making directories -/

/-- The location for a directory that is to be made; separators at the end of its path do not
count. -/
def locateNew (d : Disk) (p : Path) : Except SystemError Location :=
  d.follow p (p.pieces.reverse.dropWhile (· == "")).reverse

/-- Makes one directory. Nothing may stand at its location, and what leads to it has to be there. -/
def makeDirectory (d : Disk) (p : Path) : Except SystemError Disk := do
  let l ← d.locateNew p
  match d.node? l with
  | some _ => .error .alreadyExists
  | none => .ok ((d.touchDirectory l.dropLast).set l (.directory d.clock))

/-- Makes one directory unless it is there already. -/
def ensureDirectory (d : Disk) (p : Path) : Except SystemError Disk :=
  match d.makeDirectory p with
  | .error .alreadyExists => if d.isDirectory p then .ok d else .error .alreadyExists
  | result => result

/-- Makes the first directory of a list, in which the parent of each path comes right after it. Parents
are made only as far as they are missing, and what has been made stays even if the rest fails. -/
def makeChain (d : Disk) : List Path → Except SystemError Unit × Disk
  | [] => (.ok (), d)
  | p :: parents =>
    match d.ensureDirectory p with
    | .ok d => (.ok (), d)
    | .error .notFound =>
      match d.makeChain parents with
      | (.error e, d) => (.error e, d)
      | (.ok (), d) =>
        match d.ensureDirectory p with
        | .ok d => (.ok (), d)
        | .error e => (.error e, d)
    | .error e => (.error e, d)

/-- Makes a directory and all that lead to it, as far as they are missing. The parents are those of
the path as it is written; the root and the empty path are always there. -/
def makeDirectories (d : Disk) (p : Path) : Except SystemError Unit × Disk :=
  d.makeChain (p.ancestors.filter (·.parent?.isSome))

end Disk

end VariantBuild
