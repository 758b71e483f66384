import VariantBuild.Manifest.Basic
import VariantBuild.Json.Parser
import VariantBuild.Json.Printer
import VariantBuild.Error
/-!
# Manifests as JSON

`ManifestSet.parse` reads a set and `ManifestSet.text` writes one. An entry is an object with any of
four keys, or an array of up to four values in the order of those keys; what is left out is empty.
The first fault in reading order decides the error: entries in the order of the file, within an
object the keys in the order of the file, within a list its items.
-/

namespace VariantBuild

namespace FileEntry

/-- The four keys of an entry. -/
inductive Key where
  | dependencies
  | flags
  | includePaths
  | tasks
deriving DecidableEq, Repr

/-- The key as it stands in a manifest. -/
def Key.name : Key → String
  | .dependencies => "dependencies"
  | .flags => "additional_flags"
  | .includePaths => "include_paths"
  | .tasks => "tasks"

/-- All keys, in the order of the array form and of writing. -/
def Key.all : List Key :=
  [.dependencies, .flags, .includePaths, .tasks]

/-- Why a value is no entry: its shape, or a directive in it. -/
abbrev Fault := Option DirectiveError

/-- A string. -/
def readString : Json → Except Fault String
  | .string s => .ok s
  | _ => .error none

/-- A string that is a path. -/
def readPath (j : Json) : Except Fault Path :=
  (readString j).map Path.mk

/-- A string that is a directive or a raw argument. -/
def readDirective (j : Json) : Except Fault Directive := do
  match Directive.parse (← readString j) with
  | .ok d => .ok d
  | .error e => .error (some e)

/-- An array with items of one kind. -/
def readList {α : Type} (item : Json → Except Fault α) : Json → Except Fault (List α)
  | .array items => items.mapM item
  | _ => .error none

/-- The entry with one key set from its JSON value. -/
def readKey (e : FileEntry) (value : Json) : Key → Except Fault FileEntry
  | .dependencies => (readList readPath value).map fun xs => { e with dependencies := xs }
  | .flags => (readList readDirective value).map fun xs => { e with flags := xs }
  | .includePaths => (readList readPath value).map fun xs => { e with includePaths := xs }
  | .tasks => (readList readString value).map fun xs => { e with tasks := xs }

/-- Sets keys in turn. -/
def readKeys (e : FileEntry) : List (Key × Json) → Except Fault FileEntry
  | [] => .ok e
  | (key, value) :: rest => do (← e.readKey value key).readKeys rest

/-- Sets named members in turn; an unknown name is a fault when its turn comes. -/
def readMembers (e : FileEntry) : Json.Members → Except Fault FileEntry
  | [] => .ok e
  | (name, value) :: rest =>
    match Key.all.find? (·.name = name) with
    | none => .error none
    | some key => do (← e.readKey value key).readMembers rest

/-- Reads an entry. -/
def ofJson : Json → Except Fault FileEntry
  | .object members => readMembers default members
  | .array items => do
    let e ← readKeys default (Key.all.zip items)
    if Key.all.length < items.length then .error none else .ok e
  | _ => .error none

/-- Strings as a JSON array. -/
def stringsToJson (xs : List String) : Json :=
  .array (xs.map .string)

/-- An entry as JSON, with all four keys. -/
def toJson (e : FileEntry) : Json :=
  .object
    [(Key.dependencies.name, stringsToJson (e.dependencies.map (·.text))),
     (Key.flags.name, stringsToJson (e.flags.map Directive.text)),
     (Key.includePaths.name, stringsToJson (e.includePaths.map (·.text))),
     (Key.tasks.name, stringsToJson e.tasks)]

end FileEntry

namespace ManifestSet

/-- The key of the description marker. -/
def descriptionKey : String := "description"

/-- The key of the archive marker. -/
def archiveKey : String := "archive"

/-- Takes over the members of a manifest in order. -/
def readMembers (set : ManifestSet) : Json.Members → Except ManifestFault ManifestSet
  | [] => .ok set
  | (name, value) :: rest =>
    if name = descriptionKey then readMembers { set with description := some value } rest
    else if name = archiveKey then readMembers { set with archive := some value } rest
    else match FileEntry.ofJson value with
      | .error cause => .error (.entry name cause)
      | .ok e => readMembers { set with entries := set.entries ++ [(⟨name⟩, e)] } rest

/-- Reads a set from JSON text. -/
def parse (name text : String) : Except BuildError ManifestSet :=
  match Json.parse text with
  | some (.object members) =>
    match readMembers (.new name) members with
    | .ok set => .ok set
    | .error fault => .error (.manifest name fault)
  | _ => .error (.manifest name .malformed)

/-- The markers that are present, as members. -/
def markers (set : ManifestSet) : Json.Members :=
  (set.description.map (descriptionKey, ·)).toList ++ (set.archive.map (archiveKey, ·)).toList

/-- An entry as a member of its set. -/
def entryMember (entry : SourceEntry) : String × Json :=
  (entry.1.text, entry.2.toJson)

/-- The set as JSON: the markers, then the entries. A key that comes again replaces the value where
the key stands first. -/
def toJson (set : ManifestSet) : Json :=
  .object ((set.markers ++ set.entries.map entryMember).foldl
    (fun ms (name, value) => Json.Members.set name value ms) [])

/-- The set as the text of its manifest file. -/
def text (set : ManifestSet) : String :=
  set.toJson.indented

end ManifestSet

end VariantBuild
