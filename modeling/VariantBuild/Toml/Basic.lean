/-!
# TOML values

A table remembers how it came about, because that decides whether it may still grow: `Origin` holds
the rules of redefinition. `Toml.insert` adds a key below the table of the current header, and
`Toml.openTable` and `Toml.openItem` stand for the two kinds of headers.
-/

namespace VariantBuild

namespace Toml

/-- How a table came about. -/
inductive Origin where
  /-- Written between braces, and complete. -/
  | inline
  /-- Named by a header. -/
  | header
  /-- On the way to the table of a header. -/
  | implied
  /-- On the way of a dotted key. -/
  | dotted
deriving DecidableEq, Repr

end Toml

/-- A TOML value. Numbers with a fraction and points in time are kept as written. -/
inductive Toml where
  | string (value : String)
  | integer (value : Int)
  | float (text : String)
  | boolean (value : Bool)
  | time (text : String)
  /-- An array between brackets. -/
  | array (items : List Toml)
  /-- The tables of headers in double brackets. -/
  | tables (items : List Toml)
  | table (origin : Toml.Origin) (entries : List (String × Toml))
deriving Inhabited

namespace Toml

/-- The entries of a table, in order. -/
abbrev Entries := List (String × Toml)

/-- Puts a value at a key: in place if the key is there, and at the end otherwise. -/
def Entries.set (key : String) (value : Toml) : Entries → Entries
  | [] => [(key, value)]
  | (k, v) :: rest => if k = key then (k, value) :: rest else (k, v) :: set key value rest

/-- The table of an array that headers add to: its last one. -/
def lastTable? (items : List Toml) : Option (Origin × Entries) :=
  match items.getLast? with
  | some (.table origin entries) => some (origin, entries)
  | _ => none

/-- Changes the table that a path leads to. Tables on the way are made if they are missing, as dotted
or as implied ones. A dotted key may not enter the table of a header, and nothing enters an inline
table. -/
def descend (isDotted : Bool) (change : Origin → Entries → Option (Origin × Entries)) :
    List String → Origin → Entries → Option (Origin × Entries)
  | [], origin, entries => change origin entries
  | key :: path, origin, entries =>
    let enter (o : Origin) (es : Entries) : Option Toml :=
      (descend isDotted change path o es).map fun (o, es) => .table o es
    match entries.lookup key with
    | none => do
      let inner ← enter (if isDotted then .dotted else .implied) []
      some (origin, entries ++ [(key, inner)])
    | some (.table o es) =>
      if o = .inline ∨ (isDotted ∧ o = .header) then none
      else do some (origin, Entries.set key (← enter o es) entries)
    | some (.tables items) => do
      let (o, es) ← lastTable? items
      some (origin, Entries.set key (.tables (items.dropLast ++ [← enter o es])) entries)
    | some _ => none

/-- Adds a new key. -/
def addKey (key : String) (value : Toml) (origin : Origin) (entries : Entries) :
    Option (Origin × Entries) :=
  if (entries.lookup key).isSome then none else some (origin, entries ++ [(key, value)])

/-- Adds a key with its dotted path to a table. The table that the path ends in has to be a dotted
one, or the table itself if there is no path. -/
def addDotted (path : List String) (key : String) (value : Toml) (origin : Origin)
    (entries : Entries) : Option (Origin × Entries) :=
  descend true
    (fun o es => if path.isEmpty || o == .dotted then addKey key value o es else none)
    path origin entries

/-- Adds a dotted key below the table of the current header. -/
def insert (header path : List String) (key : String) (value : Toml) (root : Entries) :
    Option Entries :=
  (descend false (addDotted path key value) header .header root).map (·.2)

/-- Opens the table of a header: a new one, or one that other headers have implied. -/
def openTable (path : List String) (key : String) (root : Entries) : Option Entries :=
  (descend false (fun o es =>
    match es.lookup key with
    | none => some (o, es ++ [(key, .table .header [])])
    | some (.table .implied inner) => some (o, Entries.set key (.table .header inner) es)
    | some _ => none) path .header root).map (·.2)

/-- Opens the next table of an array of tables. -/
def openItem (path : List String) (key : String) (root : Entries) : Option Entries :=
  (descend false (fun o es =>
    match es.lookup key with
    | none => some (o, es ++ [(key, .tables [.table .header []])])
    | some (.tables items) => some (o, Entries.set key (.tables (items ++ [.table .header []])) es)
    | some _ => none) path .header root).map (·.2)

end Toml

end VariantBuild
