import Mathlib.Data.List.Nodup
import VariantBuild.Config.Decode
/-!
# What a configuration file may hold

A schema lists the settings of a group with the values that each may have. A document fits a schema if it has no
other keys and every value is of the kind that its key asks for (`Config.Fits`). Settings are read exactly from
the documents that fit (`Config.isSome_readProject_iff`, `Config.isSome_readUser_iff`), so no value is passed over
and none is mistaken for another.

All readers of groups go alike: the fields are taken apart, and each is read by itself (`Config.reads_group`).
-/

namespace VariantBuild.Config

/-! ## Shapes -/

/-- The values that a setting may have. -/
abbrev Shape := Toml → Prop

/-- The settings of a group in order, by name. -/
abbrev Schema := List (String × Shape)

/-- A text. -/
def IsText : Shape :=
  fun v => ∃ s, v = .string s

/-- A natural number. -/
def IsNatural : Shape :=
  fun v => ∃ n : Nat, v = .integer n

/-- A truth value. -/
def IsTruth : Shape :=
  fun v => ∃ b, v = .boolean b

/-- An array with items of one shape. -/
inductive IsList (item : Shape) : Toml → Prop
  | array {items : List Toml} : (∀ v ∈ items, item v) → IsList item (.array items)
  | tables {items : List Toml} : (∀ v ∈ items, item v) → IsList item (.tables items)

/-- A table with any keys and values of one shape. -/
inductive IsTable (value : Shape) : Toml → Prop
  | table {origin : Toml.Origin} {entries : Toml.Entries} : (∀ entry ∈ entries, value entry.2) →
      IsTable value (.table origin entries)

/-- Known keys only, and each with a value of its shape. -/
structure Fits (schema : Schema) (entries : Toml.Entries) : Prop where
  known : ∀ entry ∈ entries, entry.1 ∈ schema.map Prod.fst
  typed : ∀ setting ∈ schema, ∀ v, entries.lookup setting.1 = some v → setting.2 v

/-- At least so many values, in the order of the settings. -/
structure Lists (schema : Schema) (least : Nat) (items : List Toml) : Prop where
  enough : least ≤ items.length
  typed : ∀ (i : Nat) setting v, schema[i]? = some setting → items[i]? = some v → setting.2 v

/-- A group of settings: a table, or the values in order. -/
inductive IsGroup (schema : Schema) (least : Nat) : Toml → Prop
  | table {origin : Toml.Origin} {entries : Toml.Entries} : Fits schema entries →
      IsGroup schema least (.table origin entries)
  | array {items : List Toml} : Lists schema least items → IsGroup schema least (.array items)
  | tables {items : List Toml} : Lists schema least items → IsGroup schema least (.tables items)

/-! ## Schemas -/

/-- The settings of `[toolchain]`. -/
def toolchainSchema : Schema :=
  [("cc", IsText), ("fincc", IsText), ("dep_cc", IsText), ("archiver", IsText)]

/-- The settings of `[build]`. -/
def buildSchema : Schema :=
  [("dir", IsText), ("cache_dir", IsText), ("jobs", IsNatural), ("fail_on_task_error", IsTruth)]

/-- The settings of `[cache]`. -/
def cacheSchema : Schema :=
  [("tracked_flags", IsList IsText)]

/-- The settings of a variant. -/
def variantSchema : Schema :=
  [("inherits", IsText), ("build_type", IsText), ("compiler", IsText), ("final_tool", IsText),
   ("flags", IsList IsText), ("end_flags", IsList IsText), ("pkg_config", IsList IsText),
   ("exclude_manifests", IsList IsNatural), ("output", IsText)]

/-- The settings of a project file. -/
def projectSchema : Schema :=
  [("toolchain", IsGroup toolchainSchema 4), ("build", IsGroup buildSchema 4),
   ("cache", IsGroup cacheSchema 0), ("variants", IsTable (IsGroup variantSchema 9))]

/-- The settings of a user's file. -/
def userSchema : Schema :=
  [("toolchain", IsGroup toolchainSchema 4)]

/-! ## Readers of values -/

section Values

variable {α β : Type} {read : Toml → Option α} {shape : Shape} {names : List String} {name : String}
  {items : List Toml} {v : Toml}

/-- A reader takes the values of one shape and no others. -/
def Reads (read : Toml → Option α) (shape : Shape) : Prop :=
  ∀ v, (read v).isSome ↔ shape v

theorem reads_readString : Reads readString IsText := by
  intro v
  cases v <;> simp [readString, IsText]

theorem reads_readPath : Reads readPath IsText := by
  intro v
  rw [readPath, Option.isSome_map]
  exact reads_readString v

theorem reads_readNat : Reads readNat IsNatural := by
  intro v
  cases v with
  | integer n =>
    rw [readNat]
    constructor
    · intro h
      split at h
      next hn => exact ⟨n.toNat, by rw [Int.toNat_of_nonneg hn]⟩
      next => cases h
    · rintro ⟨m, hm⟩
      rw [Toml.integer.injEq] at hm
      rw [if_pos (by omega)]
      rfl
  | _ => simp [readNat, IsNatural]

theorem reads_readBool : Reads readBool IsTruth := by
  intro v
  cases v <;> simp [readBool, IsTruth]

/-- A list is read if each of its items is. -/
theorem isSome_mapM_iff {f : β → Option α} {xs : List β} :
    (xs.mapM f).isSome ↔ ∀ x ∈ xs, (f x).isSome := by
  induction xs with
  | nil => simp
  | cons x xs ih =>
    rw [List.mapM_cons, List.forall_mem_cons, ← ih]
    cases f x with
    | none => simp
    | some y => cases xs.mapM f <;> simp

theorem reads_readList (h : Reads read shape) : Reads (readList read) (IsList shape) := by
  have hitems {items : List Toml} : (items.mapM read).isSome ↔ ∀ v ∈ items, shape v := by
    rw [isSome_mapM_iff]
    exact forall₂_congr fun v _ => h v
  intro v
  cases v with
  | array items =>
    refine hitems.trans ⟨.array, fun hlist => ?_⟩
    cases hlist with
    | array hall => exact hall
  | tables items =>
    refine hitems.trans ⟨.tables, fun hlist => ?_⟩
    cases hlist with
    | tables hall => exact hall
  | _ => exact ⟨nofun, nofun⟩

/-- A setting that is left out is of any shape. -/
theorem isSome_optional_iff (h : Reads read shape) {given : Option Toml} :
    (optional read given).isSome ↔ ∀ v, given = some v → shape v := by
  cases given with
  | none => simp [optional]
  | some v => simp [optional, h v]

/-! ## Readers of groups -/

theorem lookup_zip_eq_some_iff (hnames : names.Nodup) :
    (names.zip items).lookup name = some v ↔ ∃ i : Nat, names[i]? = some name ∧ items[i]? = some v := by
  induction names generalizing items with
  | nil => simp
  | cons x names ih =>
    obtain ⟨hx, hrest⟩ := List.nodup_cons.1 hnames
    cases items with
    | nil => simp
    | cons y items =>
      rw [List.zip_cons_cons, List.lookup_cons]
      by_cases hname : name = x
      · subst hname
        have hfirst : ∀ i : Nat, (name :: names)[i]? = some name → i = 0 := by
          intro i hi
          cases i with
          | zero => rfl
          | succ i =>
            rw [List.getElem?_cons_succ] at hi
            exact absurd (List.mem_of_getElem? hi) hx
        constructor
        · intro h
          exact ⟨0, rfl, by simpa using h⟩
        · rintro ⟨i, hi, hv⟩
          obtain rfl := hfirst i hi
          simpa using hv
      · have hne : (name == x) = false := by simpa using hname
        rw [hne, ih hrest]
        constructor
        · rintro ⟨i, hi⟩
          exact ⟨i + 1, hi⟩
        · rintro ⟨_ | i, hi, hv⟩
          · exact absurd (Option.some.inj hi).symm hname
          · exact ⟨i, hi, hv⟩

end Values

section Groups

variable {α β : Type} {schema : Schema} {least : Nat} {build : Fields → Option α} {entries : Toml.Entries}
  {items : List Toml} {field : Fields} {read : Toml → Option β} {shape : Shape} {name : String}

/-- Fields have the shapes that a schema asks for. -/
def Typed (schema : Schema) (field : Fields) : Prop :=
  ∀ setting ∈ schema, ∀ v, field setting.1 = some v → setting.2 v

/-- A field is read if it is of its shape, and the next ones if they are. -/
theorem reads_field (h : Reads read shape) {next : Option β → Option α}
    (hnext : ∀ given, (next given).isSome ↔ Typed schema field) :
    (optional read (field name) >>= next).isSome ↔ Typed ((name, shape) :: schema) field := by
  rw [Typed, List.forall_mem_cons, ← isSome_optional_iff h]
  cases optional read (field name) with
  | none => simp
  | some given => simpa [Typed] using hnext given

theorem reads_no_field (a : α) : (pure a : Option α).isSome ↔ Typed [] field := by
  simp [Typed]

theorem isSome_fieldsOfEntries_iff (hbuild : ∀ field, (build field).isSome ↔ Typed schema field) :
    (fieldsOfEntries (schema.map Prod.fst) entries >>= build).isSome ↔ Fits schema entries := by
  rw [fieldsOfEntries]
  split
  next hknown =>
    refine (hbuild _).trans ⟨fun htyped => ⟨?_, htyped⟩, Fits.typed⟩
    intro entry hentry
    simpa using List.all_eq_true.1 hknown entry hentry
  next hunknown =>
    refine ⟨nofun, fun h => absurd (List.all_eq_true.2 fun entry hentry => ?_) hunknown⟩
    simpa using h.known entry hentry

/-- What stands at the place of a setting is what its name finds, because names tell settings apart. -/
theorem typed_lookup_zip_iff (hschema : (schema.map Prod.fst).Nodup) :
    Typed schema (fun name => ((schema.map Prod.fst).zip items).lookup name) ↔
      ∀ (i : Nat) setting v, schema[i]? = some setting → items[i]? = some v → setting.2 v := by
  constructor
  · intro htyped i setting v hsetting hv
    refine htyped setting (List.mem_of_getElem? hsetting) v ?_
    refine (lookup_zip_eq_some_iff hschema).2 ⟨i, ?_, hv⟩
    rw [List.getElem?_map, hsetting]
    rfl
  · intro hplaces setting hsetting v hv
    obtain ⟨i, hname, hi⟩ := (lookup_zip_eq_some_iff hschema).1 hv
    rw [List.getElem?_map, Option.map_eq_some_iff] at hname
    obtain ⟨setting', hget, hname⟩ := hname
    have hsame : setting' = setting :=
      List.inj_on_of_nodup_map hschema (List.mem_of_getElem? hget) hsetting hname
    exact hplaces i setting v (hsame ▸ hget) hi

theorem isSome_fieldsOfItems_iff (hschema : (schema.map Prod.fst).Nodup)
    (hbuild : ∀ field, (build field).isSome ↔ Typed schema field) :
    (fieldsOfItems (schema.map Prod.fst) least items >>= build).isSome ↔ Lists schema least items := by
  rw [fieldsOfItems]
  split
  next hfew =>
    refine ⟨nofun, fun h => ?_⟩
    exact absurd h.enough (Nat.not_le.2 hfew)
  next henough =>
    refine (hbuild _).trans ⟨fun htyped => ?_, fun h => (typed_lookup_zip_iff hschema).2 h.typed⟩
    exact ⟨Nat.not_lt.1 henough, (typed_lookup_zip_iff hschema).1 htyped⟩

/-- A group is read if it has known keys only and each field is of its shape. -/
theorem reads_group (hschema : (schema.map Prod.fst).Nodup)
    (hbuild : ∀ field, (build field).isSome ↔ Typed schema field) :
    Reads (fun v => fieldsOf (schema.map Prod.fst) least v >>= build) (IsGroup schema least) := by
  intro v
  cases v with
  | table origin entries =>
    refine (isSome_fieldsOfEntries_iff hbuild).trans ⟨.table, fun hgroup => ?_⟩
    cases hgroup with
    | table hfits => exact hfits
  | array items =>
    refine (isSome_fieldsOfItems_iff hschema hbuild).trans ⟨.array, fun hgroup => ?_⟩
    cases hgroup with
    | array hlists => exact hlists
  | tables items =>
    refine (isSome_fieldsOfItems_iff hschema hbuild).trans ⟨.tables, fun hgroup => ?_⟩
    cases hgroup with
    | tables hlists => exact hlists
  | _ => exact ⟨nofun, nofun⟩

end Groups

/-! ## Readers of files -/

theorem reads_readToolchain : Reads readToolchain (IsGroup toolchainSchema 4) :=
  reads_group (by decide) fun _ =>
    reads_field reads_readString fun _ => reads_field reads_readString fun _ =>
    reads_field reads_readString fun _ => reads_field reads_readString fun _ => reads_no_field _

theorem reads_readBuild : Reads readBuild (IsGroup buildSchema 4) :=
  reads_group (by decide) fun _ =>
    reads_field reads_readPath fun _ => reads_field reads_readPath fun _ =>
    reads_field reads_readNat fun _ => reads_field reads_readBool fun _ => reads_no_field _

theorem reads_readCache : Reads readCache (IsGroup cacheSchema 0) :=
  reads_group (by decide) fun _ => reads_field (reads_readList reads_readString) fun _ => reads_no_field _

theorem reads_readVariant : Reads readVariant (IsGroup variantSchema 9) :=
  reads_group (by decide) fun _ =>
    reads_field reads_readString fun _ => reads_field reads_readString fun _ =>
    reads_field reads_readString fun _ => reads_field reads_readString fun _ =>
    reads_field (reads_readList reads_readString) fun _ => reads_field (reads_readList reads_readString) fun _ =>
    reads_field (reads_readList reads_readString) fun _ => reads_field (reads_readList reads_readNat) fun _ =>
    reads_field reads_readPath fun _ => reads_no_field _

theorem reads_readVariants : Reads readVariants (IsTable (IsGroup variantSchema 9)) := by
  intro v
  cases v with
  | table origin entries =>
    have hentries : (readVariants (.table origin entries)).isSome ↔
        ∀ entry ∈ entries, IsGroup variantSchema 9 entry.2 := by
      rw [readVariants, bind_pure_comp, Option.map_eq_map, Option.isSome_map, isSome_mapM_iff]
      refine forall₂_congr fun entry _ => ?_
      rw [Option.isSome_map]
      exact reads_readVariant entry.2
    refine hentries.trans ⟨.table, fun htable => ?_⟩
    cases htable with
    | table hall => exact hall
  | _ => exact ⟨nofun, nofun⟩

/-- The settings of a project are read exactly from the documents that fit. -/
theorem isSome_readProject_iff {entries : Toml.Entries} :
    (readProject entries).isSome ↔ Fits projectSchema entries :=
  isSome_fieldsOfEntries_iff fun _ =>
    reads_field reads_readToolchain fun _ => reads_field reads_readBuild fun _ =>
    reads_field reads_readCache fun _ => reads_field reads_readVariants fun _ => reads_no_field _

/-- So are the settings of a user. -/
theorem isSome_readUser_iff {entries : Toml.Entries} :
    (readUser entries).isSome ↔ Fits userSchema entries :=
  isSome_fieldsOfEntries_iff fun _ => reads_field reads_readToolchain fun _ => reads_no_field _

end VariantBuild.Config
