import VariantBuild.FlagSet
import VariantBuild.Path
import VariantBuild.Numeral
import VariantBuild.Digest.Sha256
import VariantBuild.Error
/-!
# Object names

All variants share one flat directory of objects, so the name of an object has to tell apart what
must not be mixed up. It is `<directory>-<stem>-<flags>.o`:

* `<directory>` is a 32-bit digest of the source's directory;
* `<stem>` is the source's file name without `.c`;
* `<flags>` is a number of 64 bits: bit `i` below 32 says whether the tracked feature `i` is active,
  the next 31 bits are a digest of the variant's name, and bit 63 marks 32-bit targets.

A name depends on the source path and the flag set alone. The digest is a parameter of the deriver:
what holds of names holds for every function from texts to 64-bit numbers.
-/

namespace VariantBuild

/-- Something about an invocation that changes the objects it makes. -/
inductive Feature where
  /-- A token is active. -/
  | flag (token : String)
  /-- The compiler has this name. -/
  | compiler (name : String)
deriving DecidableEq, Repr

namespace Feature

/-- Whether a flag set has the feature. -/
def isActive (f : FlagSet) : Feature → Bool
  | flag token => f.has token
  | compiler name => f.compiler == name

/-- The features that are always tracked. -/
def defaults : List Feature :=
  [flag "-g3", flag "-O0", flag "-O1", flag "-O2", flag "-O3", compiler "emcc", flag "-pie",
   flag "-DINSTRUMENT", flag "-O", flag "-DLIBCPU", flag "SIDE_MODULE=1", flag "-fPIC"]

/-- How many features can be tracked. -/
def limit : Nat := 32

end Feature

/-- The parts of an object's name. -/
structure ObjectKey where
  directoryHash : String
  stem : String
  flagId : Nat
deriving DecidableEq, Repr

namespace ObjectKey

/-- The name without its extension. -/
def text (k : ObjectKey) : String :=
  k.directoryHash ++ "-" ++ k.stem ++ "-" ++ Numeral.base36 k.flagId

/-- The extension of objects. -/
def objectExtension : String := "o"

/-- The file name inside the cache directory. -/
def fileName (k : ObjectKey) : String :=
  k.text ++ "." ++ objectExtension

end ObjectKey

/-- Derives object names from a table of tracked features. -/
structure KeyDeriver where
  digest : String → UInt64
  features : List Feature

namespace KeyDeriver

/-- The deriver with the default features. -/
def standard (digest : String → UInt64) : KeyDeriver :=
  ⟨digest, Feature.defaults⟩

/-- The deriver in use. -/
def default : KeyDeriver :=
  standard Digest.Sha256.leadingWord

instance : Inhabited KeyDeriver := ⟨default⟩

/-- A table with one more flag, unless it is there. -/
def track (features : List Feature) (token : String) : List Feature :=
  if features.contains (.flag token) then features else features ++ [.flag token]

/-- Tracks more flags, each in the next free bit; the table has room for thirty-two features. -/
def withTracked (k : KeyDeriver) (tokens : List String) : Except BuildError KeyDeriver :=
  let features := tokens.foldl track k.features
  if Feature.limit < features.length then .error (.tooManyTracked features.length Feature.limit)
  else .ok { k with features }

/-- The number whose bits are given, lowest first. -/
def bitsValue : List Bool → Nat
  | [] => 0
  | b :: bs => b.toNat + 2 * bitsValue bs

/-- The lowest bits of a digest, as a number. -/
def lowBits (count : Nat) (word : UInt64) : Nat :=
  word.toNat % Nat.pow 2 count

/-- One bit for every tracked feature. -/
def featureBits (k : KeyDeriver) (f : FlagSet) : Nat :=
  bitsValue (k.features.map (·.isActive f))

/-- The lowest 31 bits of the digest of the variant's name. -/
def variantBits (k : KeyDeriver) (f : FlagSet) : Nat :=
  lowBits 31 (k.digest f.variant)

/-- The flag part of a key. -/
def flagId (k : KeyDeriver) (f : FlagSet) : Nat :=
  k.featureBits f + Nat.pow 2 32 * k.variantBits f + Nat.pow 2 63 * (f.has FlagSet.width32).toNat

/-- The directory of a source as text, with forward separators only. -/
def directoryText (source : Path) : String :=
  match source.parent? with
  | none => ""
  | some p => p.text.map fun c => if c = '\\' then '/' else c

/-- The file name of a source without `.c`; a name that is nothing else keeps it. -/
def stem (source : Path) : String :=
  let name := source.fileName?.getD ""
  match Text.beforeSuffix ".c" name with
  | some stem => if stem.isEmpty then name else stem
  | none => name

/-- The directory part of a key. -/
def directoryHash (k : KeyDeriver) (source : Path) : String :=
  Numeral.base36 (lowBits 32 (k.digest (directoryText source)))

/-- The key of the object of a source under a flag set. -/
def derive (k : KeyDeriver) (source : Path) (f : FlagSet) : ObjectKey :=
  ⟨k.directoryHash source, stem source, k.flagId f⟩

end KeyDeriver

end VariantBuild
