import VariantBuild.Path
/-!
# Build options

The switches of one invocation. They are independent of the variant; `Variant.initialFlags` says how
both come together.
-/

namespace VariantBuild

/-- How much the compiler optimizes. -/
inductive OptLevel where
  | bare
  | level (n : Nat)
deriving DecidableEq, Repr

/-- The flag of an optimization level. -/
def OptLevel.flag : OptLevel → String
  | bare => "-O"
  | level n => "-O" ++ toString n

/-- The pointer width of the target. -/
inductive ArchWidth where
  | bits32
  | bits64
deriving DecidableEq, Repr

/-- The flag of a width. -/
def ArchWidth.flag : ArchWidth → String
  | bits32 => "-m32"
  | bits64 => "-m64"

/-- The switches of one invocation. -/
structure BuildOptions where
  optimization : OptLevel
  archWidth : Option ArchWidth
  debugInfo : Bool
  /-- Adds `-DINSTRUMENT`. -/
  instrument : Bool
  /-- Adds `-pg` to the link. -/
  profile : Bool
  /-- Makes WebAssembly in an emscripten build. -/
  enableWasm : Bool
  output : Option Path
  /-- The compiler, and the final tool as well. -/
  cc : Option String
  /-- The final tool. -/
  fincc : Option String
deriving DecidableEq, Repr

namespace BuildOptions

/-- No optimization, with debug information. -/
def default : BuildOptions :=
  ⟨.level 0, none, true, false, false, false, none, none, none⟩

instance : Inhabited BuildOptions := ⟨default⟩

/-- Full optimization without debug information. -/
def release (o : BuildOptions) : BuildOptions :=
  { o with optimization := .level 3, debugInfo := false }

end BuildOptions

end VariantBuild
