import VariantBuild.Path
/-!
# Variants

A variant names a target: the build type that directives match, the compiler and the final tool, more
flags, packages, and manifests to leave out. Six variants are built in.
-/

namespace VariantBuild

/-- A target configuration. -/
structure Variant where
  name : String
  /-- What `@flags` directives match. -/
  buildType : String
  compiler : String
  finalTool : String
  flags : List String
  /-- Flags for the link only, at its end. -/
  endFlags : List String
  packages : List String
  /-- Places in the manifest index to leave out. -/
  excludedManifests : List Nat
  output : Option Path
deriving DecidableEq, Repr, Inhabited

namespace Variant

/-- The variant that is built when none is named. -/
def defaultName : String := "native"

/-- The compiler and final tool of a variant that names none. -/
def defaultCompiler : String := "gcc"

/-- The output of a variant that names none. -/
def defaultOutput : Path := ⟨"halfix"⟩

/-- A variant without extras, whose build type is its name. -/
def plain (name : String) : Variant :=
  ⟨name, name, defaultCompiler, defaultCompiler, [], [], [], [], none⟩

/-- The names that need no configuration. -/
def builtinNames : List String :=
  ["native", "gtk", "win32", "libcpu", "libcpu-wasm", "emscripten"]

/-- The built-in variant with a name. -/
def builtin? (name : String) : Option Variant :=
  let v := plain name
  if name = "native" then some v
  else if name = "gtk" then some { v with packages := ["gtk+-3.0"] }
  else if name = "win32" then some { v with endFlags := ["-lgdi32", "-lcomdlg32"] }
  else if name = "libcpu" then
    some { v with flags := ["-fPIC", "-shared", "-DLIBCPU"], excludedManifests := [0, 2] }
  else if name = "libcpu-wasm" then
    some
      { v with
        buildType := "libcpu"
        compiler := "emcc"
        finalTool := "emcc"
        flags := ["-fPIC", "-s", "SIDE_MODULE=1", "-DLIBCPU"]
        excludedManifests := [0, 2]
        output := some ⟨"libcpu.wasm"⟩ }
  else if name = "emscripten" then
    some
      { v with
        compiler := "emcc"
        finalTool := "emcc"
        endFlags := ["-s", "NO_FILESYSTEM=1", "-s", "TOTAL_MEMORY=256MB"]
        output := some ⟨"halfix.js"⟩ }
  else none

/-- Whether the variant has the name of a built-in one. -/
def isBuiltin (v : Variant) : Bool :=
  builtinNames.contains v.name

/-- The variant in one line. -/
def text (v : Variant) : String :=
  v.name ++ " (build type " ++ v.buildType ++ ", " ++ v.compiler ++ " / " ++ v.finalTool ++ ")"

end Variant

end VariantBuild
