import VariantBuild.FlagSet
import VariantBuild.Variant.Basic
import VariantBuild.Variant.Options
import VariantBuild.Variant.Packages
import VariantBuild.Text.Upper
/-!
# The flags of a build

How a variant, the options of an invocation and the flags of packages make the flag set that
resolution starts from, and the flags at the end of the link.
-/

namespace VariantBuild

namespace Variant

/-- The flags that every build starts from. -/
def baseFlags : List String := ["-Wall", "-Wextra", "-Werror", "-g3", "-std=c99"]

/-- The link flags that every build starts from. -/
def baseEndFlags : List String := ["-lSDL", "-lSDLmain", "-lm", "-lz"]

/-- Puts configured tools in the place of the default compiler; a variant with tools of its own keeps
them. -/
def applyToolchain (v : Variant) (cc fincc : Option String) : Variant :=
  { v with
    compiler := if v.compiler = defaultCompiler then cc.getD v.compiler else v.compiler
    finalTool :=
      if v.finalTool = defaultCompiler then (fincc.or cc).getD v.finalTool else v.finalTool }

/-- The file that a build makes. -/
def outputPath (v : Variant) (o : BuildOptions) : Path :=
  (o.output.or v.output).getD defaultOutput

/-- The compiler of a build. -/
def compilerOf (v : Variant) (o : BuildOptions) : String :=
  o.cc.getD v.compiler

/-- The final tool of a build. -/
def finalToolOf (v : Variant) (o : BuildOptions) : String :=
  (o.fincc.or o.cc).getD v.finalTool

/-- Whether a file has an extension. -/
def hasExtension (p : Path) (ext : String) : Bool :=
  p.extension? == some ext

/-- The macro that names a build type. -/
def buildTypeMacro (buildType : String) : String :=
  "-D" ++ (Text.upper buildType).map (fun c => if c = '-' then '_' else c) ++ "_BUILD"

/-- The flags before build types have their say: base, variant, packages, width, instrumentation. -/
def commonFlags (v : Variant) (o : BuildOptions) (pkg : PackageFlags) : FlagSet :=
  ⟨baseFlags ++ v.flags ++ pkg.cflags ++ (o.archWidth.map ArchWidth.flag).toList ++
      (if o.instrument then ["-DINSTRUMENT"] else []),
    v.name, v.buildType, v.compilerOf o⟩

/-- Takes the debug flag out of a build without debug information. -/
def applyDebug (o : BuildOptions) (f : FlagSet) : FlagSet :=
  if o.debugInfo then f else f.remove "-g3"

/-- What the build type changes: emscripten builds use the GNU dialect, and a libcpu build of a script
is a standalone module, not a shared one. -/
def applyBuildType (v : Variant) (o : BuildOptions) (f : FlagSet) : FlagSet :=
  let f := if v.buildType = "emscripten" then f.replace "-std=c99" "-std=gnu99" else f
  if v.buildType = "libcpu" ∧ hasExtension (v.outputPath o) "js" then
    (f.remove "-shared").extend ["-s", "STANDALONE_WASM=1"]
  else f

/-- The flag set that resolution starts from. -/
def initialFlags (v : Variant) (o : BuildOptions) (pkg : PackageFlags) : FlagSet :=
  (v.applyBuildType o (applyDebug o (v.commonFlags o pkg))).extend
    [buildTypeMacro v.buildType, o.optimization.flag]

/-- The flags at the end of the link. Scripts and modules bring two of the base libraries along. -/
def finalFlags (v : Variant) (o : BuildOptions) (pkg : PackageFlags) : List String :=
  let flags := baseEndFlags ++ pkg.libs ++ v.endFlags ++
    (if o.profile then ["-pg"] else []) ++
    (if v.buildType = "emscripten" then ["-s", if o.enableWasm then "WASM=1" else "WASM=0"] else [])
  if hasExtension (v.outputPath o) "js" || hasExtension (v.outputPath o) "wasm" then
    flags.filter fun t => t ≠ "-lSDLmain" ∧ t ≠ "-lz"
  else flags

end Variant

end VariantBuild
