import VariantBuild.Command
import VariantBuild.Error
import VariantBuild.Text.Blank
import VariantBuild.Text.Lossy
/-!
# Package flags

A variant may need packages; `pkg-config` tells their compiler and linker flags. Without packages
nothing is asked.
-/

namespace VariantBuild

/-- The flags of a variant's packages. -/
structure PackageFlags where
  cflags : List String
  libs : List String
deriving DecidableEq, Repr, Inhabited

namespace PackageFlags

/-- No flags. -/
def none : PackageFlags := ⟨[], []⟩

/-- The program that is asked. -/
def program : String := "pkg-config"

/-- Asks in one mode; the answer is the words of its output. -/
def ask (host : Host) (packages : List String) (mode : String) :
    Activity BuildError (List String) := do
  let outcome ← .start host ⟨program, mode :: packages, ⟨"."⟩, []⟩ (.spawn program)
  if outcome.exit.isSuccess then return Text.words (Text.ofBytes outcome.output)
  else throw (.packages packages (Text.trim (Text.ofBytes outcome.errors)))

/-- The flags of packages. -/
def query (host : Host) (packages : List String) : Activity BuildError PackageFlags := do
  if packages.isEmpty then return none
  else
    let cflags ← ask host packages "--cflags"
    let libs ← ask host packages "--libs"
    return ⟨cflags, libs⟩

end PackageFlags

end VariantBuild
