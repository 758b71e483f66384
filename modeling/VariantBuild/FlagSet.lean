/-!
# Flag sets

A `FlagSet` is the ordered list of flag tokens of one invocation, with the names that select files
and objects: the variant, the build type and the compiler. During resolution it only grows; the one
exception is an exclusive group, of which `pruneExclusive` leaves the member that came last, where it
stands.
-/

namespace VariantBuild

/-- Flag tokens in order, and what they were put together for. -/
structure FlagSet where
  tokens : List String
  variantName : String
  buildType : String
  compiler : String
deriving DecidableEq, Repr, Inhabited

namespace FlagSet

/-- The flag for 32-bit targets. -/
def width32 : String := "-m32"

/-- The flag for 64-bit targets. -/
def width64 : String := "-m64"

/-- The flags that set the architecture width; at most one may stay active. -/
def widths : List String := [width32, width64]

/-- No flags yet, for a build type and a compiler. -/
def new (buildType compiler : String) : FlagSet :=
  ⟨[], "", buildType, compiler⟩

/-- The variant's name, or the build type where no name was given. -/
def variant (f : FlagSet) : String :=
  if f.variantName.isEmpty then f.buildType else f.variantName

/-- Whether a token is active. -/
def has (f : FlagSet) (token : String) : Bool :=
  f.tokens.contains token

/-- Appends a token, also one that is active already: option pairs repeat their first half. -/
def push (f : FlagSet) (token : String) : FlagSet :=
  { f with tokens := f.tokens ++ [token] }

/-- Appends tokens. -/
def extend (f : FlagSet) (tokens : List String) : FlagSet :=
  { f with tokens := f.tokens ++ tokens }

/-- Appends a token unless it is active. -/
def add (f : FlagSet) (token : String) : FlagSet :=
  if f.has token then f else f.push token

/-- Takes away the first occurrence of a token. -/
def remove (f : FlagSet) (token : String) : FlagSet :=
  { f with tokens := f.tokens.erase token }

/-- Puts `new` in the place of every `old`. -/
def replace (f : FlagSet) (old new : String) : FlagSet :=
  { f with tokens := f.tokens.map fun t => if t = old then new else t }

/-- The tokens without those group members that another member follows. -/
def pruneTokens (group : List String) : List String → List String
  | [] => []
  | t :: ts =>
    if t ∈ group ∧ ∃ u ∈ ts, u ∈ group then pruneTokens group ts else t :: pruneTokens group ts

/-- Leaves the last member of an exclusive group, where it stands. -/
def pruneExclusive (f : FlagSet) (group : List String) : FlagSet :=
  { f with tokens := pruneTokens group f.tokens }

/-- Leaves the last architecture width. -/
def pruneWidths (f : FlagSet) : FlagSet :=
  f.pruneExclusive widths

/-- The tokens in one line. -/
def text (f : FlagSet) : String :=
  " ".intercalate f.tokens

end FlagSet

end VariantBuild
