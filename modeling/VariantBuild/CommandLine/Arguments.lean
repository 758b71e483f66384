import VariantBuild.Config.Loader
import VariantBuild.Numeral
import VariantBuild.Text.Pieces
import VariantBuild.Variant.Basic
import VariantBuild.Variant.Options
/-!
# Command-line arguments

Arguments are read from left to right: switches, some with values, and operands. A value stands in the
same argument or in the next one; a switch whose value may be left out takes the next argument only if
that does not look like a switch. The first argument that is wrong, or that asks for help, ends the
reading, so of two faults the earlier one counts. `Reading` is the state between two arguments.
-/

namespace VariantBuild.CommandLine

/-- Why nothing is run. -/
inductive Stop where
  | usage
  | help
  | version
deriving DecidableEq, Repr

/-- Everything that can be switched. -/
inductive Switch where
  | release
  | optimization
  | output
  | archWidth
  | bits32
  | disableDebug
  | instrument
  | profile
  | enableWasm
  | cc
  | fincc
  | jobs
  | json
  | verbose
  | quiet
  | help
  | version
deriving DecidableEq, Repr

/-- How many values a switch takes. -/
inductive Arity where
  | none
  | one
  | atMostOne
deriving DecidableEq, Repr

namespace Switch

/-- The name after two hyphens. -/
def long : Switch → String
  | release => "release"
  | optimization => "optimization-level"
  | output => "output"
  | archWidth => "arch-width"
  | bits32 => "32-bit"
  | disableDebug => "disable-debug"
  | instrument => "instrument"
  | profile => "profile"
  | enableWasm => "enable-wasm"
  | cc => "cc"
  | fincc => "fincc"
  | jobs => "jobs"
  | json => "json"
  | verbose => "verbose"
  | quiet => "quiet"
  | help => "help"
  | version => "version"

/-- The letter after one hyphen. -/
def short? : Switch → Option Char
  | optimization => some 'O'
  | jobs => some 'j'
  | verbose => some 'v'
  | quiet => some 'q'
  | help => some 'h'
  | version => some 'V'
  | _ => none

/-- How many values the switch takes. -/
def arity : Switch → Arity
  | optimization => .atMostOne
  | output | archWidth | cc | fincc | jobs => .one
  | _ => .none

/-- Whether a value may be given to the switch. -/
def accepts (value : String) : Switch → Bool
  | output => !value.isEmpty
  | archWidth => value == "32" || value == "64"
  | jobs => (Numeral.unsigned? UInt64.size value).isSome
  | _ => true

/-- The switches of a build. -/
def ofBuild : List Switch :=
  [release, optimization, output, archWidth, bits32, disableDebug, instrument, profile, enableWasm,
   cc, fincc, jobs, json, help]

/-- The switches that every command knows. -/
def everywhere : List Switch :=
  [verbose, quiet, help]

end Switch

/-- What an argument list may hold. -/
structure Grammar where
  switches : List Switch
  /-- How many operands are allowed. -/
  operands : Nat

/-- The state of reading between two arguments. -/
structure Reading where
  /-- Switches seen so far, with their values. -/
  given : List (Switch × Option String)
  operands : List String
  /-- A switch that may still take the next argument as its value. -/
  pending : Option Switch
  /-- Whether only operands are left. -/
  operandsOnly : Bool

namespace Reading

/-- Before the first argument. -/
def start : Reading := ⟨[], [], none, false⟩

/-- Whether a switch was seen. -/
def has (r : Reading) (s : Switch) : Bool :=
  r.given.any (·.1 = s)

/-- The value of a switch. -/
def value? (r : Reading) (s : Switch) : Option String :=
  (r.given.lookup s).join

/-- Notes a switch and its value. No switch may come twice; help and version end the reading. -/
def note (r : Reading) (s : Switch) (value : Option String) : Except Stop Reading :=
  if s = .help then .error .help
  else if s = .version then .error .version
  else if r.has s ∨ !(value.map (s.accepts ·)).getD true then .error .usage
  else .ok { r with given := r.given ++ [(s, value)] }

/-- Notes an operand, if there is room for one. -/
def operand (g : Grammar) (r : Reading) (text : String) : Except Stop Reading :=
  if g.operands ≤ r.operands.length then .error .usage
  else .ok { r with operands := r.operands ++ [text] }

/-- Settles a switch that waits for a value and gets none. -/
def settle (r : Reading) : Except Stop Reading :=
  match r.pending with
  | none => .ok r
  | some s =>
    if s.arity = .one then .error .usage else { r with pending := none }.note s none

/-- Reads an argument that starts with two hyphens, without them. -/
def readLong (g : Grammar) (r : Reading) (text : String) : Except Stop Reading :=
  let (name, value) := match Text.splitFirst '=' text with
    | some (name, value) => (name, some value)
    | none => (text, none)
  match g.switches.find? (·.long = name) with
  | none => .error .usage
  | some s =>
    match s.arity, value with
    | .none, none => r.note s none
    | .none, some _ => .error .usage
    | _, some v => r.note s (some v)
    | _, none => .ok { r with pending := some s }

/-- Reads the letters of an argument that starts with one hyphen. The first one that takes a value
takes the rest of the argument, without a leading equals sign. -/
def readShort (g : Grammar) (r : Reading) : List Char → Except Stop Reading
  | [] => .ok r
  | c :: cs =>
    match g.switches.find? (·.short? = some c) with
    | none => .error .usage
    | some s =>
      if s.arity = .none then
        match r.note s none with
        | .ok r => readShort g r cs
        | .error e => .error e
      else match cs with
        | [] => .ok { r with pending := some s }
        | '=' :: value => r.note s (some (String.ofList value))
        | value => r.note s (some (String.ofList value))

/-- Reads one argument. -/
def step (g : Grammar) (r : Reading) (argument : String) : Except Stop Reading :=
  if r.operandsOnly then r.operand g argument
  else match argument.toList with
    | ['-', '-'] => do return { (← r.settle) with operandsOnly := true }
    | '-' :: '-' :: name => do (← r.settle).readLong g (String.ofList name)
    | '-' :: c :: cs => do (← r.settle).readShort g (c :: cs)
    | _ =>
      match r.pending with
      | some s => { r with pending := none }.note s (some argument)
      | none => r.operand g argument

/-- Reads all arguments. -/
def all (g : Grammar) (arguments : List String) : Except Stop Reading := do
  (← arguments.foldlM (step g) start).settle

end Reading

/-! ## Builds -/

/-- The arguments of a build. -/
structure BuildArguments where
  variant : Option String
  release : Bool
  /-- The optimization switch, and its value if it has one. -/
  optimization : Option (Option String)
  output : Option Path
  archWidth : Option ArchWidth
  bits32 : Bool
  disableDebug : Bool
  instrument : Bool
  profile : Bool
  enableWasm : Bool
  cc : Option String
  fincc : Option String
  jobs : Option Nat
  json : Bool

/-- A number for an optimization level that is none, beside a variant. -/
structure InvalidLevel where
  value : String

/-- The error in words. -/
def InvalidLevel.message (e : InvalidLevel) : String :=
  "Invalid optimization level '" ++ e.value ++ "'"

namespace BuildArguments

/-- The arguments of a build from what was read. -/
def ofReading (r : Reading) (json : Bool) : BuildArguments where
  variant := r.operands.head?
  release := r.has .release
  optimization := r.given.lookup .optimization
  output := (r.value? .output).map Path.mk
  archWidth := (r.value? .archWidth).map fun v => if v = "32" then .bits32 else .bits64
  bits32 := r.has .bits32
  disableDebug := r.has .disableDebug
  instrument := r.has .instrument
  profile := r.has .profile
  enableWasm := r.has .enableWasm
  cc := r.value? .cc
  fincc := r.value? .fincc
  jobs := (r.value? .jobs).bind (Numeral.unsigned? UInt64.size)
  json

/-- The variant that is named and the level that is asked for. A word after the optimization switch
that is not a number below 256 is the variant, if there is no other. -/
def target (a : BuildArguments) : Except InvalidLevel (Option String × Option OptLevel) :=
  match a.optimization with
  | none => .ok (a.variant, none)
  | some none => .ok (a.variant, some .bare)
  | some (some value) =>
    match Numeral.unsigned? 256 value with
    | some n => .ok (a.variant, some (.level n))
    | none => if a.variant.isNone then .ok (some value, some .bare) else .error ⟨value⟩

/-- The variant to build and the options. A level that is asked for wins over a release build. -/
def resolve (a : BuildArguments) : Except InvalidLevel (String × BuildOptions) := do
  let (variant, level) ← a.target
  let options : BuildOptions :=
    { BuildOptions.default with
      archWidth := if a.bits32 then some .bits32 else a.archWidth
      debugInfo := !a.disableDebug
      instrument := a.instrument
      profile := a.profile
      enableWasm := a.enableWasm
      output := a.output
      cc := a.cc
      fincc := a.fincc }
  let options := if a.release then options.release else options
  return (variant.getD Variant.defaultName,
    { options with optimization := level.getD options.optimization })

/-- Reads the arguments of a build that is the only command. -/
def parse (arguments : List String) : Except Stop BuildArguments := do
  let r ← Reading.all ⟨Switch.ofBuild, 1⟩ arguments
  return ofReading r (r.has .json)

end BuildArguments

/-! ## All commands -/

/-- What to do. -/
inductive Request where
  | build (arguments : BuildArguments)
  | redep
  | clean
  | variants (json : Bool)

/-- A request, and whether to report on success. -/
structure Invocation where
  request : Request
  isQuiet : Bool

namespace Invocation

/-- The names of the commands besides building. -/
def commandNames : List String :=
  ["redep", "clean", "variants", "help"]

/-- Whether the environment asks for JSON; only two spellings are understood. -/
def jsonOf (e : Environment) : Except Stop Bool :=
  match e.json with
  | none => .ok false
  | some "true" => .ok true
  | some "false" => .ok false
  | some _ => .error .usage

/-- A request after its arguments are read; one cannot be both verbose and quiet. -/
def ofReading (r : Reading) (request : Request) : Except Stop Invocation :=
  if r.has .verbose ∧ r.has .quiet then .error .usage else .ok ⟨request, r.has .quiet⟩

/-- The help command explains one command at most. -/
def help : List String → Stop
  | [] => .help
  | [name] => if commandNames.contains name then .help else .usage
  | _ => .usage

/-- Reads the arguments of a command that takes no operands. -/
def parseCommand (e : Environment) (switches : List Switch) (request : Bool → Request)
    (arguments : List String) : Except Stop Invocation := do
  let r ← Reading.all ⟨switches, 0⟩ arguments
  let json ← jsonOf e
  ofReading r (request (r.has .json || json))

/-- Reads all arguments. A command is recognized in the first place only; anything else is a build. -/
def parse (e : Environment) : List String → Except Stop Invocation
  | "redep" :: rest => parseCommand e Switch.everywhere (fun _ => .redep) rest
  | "clean" :: rest => parseCommand e Switch.everywhere (fun _ => .clean) rest
  | "variants" :: rest => parseCommand e (.json :: Switch.everywhere) .variants rest
  | "help" :: rest => .error (help rest)
  | arguments => do
    let r ← Reading.all ⟨.verbose :: .quiet :: .version :: Switch.ofBuild, 1⟩ arguments
    let json ← if r.has .json then pure true else jsonOf e
    ofReading r (.build (.ofReading r json))

end Invocation

end VariantBuild.CommandLine
