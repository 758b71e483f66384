import VariantBuild.Build
import VariantBuild.Json.Printer
/-!
# Reports

What the commands print: for people by default, as JSON on request. A failure goes to the error output
as a chain of messages from the outermost context to the first cause.
-/

namespace VariantBuild.CommandLine

/-- Lines of text, each ended. -/
def lines (ls : List String) : String :=
  String.join (ls.map (· ++ "\n"))

/-- Strings as a JSON array. -/
def stringArray (xs : List String) : Json :=
  .array (xs.map .string)

/-! ## Builds -/

/-- A successful build, for people. -/
def buildSummary (r : BuildResult) : String :=
  lines <|
    ["Built " ++ r.output.text ++ " (" ++ r.variant ++ ")",
     "  Files: " ++ toString r.stats.totalFiles ++ " linked, " ++ toString r.stats.compiledFiles ++
       " compiled"] ++
    (if 0 < r.stats.restarts then ["  Flag restarts: " ++ toString r.stats.restarts] else []) ++
    (if 0 < r.stats.tasksRun then ["  Pre-build tasks: " ++ toString r.stats.tasksRun] else [])

/-- A successful build as JSON. -/
def buildJson (r : BuildResult) : Json :=
  .object
    [("success", .boolean true), ("variant", .string r.variant), ("output", .string r.output.text),
     ("flags", stringArray r.flags.tokens), ("files", .integer r.stats.totalFiles),
     ("compiled", .integer r.stats.compiledFiles), ("restarts", .integer r.stats.restarts),
     ("tasks", .integer r.stats.tasksRun)]

/-- The files that a failed build could not compile. -/
def failuresOf : BuildError → List Path
  | .compilation failures => failures
  | _ => []

/-- A failed build, for people: only compilation has more to say than the error. -/
def failureSummary : BuildError → String
  | .compilation failures => lines ("Files that errored:" :: failures.map fun p => "  " ++ p.text)
  | _ => ""

/-- A failed build as JSON. -/
def failureJson (variant : String) (e : BuildError) : Json :=
  .object
    [("success", .boolean false), ("variant", .string variant), ("error", .string e.message),
     ("failures", stringArray ((failuresOf e).map (·.text)))]

/-! ## Other commands -/

/-- How many objects were removed. -/
def cleanSummary (removed : Nat) : String :=
  lines ["Removed " ++ toString removed ++ " object file(s)"]

/-- How many files were scanned. -/
def rescanSummary (scanned : Nat) : String :=
  lines ["Successfully recalculated dependencies of " ++ toString scanned ++ " file(s)"]

/-- A text with blanks up to a width. -/
def padRight (width : Nat) (text : String) : String :=
  text ++ String.ofList (List.replicate (width - text.length) ' ')

/-- A row of the table of variants. -/
def variantRow (name buildType compiler finalTool output : String) : String :=
  padRight 16 name ++ " " ++ padRight 12 buildType ++ " " ++ padRight 10 compiler ++ " " ++
    padRight 10 finalTool ++ " " ++ output

/-- All variants, for people. -/
def variantTable (vs : List Variant) : String :=
  lines <| variantRow "VARIANT" "BUILD TYPE" "CC" "FINAL" "OUTPUT" ::
    vs.map fun v =>
      variantRow v.name v.buildType v.compiler v.finalTool (v.outputPath .default).text

/-- A variant as JSON. -/
def variantJson (v : Variant) : Json :=
  .object
    [("name", .string v.name), ("build_type", .string v.buildType),
     ("compiler", .string v.compiler), ("final_tool", .string v.finalTool),
     ("output", .string (v.outputPath .default).text), ("builtin", .boolean v.isBuiltin)]

/-- All variants as JSON. -/
def variantsJson (vs : List Variant) : Json :=
  .array (vs.map variantJson)

/-! ## Failures -/

/-- A message with its further lines indented. -/
def indentLines (first further : String) (message : String) : String :=
  match Text.split (· == '\n') message with
  | [] => first
  | l :: ls => ("\n" ++ further).intercalate ((first ++ l) :: ls)

/-- The causes of a failure; they are numbered if there are several. -/
def causes : List String → String
  | [cause] => "\n" ++ indentLines "    " "    " cause
  | cs => String.join <| cs.zipIdx.map fun (cause, i) =>
      "\n" ++ indentLines ("    " ++ toString i ++ ": ") "       " cause

/-- A chain of messages from the outermost context inwards. -/
def failureText : List String → String
  | [] => ""
  | [message] => "Error: " ++ message
  | message :: rest => "Error: " ++ message ++ "\n\nCaused by:" ++ causes rest

end VariantBuild.CommandLine
