import Bibliography.CommandLine.Arguments
import Bibliography.Configuration
import Bibliography.Diagnostic.Report
import Bibliography.Job.Basic

set_option autoImplicit false

/-! # The command

The command makes the bibliography of one document. Diagnostics and the outcome go to the error
stream; the exit code is 0 when the bibliography was written, 2 when the arguments are wrong, and
1 when anything else failed. -/

namespace Bibliography.CommandLine

/-- What the command leaves behind besides files. -/
structure Result where
  code : Nat
  output : String := ""
  errors : String := ""
  deriving DecidableEq, Repr

def helpText : String :=
  "Format a bibliography from a LaTeX .aux file and a .bst style\n\n" ++
  "Usage: bibcraft [OPTIONS] <AUX_FILE>\n\n" ++
  "Arguments:\n" ++
  "  <AUX_FILE>  The .aux file written by LaTeX\n\n" ++
  "Options:\n" ++
  "      --bst-dir <DIR>       Directory to search for .bst files (repeatable)\n" ++
  "      --config <FILE>       Configuration file (defaults to bibcraft.toml next to the .aux file)\n" ++
  "      --min-crossrefs <N>   Entries cross-referenced this many times are included\n" ++
  "      --max-line-width <N>  Wrap output lines at this column\n" ++
  "  -o, --output <FILE>       Write the bibliography here instead of <AUX_FILE stem>.bbl\n" ++
  "      --json-diagnostics    Print diagnostics as JSON lines\n" ++
  "  -h, --help                Print help\n" ++
  "  -V, --version             Print version\n"

def versionText : String := "bibcraft 0.1.0\n"

def ofUsageError (e : UsageError) : Result where
  code := 2
  errors := "error: " ++ e.message ++ "\n\nUsage: bibcraft [OPTIONS] <AUX_FILE>\n\n" ++
    "For more information, try '--help'.\n"

def ofError (message : String) : Result where
  code := 1
  errors := "Error: " ++ message ++ "\n"

def ofConfigurationError (e : ConfigurationError) : Result :=
  ofError (e.message ++ "\n\nCaused by:\n    " ++ e.cause)

/-- A diagnostic as the user asked for it. -/
def shown (a : Arguments) (sources : SourceRegistry) (d : Diagnostic) : String :=
  if a.jsonDiagnostics then d.toJson.toText ++ "\n" else Diagnostic.unlines (d.lines sources)

/-- The number of warnings in words, if there is any. -/
def warningNote : Nat → String
  | 0 => ""
  | 1 => " (1 warning)"
  | n => " (" ++ toString n ++ " warnings)"

def ofReport (aux : Path) (a : Arguments) (r : JobReport) : Result :=
  let diagnostics := String.join (r.diagnostics.map (shown a r.sources))
  if r.written then
    { code := 0
      errors := diagnostics ++ "Wrote " ++ toString r.entries ++ " entries to " ++
        r.outputPath.quoted ++ warningNote r.warnings ++ "\n" }
  else
    { code := 1
      errors := diagnostics ++ "No bibliography written for " ++ aux.quoted ++ "\n" }

/-- The job of arguments and a configuration. What the arguments say comes first. -/
def jobOf (aux : Path) (a : Arguments) (c : Configuration) : Job where
  aux := aux
  styleDirectories := a.styleDirectories ++ c.styleDirectories
  options := { c.options with
    minCrossrefs := a.minCrossrefs.getD c.options.minCrossrefs
    maxLineWidth := a.maxLineWidth.getD c.options.maxLineWidth }
  output := a.output

/-- Runs the command for an aux file. A style that does not end within the fuel is a failure. -/
def runRequest {m : Type → Type} [Monad m] (access : JobAccess m) (fuel : Nat) (aux : Path)
    (a : Arguments) : m Result := do
  if !(← access.isPresent aux) then
    return ofError ("Input file does not exist: " ++ aux.quoted)
  match ← Configuration.load access.toFileAccess a.config aux.directory with
  | .error e => return ofConfigurationError e
  | .ok c =>
    match ← (jobOf aux a c).run access fuel with
    | none => return ofError "the style does not come to an end"
    | some r => return ofReport aux a r

def run {m : Type → Type} [Monad m] (access : JobAccess m) (fuel : Nat) (arguments : List Text) :
    m Result :=
  match Request.ofArguments arguments with
  | .error e => return ofUsageError e
  | .ok .help => return { code := 0, output := helpText }
  | .ok .version => return { code := 0, output := versionText }
  | .ok (.run aux a) => runRequest access fuel aux a

end Bibliography.CommandLine
