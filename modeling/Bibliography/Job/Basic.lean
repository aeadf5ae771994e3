import Bibliography.AuxFile.Reading
import Bibliography.Job.StyleFile
import Bibliography.Source.Registry
import Bibliography.Style.Interpreter

set_option autoImplicit false

/-! # Jobs

A job reads the aux file of a document, finds and runs the style, and writes the bibliography. The
output is written only when everything before succeeded; the first failure ends the job with an
error, after the diagnostics that were raised up to then. -/

namespace Bibliography

/-- What a job does with files. How the aux files of a document are read is part of it, because
that ends only where files are finitely many. -/
structure JobAccess (m : Type → Type) extends FileAccess m where
  readAux : Path → m (Except AuxError AuxContents)

def FileTree.jobAccess : JobAccess (StateM FileTree) where
  toFileAccess := FileTree.access
  readAux path := do return AuxContents.read (← get) path

structure Job where
  aux : Path
  /-- Where styles are looked for besides the usual places. -/
  styleDirectories : List Path := []
  options : Style.Options := {}
  /-- Where the bibliography goes, if not beside the aux file. -/
  output : Option Path := none
  deriving DecidableEq, Repr

structure JobReport where
  outputPath : Path
  written : Bool := false
  /-- The number of entries in the bibliography. -/
  entries : Nat := 0
  diagnostics : List Diagnostic := []
  /-- The style, as the diagnostics refer to it. -/
  sources : SourceRegistry := []
  deriving DecidableEq, Repr

namespace JobReport

/-- The report with an error added, which ends the job. -/
def fail (r : JobReport) (d : Diagnostic) : JobReport :=
  { r with diagnostics := r.diagnostics ++ [d] }

def warnings (r : JobReport) : Nat := Diagnostic.count .warning r.diagnostics

end JobReport

namespace Job

def outputPath (j : Job) : Path := j.output.getD (Path.withExtension j.aux "bbl".toList)

/-- The directory of the aux file, in which databases are looked for. -/
def directory (j : Job) : Path := Path.directory j.aux

def unwritable (path : Path) (cause : FileError) : Diagnostic where
  severity := .error
  title := "Output Error"
  code := some "B-4-10"
  problem := some ("Cannot write " ++ path.toString ++ ": " ++ cause.message)

variable {m : Type → Type} [Monad m]

/-- Reads files, and gives each with what reading it gave. -/
def readEach (files : FileAccess m) :
    List Path → m (List (Path × Except FileError Text))
  | [] => return []
  | p :: ps => do
    let text ← files.read p
    return (p, text) :: (← readEach files ps)

/-- The files that were read, as a place where entries come from. -/
def sourceOf (directory : Path) (texts : List (Path × Except FileError Text)) : Source :=
  .files directory fun p => (texts.lookup p).getD (.error .notFound)

/-- Runs a style for what the aux file asks for, and writes the bibliography. -/
def runProgram (files : FileAccess m) (fuel : Nat) (j : Job) (aux : AuxContents)
    (r : JobReport) (p : Style.Program) : m (Option JobReport) := do
  let texts ← readEach files (aux.databases.map (Source.bibPath j.directory))
  let i := Style.Interpreter.fresh j.options (sourceOf j.directory texts) .willing
  match i.run fuel p aux.citations aux.databases with
  | none => return none
  | some (result, i) =>
    let r := { r with entries := i.citations.length, diagnostics := i.machine.diagnostics }
    match result with
    | .error e => return some (r.fail e.diagnostic)
    | .ok () =>
      match ← files.write r.outputPath i.machine.sink.written with
      | .error e => return some (r.fail (unwritable r.outputPath e))
      | .ok () => return some { r with written := true }

/-- Finds and reads the style that the aux file asks for, and goes on with it. -/
def runStyle (files : FileAccess m) (fuel : Nat) (j : Job) (aux : AuxContents)
    (r : JobReport) : m (Option JobReport) := do
  let style := aux.style.getD []
  match ← StyleFile.find files style j.directory j.styleDirectories with
  | none => return some (r.fail (StyleFile.notFound style j.directory j.styleDirectories))
  | some path =>
    match ← files.read path with
    | .error e => return some (r.fail (StyleFile.unreadable path e))
    | .ok text =>
      let r := { r with sources := [⟨path, some text⟩] }
      match Style.Program.ofText text 0 with
      | .error (fault, span) => return some (r.fail (Style.Fault.malformed fault span).diagnostic)
      | .ok p => runProgram files fuel j aux r p

/-- Runs a job. There is no report when the style does not end within the fuel. -/
def run (access : JobAccess m) (fuel : Nat) (j : Job) : m (Option JobReport) := do
  let r : JobReport := { outputPath := j.outputPath }
  match ← access.readAux j.aux with
  | .error e => return some (r.fail e.diagnostic)
  | .ok aux => runStyle access.toFileAccess fuel j aux r

end Job

end Bibliography
