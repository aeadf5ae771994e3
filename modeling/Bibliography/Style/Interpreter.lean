import Bibliography.Database.Provider
import Bibliography.Style.Command
import Bibliography.Style.Execution

set_option autoImplicit false

/-! # Running styles

An interpreter keeps what lasts from one command to the next, and from one style to the next that
it runs: the declarations, the database, the citations and the machine. A command that fails ends
the run; what was done before stays. -/

namespace Bibliography.Style

/-- What lasts from one command to the next. -/
structure Interpreter where
  options : Options
  source : Source
  abbreviations : Abbreviations := .months
  data : Database := .empty
  /-- The keys of the entries of the bibliography, in their order. -/
  citations : List Text := []
  /-- The folded keys of the entries whose cross reference can be seen. -/
  visibleCrossrefs : List Text := []
  entrySeen : Bool := false
  readSeen : Bool := false
  machine : Machine
  /-- What reading the database warned of. -/
  warnings : List BibWarning := []

namespace Interpreter

def fresh (options : Options) (source : Source) (answers : SinkAnswers) : Interpreter where
  options := options
  source := source
  machine := { bindings := initialBindings, sink := { answers := answers } }

/-- The scene of a function that runs for an entry, or for none. -/
def scene (i : Interpreter) (current : Option Text) : Scene where
  options := i.options
  data := i.data
  visibleCrossrefs := i.visibleCrossrefs
  current := current

/-! ## Declarations -/

/-- Binds names that are not bound yet, up to the first that is. -/
def declare (binding : Binding) : List Text → Table Binding → Table Binding × Option Fault
  | [], t => (t, none)
  | name :: names, t =>
    if t.contains name then (t, some (.duplicateDeclaration name))
    else declare binding names (t.set name binding)

/-- Binds rows of names, up to the first name that is bound already. -/
def declareAll : List (Binding × List Text) → Table Binding → Table Binding × Option Fault
  | [], t => (t, none)
  | (binding, names) :: rows, t =>
    match declare binding names t with
    | (t, some f) => (t, some f)
    | (t, none) => declareAll rows t

def withDeclared (i : Interpreter) (rows : List (Binding × List Text)) :
    Except Fault Unit × Interpreter :=
  let (bindings, fault?) := declareAll rows i.machine.bindings
  let i := { i with machine := { i.machine with bindings := bindings } }
  match fault? with
  | some f => (.error f, i)
  | none => (.ok (), i)

/-- Declares the fields and variables of entries. The cross reference is a field in any case. -/
def declareEntries (i : Interpreter) (span : SourceSpan) (fields integers strings : List Text) :
    Except Fault Unit × Interpreter :=
  if i.readSeen then (.error (.outOfOrder "ENTRY" .beforeRead span), i)
  else if i.entrySeen then (.error (.outOfOrder "ENTRY" .onlyOnce span), i)
  else
    let crossref := "crossref".toList
    { i with entrySeen := true }.withDeclared
      [(.field, fields), (.field, if fields.contains crossref then [] else [crossref]),
        (.entryInteger, integers), (.entryString, strings)]

/-- Defines an abbreviation for the values of the database. -/
def abbreviate (i : Interpreter) (span : SourceSpan) (name value : Text) :
    Except Fault Unit × Interpreter :=
  if i.readSeen then (.error (.outOfOrder "MACRO" .beforeRead span), i)
  else (.ok (), { i with abbreviations := i.abbreviations.define name value })

/-! ## Reading the database -/

/-- The key that stands for all entries. -/
def wildcard : Text := ['*']

/-- The requested keys that are in the database, each in its first spelling, and the others;
`seen` holds the folded keys before. -/
def splitRequested (d : Database) (seen : List Text) : List Text → List Text × List Text
  | [] => ([], [])
  | key :: keys =>
    if key = wildcard ∨ seen.contains key.fold then splitRequested d seen keys
    else
      let (known, unknown) := splitRequested d (key.fold :: seen) keys
      if d.contains key then (key :: known, unknown) else (known, key :: unknown)

/-- The requested keys that are in the database, each in its first spelling. -/
def knownKeys (d : Database) (requested : List Text) : List Text :=
  (splitRequested d [] requested).1

/-- The requested keys that are not in the database, each in its first spelling. -/
def missingKeys (d : Database) (requested : List Text) : List Text :=
  (splitRequested d [] requested).2

/-- The citations for a list of requested keys: those that are in the database, and after them,
if all entries are requested, the others in the order of the database. -/
def expandCitations (d : Database) (requested : List Text) : List Text :=
  let known := knownKeys d requested
  let folded := known.map Text.fold
  known ++ if requested.contains wildcard then d.keys.filter (!folded.contains ·.fold) else []

def readWarning (message : String) : Diagnostic where
  severity := .warning
  title := message
  code := some "B-4-12"

def missingEntryWarning (key : Text) : Diagnostic :=
  readWarning ("I didn't find a database entry for \"" ++ String.ofList key ++ "\"")

def badCrossrefWarning (key parent : Text) : Diagnostic :=
  readWarning ("A bad cross reference---entry \"" ++ String.ofList key ++ "\" refers to entry \"" ++
    String.ofList parent ++ "\", which doesn't exist")

def crossrefOf? (d : Database) (key : Text) : Option Text := (d.entry? key).bind (·.crossref?)

/-- The cited entries whose cross reference leads to no entry, with what they refer to. -/
def danglingCrossrefs (d : Database) (citations : List Text) : List (Text × Text) :=
  citations.filterMap fun key =>
    match crossrefOf? d key with
    | some parent => if d.contains parent then none else some (key, parent)
    | none => none

/-- The key of the entry that a cited entry refers to, as that entry spells it. -/
def parentKey? (d : Database) (key : Text) : Option Text :=
  (crossrefOf? d key).bind fun parent => (d.entry? parent).map (·.key)

/-- The keys of the entries that the cited entries refer to, once for each reference. -/
def referencedKeys (d : Database) (citations : List Text) : List Text :=
  citations.filterMap (parentKey? d)

/-- The keys of the entries that are not cited and to which at least `min` cited entries refer, as
they are first referred to. -/
def uncitedParents (min : Nat) (d : Database) (citations : List Text) : List Text :=
  let referenced := referencedKeys d citations
  let cited := citations.map Text.fold
  referenced.eraseDups.filter fun key =>
    !cited.contains key.fold && decide (min ≤ referenced.count key)

/-- The keys to add to the citations, in the order that the options ask for. -/
def addedParents (options : Options) (d : Database) (citations : List Text) : List Text :=
  let added := uncitedParents options.minCrossrefs d citations
  match options.crossrefOrder with
  | .sorted => added.mergeSort fun a b => a.fold.le b.fold
  | .firstReference => added

/-- The folded keys of the citations whose cross reference leads to another of them. -/
def seenCrossrefs (d : Database) (citations : List Text) : List Text :=
  let included := citations.map Text.fold
  (citations.filter fun key =>
    ((crossrefOf? d key).map fun parent => included.contains parent.fold).getD false).map Text.fold

/-- The interpreter once the database is there: the citations are settled, and warnings tell of
missing entries and of cross references that lead nowhere. -/
def settled (i : Interpreter) (d : Database) : Interpreter :=
  let cited := expandCitations d i.citations
  let citations := cited ++ addedParents i.options d cited
  let diagnostics := (missingKeys d i.citations).map missingEntryWarning ++
    (danglingCrossrefs d cited).map fun p => badCrossrefWarning p.1 p.2
  { i with
    data := d
    citations := citations
    visibleCrossrefs := seenCrossrefs d citations
    machine := { i.machine with
      diagnostics := i.machine.diagnostics ++ diagnostics
      entryVariables := citations.foldl (fun t key => t.set key.fold {}) [] } }

/-- Reads the database and settles the citations. -/
def read (i : Interpreter) (bibFiles : List Text) (span : SourceSpan) :
    Except Fault Unit × Interpreter :=
  if i.readSeen then (.error (.outOfOrder "READ" .onlyOnce span), i)
  else
    let (loaded, warnings) := i.source.load bibFiles i.abbreviations
    let i := { i with readSeen := true, warnings := i.warnings ++ warnings }
    match loaded with
    | .error e => (.error (.database e), i)
    | .ok d => (.ok (), i.settled d)

/-! ## Sorting -/

/-- The text by which a citation is sorted. -/
def sortKeyOf (values : Table EntryVariables) (key : Text) : Text :=
  ((values.get? key.fold).bind fun v => v.strings.get? sortKey).getD []

/-- Sorts the citations; those with equal sort keys keep their order. -/
def sortCitations (i : Interpreter) : Interpreter :=
  { i with citations := i.citations.mergeSort fun a b =>
      (sortKeyOf i.machine.entryVariables a).le (sortKeyOf i.machine.entryVariables b) }

def sort (i : Interpreter) (span : SourceSpan) : Except Fault Unit × Interpreter :=
  if i.readSeen then (.ok (), i.sortCitations)
  else (.error (.outOfOrder "SORT" .afterRead span), i)

/-- Runs a function for an entry or for none. Nothing when the fuel does not suffice. -/
def runFunction (fuel : Nat) (i : Interpreter) (current : Option Text) (name : Text) :
    Option (Except Fault Unit × Interpreter) :=
  match runName fuel name (i.scene current) i.machine with
  | .unfinished => none
  | .failed f m => some (.error f, { i with machine := m })
  | .done () m => some (.ok (), { i with machine := m })

end Interpreter

/-! ## Commands -/

/-- A state on which commands are run. It holds an interpreter, and functions can be run on it. -/
structure Stage (S : Type) where
  interpreter : S → Interpreter
  update : S → Interpreter → S
  /-- Runs a function for an entry or for none. Nothing when the fuel does not suffice. -/
  runFunction : S → Option Text → Text → Option (Except Fault Unit × S)
  /-- No entry is current any more. -/
  leave : S → S

namespace Stage

variable {S : Type} (T : Stage S)

/-- The end of a command that runs no function. -/
def ends (σ : S) (r : Except Fault Unit × Interpreter) : Option (Except Fault Unit × S) :=
  some (r.1, T.update σ r.2)

/-- Runs a function for entries one after the other, up to the first for which it fails; the fault
then tells of the entry. -/
def iterate (word : String) (span : SourceSpan) (name : Text) :
    List Text → S → Option (Except Fault Unit × S)
  | [], σ => some (.ok (), T.leave σ)
  | key :: keys, σ =>
    match T.runFunction σ (some key) name with
    | none => none
    | some (.error f, σ) => some (.error (f.within word (some key) span), T.leave σ)
    | some (.ok (), σ) => iterate word span name keys σ

/-- Runs a function for the entries `keys`; the database must have been read. -/
def iterateCommand (word : String) (span : SourceSpan) (name : Text) (keys : List Text) (σ : S) :
    Option (Except Fault Unit × S) :=
  let i := T.interpreter σ
  if !i.readSeen then some (.error (.outOfOrder word .afterRead span), σ)
  else if !i.machine.bindings.contains name then some (.error (.undefinedName name), σ)
  else T.iterate word span name keys σ

/-- Runs a command, where `bibFiles` are the names of the database files. -/
def runCommand (bibFiles : List Text) (c : LocatedCommand) (σ : S) :
    Option (Except Fault Unit × S) :=
  let i := T.interpreter σ
  match c.command with
  | .entry fields integers strings => T.ends σ (i.declareEntries c.span fields integers strings)
  | .integers names => T.ends σ (i.withDeclared [(.integer 0, names)])
  | .strings names => T.ends σ (i.withDeclared [(.string [], names)])
  | .function name body => T.ends σ (i.withDeclared [(.function body, [name])])
  | .abbreviation name value => T.ends σ (i.abbreviate c.span name value)
  | .read => T.ends σ (i.read bibFiles c.span)
  | .execute name => T.runFunction σ none name
  | .iterate name => T.iterateCommand "ITERATE" c.span name i.citations σ
  | .reverse name => T.iterateCommand "REVERSE" c.span name i.citations.reverse σ
  | .sort => T.ends σ (i.sort c.span)

/-- Runs commands one after the other, up to the first that fails; the fault then tells of the
command. -/
def runCommands (bibFiles : List Text) : Program → S → Option (Except Fault Unit × S)
  | [], σ => some (.ok (), σ)
  | c :: cs, σ =>
    match T.runCommand bibFiles c σ with
    | none => none
    | some (.error f, σ) => some (.error (f.within c.command.word none c.span), σ)
    | some (.ok (), σ) => runCommands bibFiles cs σ

end Stage

namespace Interpreter

/-- Commands are run on an interpreter as it is. Which entry is current is said to each function,
and nothing is left of it. -/
def stage (fuel : Nat) : Stage Interpreter where
  interpreter i := i
  update _ i := i
  runFunction := runFunction fuel
  leave i := i

def iterate (fuel : Nat) (i : Interpreter) (word : String) (span : SourceSpan) (name : Text)
    (keys : List Text) : Option (Except Fault Unit × Interpreter) :=
  (stage fuel).iterate word span name keys i

def iterateCommand (fuel : Nat) (i : Interpreter) (word : String) (span : SourceSpan)
    (name : Text) (keys : List Text) : Option (Except Fault Unit × Interpreter) :=
  (stage fuel).iterateCommand word span name keys i

def runCommand (fuel : Nat) (bibFiles : List Text) (i : Interpreter) (c : LocatedCommand) :
    Option (Except Fault Unit × Interpreter) :=
  (stage fuel).runCommand bibFiles c i

def runCommands (fuel : Nat) (bibFiles : List Text) (p : Program) (i : Interpreter) :
    Option (Except Fault Unit × Interpreter) :=
  (stage fuel).runCommands bibFiles p i

def flush (i : Interpreter) : Except Fault Unit × Interpreter :=
  if i.machine.output = [] then (.ok (), i)
  else
    match Run.newline (i.scene none) i.machine with
    | .done () m => (.ok (), { i with machine := m })
    | .failed f m => (.error f, { i with machine := m })
    | .unfinished => (.ok (), i)

/-- Runs a style for a list of requested keys and the names of database files. -/
def run (fuel : Nat) (i : Interpreter) (p : Program) (citations bibFiles : List Text) :
    Option (Except Fault Unit × Interpreter) :=
  match runCommands fuel bibFiles p { i with citations := citations } with
  | some (.ok (), i) => some i.flush
  | other => other

end Interpreter

end Bibliography.Style
