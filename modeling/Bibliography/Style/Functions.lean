import Bibliography.NameFormat.Layout
import Bibliography.Style.Machine
import Bibliography.Style.Reader
import Bibliography.Tex.Case
import Bibliography.Tex.Excerpt
import Bibliography.Tex.Purified
import Bibliography.Text.Wrapped

set_option autoImplicit false

/-! # What built-in functions do

A function takes its arguments from the stack, the last one first, and puts its result there. -/

namespace Bibliography.Style

/-- A single name printed by a pattern. A fault of the name comes before one of the pattern. -/
def formatName (name pattern : Text) : Except Fault Text := do
  let p ← (Person.read name).mapError .database
  let format ← (NameFormat.ofPattern pattern).mapError (.invalidNameFormat pattern)
  return format.formatLatex p

namespace Run

/-! ## Numbers -/

def pushChecked (n : Int) : Run Unit :=
  if inRange n then push (.integer n) else invalidArgument .overflow

/-- Takes two integers and puts the truth of a comparison. -/
def compare (p : Int → Int → Bool) : Run Unit := do
  let right ← popInteger
  let left ← popInteger
  push (.ofBool (p left right))

/-- Takes two integers and puts what an operation makes of them. -/
def combine (f : Int → Int → Int) : Run Unit := do
  let right ← popInteger
  let left ← popInteger
  pushChecked (f left right)

/-- Two integers or two strings are equal. -/
def equal : Run Unit := do
  let right ← pop
  let left ← pop
  match left, right with
  | .integer a, .integer b => push (.ofBool (a == b))
  | _, _ =>
    match left.text?, right.text? with
    | some a, some b => push (.ofBool (a == b))
    | some _, none => mismatch .comparable right
    | none, _ => mismatch .comparable left

/-- Joins two strings, or multiplies two integers. -/
def times : Run Unit := do
  let right ← pop
  let left ← pop
  match left, right with
  | .integer a, .integer b => pushChecked (a * b)
  | _, _ =>
    match left.text?, right.text? with
    | some a, some b => push (.string (a ++ b))
    | some _, none => mismatch .joinable right
    | none, _ => mismatch .joinable left

/-! ## Variables -/

def setVariable (name : Text) (v : Value) : Run Unit := do
  let invalid (f : AssignmentFault) : Run Unit := fail (.invalidAssignment name f)
  let bind (b : Binding) : Run Unit :=
    change fun m => { m with bindings := m.bindings.set name b }
  match (← bindings).get? name with
  | none => fail (.undefinedName name)
  | some (.integer _) =>
    match v with
    | .integer n => bind (.integer n)
    | other => invalid (.wantsInteger other.kind)
  | some (.string _) =>
    match v.text? with
    | some s => bind (.string s)
    | none => invalid (.wantsString v.kind)
  | some .entryInteger =>
    match v with
    | .integer n =>
      changeVariables name fun vars => { vars with integers := vars.integers.set name n }
    | other => invalid (.wantsInteger other.kind)
  | some .entryString =>
    match v.text? with
    | some s => changeVariables name fun vars => { vars with strings := vars.strings.set name s }
    | none => invalid (.wantsString v.kind)
  | some .field => invalid .field
  | some (.builtin _) | some (.function _) => invalid .function

/-- Puts a reference to a name on the stack, which must be bound. -/
def refer (name : Text) : Run Unit := do
  if (← bindings).contains name then push (.reference name) else fail (.undefinedName name)

/-- Assigns the value below the top of the stack to the name on top. -/
def assign : Run Unit := do
  let target ← pop
  let v ← pop
  match target with
  | .reference name => setVariable name v
  | other => fail (.invalidAssignment other.shown (.target other.kind))

/-! ## Strings -/

/-- Takes a string and puts what an operation makes of it. -/
def transform (f : Text → Value) : Run Unit := do
  let s ← popString
  push (f s)

def changeCase : Run Unit := do
  let mode ← popString
  let s ← popString
  let mode ← ofExcept ((Tex.CaseMode.ofText? mode).mapError (.text .changeCase))
  push (.string (Tex.changeCase s mode))

def chrToInt : Run Unit := do
  let s ← popString
  match s with
  | [c] => push (.integer c.toNat)
  | s => invalidArgument (.notOneCharacter s)

def intToChr : Run Unit := do
  let n ← popInteger
  if 0 ≤ n ∧ n.toNat.isValidChar then push (.string [Char.ofNat n.toNat])
  else invalidArgument (.notACharacter n)

def substring : Run Unit := do
  let len ← popInteger
  let start ← popInteger
  let s ← popString
  let part ← ofExcept ((Tex.substring s start len).mapError (.text .substring))
  push (.string part)

/-- The first units of a string. -/
def textPrefix : Run Unit := do
  let n ← popInteger
  let s ← popString
  push (.string (Tex.textPrefix s n))

/-- Whether a field is missing or a string blank. An integer never is. -/
def empty : Run Unit := do
  match ← pop with
  | .missing _ => push (.ofBool true)
  | .string s => push (.ofBool s.isBlank)
  | .integer _ => push (.ofBool false)
  | other => mismatch .string other

def missing : Run Unit := do
  match ← pop with
  | .missing _ => push (.ofBool true)
  | _ => push (.ofBool false)

/-! ## Names -/

/-- The name with a number, counted from 1. -/
def nameAt? (names : List Text) (index : Int) : Option Text :=
  if 1 ≤ index then names[(index - 1).toNat]? else none

/-- The format of a pattern, for a machine that keeps certain formats. -/
def nameFormatFrom (pattern : Text) (m : Machine) (known : FormatCache) : Outcome NameFormat :=
  match known.format pattern with
  | (.ok f, known) => .done f { m with formats := Squash.mk known }
  | (.error fault, known) =>
    .failed (.invalidNameFormat pattern fault) { m with formats := Squash.mk known }

theorem nameFormatFrom_eq (pattern : Text) (m : Machine) (known : FormatCache) :
    nameFormatFrom pattern m known =
      match NameFormat.ofPattern pattern with
      | .ok f => .done f m
      | .error fault => .failed (.invalidNameFormat pattern fault) m := by
  have hsame : ∀ formats, { m with formats := formats } = m := fun formats => by
    rw [Subsingleton.elim formats m.formats]
  rw [nameFormatFrom, ← known.fst_format pattern]
  split
  · next h => rw [h, hsame]
  · next h => rw [h, hsame]

/-- The format of a pattern. It is read unless it is kept from before. -/
def nameFormat (pattern : Text) : Run NameFormat := fun _ m =>
  m.formats.liftOn (nameFormatFrom pattern m) fun known other _ => by
    rw [nameFormatFrom_eq, nameFormatFrom_eq]

/-- Whatever is kept, a pattern is read as it is without a cache. -/
theorem nameFormat_eq (pattern : Text) :
    nameFormat pattern =
      ofExcept ((NameFormat.ofPattern pattern).mapError (.invalidNameFormat pattern)) := by
  funext s m
  have hread : ∀ formats : Squash FormatCache,
      formats.liftOn (nameFormatFrom pattern m) (fun known other _ => by
        rw [nameFormatFrom_eq, nameFormatFrom_eq]) =
        ofExcept ((NameFormat.ofPattern pattern).mapError (.invalidNameFormat pattern)) s m := by
    intro formats
    induction formats using Quotient.ind with
    | _ known =>
      refine (nameFormatFrom_eq pattern m known).trans ?_
      cases NameFormat.ofPattern pattern <;> rfl
  exact hread m.formats

/-- A name printed by a pattern. A fault of the name comes before one of the pattern. -/
def printName (name pattern : Text) : Run Text := do
  let p ← ofExcept ((Person.read name).mapError .database)
  let format ← nameFormat pattern
  return format.formatLatex p

/-- A run prints a name as it is printed anywhere. -/
theorem printName_eq (name pattern : Text) :
    printName name pattern = ofExcept (Style.formatName name pattern) := by
  funext s m
  rw [printName, nameFormat_eq, Style.formatName]
  cases (Person.read name).mapError Fault.database with
  | error fault => rfl
  | ok p =>
    cases (NameFormat.ofPattern pattern).mapError (Fault.invalidNameFormat pattern) with
    | error fault => rfl
    | ok format => rfl

def formatName : Run Unit := do
  let pattern ← popString
  let index ← popInteger
  let names ← popString
  let list := Tex.splitNameList names
  match nameAt? list index with
  | none => invalidArgument (.noSuchName index names list.length)
  | some name => do
    let printed ← printName name pattern
    push (.string printed)

/-! ## The stack and the output -/

def swap : Run Unit := do
  let top ← pop
  let below ← pop
  push top
  push below

def duplicate : Run Unit := do
  let v ← pop
  push v
  push v

def stackDiagnostic (title : String) (problem : String) (details : List Value) : Diagnostic where
  severity := .info
  title := title
  code := some "B-4-13"
  problem := some problem
  details := details.map fun v => ⟨.error, String.ofList v.shown, none⟩

/-- Takes the value on top and reports it. -/
def top : Run Unit := do
  let v ← pop
  report (stackDiagnostic "Stack Top" (String.ofList v.shown) [])

/-- Takes the whole stack and reports it, its top first. -/
def stack : Run Unit := do
  let vs ← takeStack
  report (stackDiagnostic "Stack Dump" (toString vs.length ++ " values on the stack") vs)

/-- The diagnostic of a warning of the style, which names the current entry. -/
def warningDiagnostic (current : Option Text) (message : Text) : Diagnostic where
  severity := .warning
  title := "Warning--" ++ String.ofList message
  code := some "B-4-11"
  details := (current.map fun key =>
    ⟨.info, "While formatting entry '" ++ String.ofList key ++ "'", none⟩).toList

def warning : Run Unit := do
  let message ← popString
  report (warningDiagnostic (← current) message)

/-- Finishes the line: checks its braces, breaks it and hands it to the sink. -/
def newline : Run Unit := do
  let line ← takeLine
  let options ← options
  if options.checkOutputBraces then
    ofExcept ((Tex.checkBraces line).mapError (.text .newline))
  emitLines (line.wrap options.maxLineWidth)

/-! ## Functions for the types of entries -/

def isCallable (bindings : Table Binding) (name : Text) : Bool :=
  match bindings.get? name with
  | some (.function _) | some (.builtin _) => true
  | _ => false

/-- The name of the function for the type of the current entry, or for all other types. -/
def handlerName : Run Text := do
  let e ← currentEntry (← activeName)
  let bindings ← bindings
  if isCallable bindings e.kind then return e.kind
  else if isCallable bindings "default.type".toList then return "default.type".toList
  else fail (.noHandler e.kind)

end Run

end Bibliography.Style
