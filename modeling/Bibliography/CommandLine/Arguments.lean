import Bibliography.Files.Path

set_option autoImplicit false

/-! # Arguments

The command line names an aux file and may give options, before it or after it. An option takes
its value from the same argument or from the next one, which must not start with a hyphen; after
`--` no argument is an option. Arguments are obeyed from left to right, so that a request for help
wins over what is wrong behind it. -/

namespace Bibliography.CommandLine

structure Arguments where
  aux : Option Path := none
  styleDirectories : List Path := []
  config : Option Path := none
  minCrossrefs : Option Nat := none
  maxLineWidth : Option Nat := none
  output : Option Path := none
  jsonDiagnostics : Bool := false
  deriving DecidableEq, Repr

inductive Request where
  | help
  | version
  | run (aux : Path) (a : Arguments)
  deriving DecidableEq, Repr

inductive ValueOption where
  | styleDirectory
  | config
  | minCrossrefs
  | maxLineWidth
  | output
  deriving DecidableEq, Repr

inductive Flag where
  | jsonDiagnostics
  | help
  | version
  deriving DecidableEq, Repr

/-- An option, as one argument gives it. -/
inductive OptionArgument where
  /-- An option and its value, if that is part of the argument. -/
  | valued (o : ValueOption) (value : Option Text)
  | flag (f : Flag)
  deriving DecidableEq, Repr

inductive UsageError where
  | unexpected (argument : Text)
  /-- An option without the value it takes. -/
  | missingValue (o : ValueOption)
  | invalidValue (o : ValueOption) (value : Text)
  | repeated (argument : Text)
  | missingAux
  deriving DecidableEq, Repr

def ValueOption.name : ValueOption → String
  | .styleDirectory => "bst-dir"
  | .config => "config"
  | .minCrossrefs => "min-crossrefs"
  | .maxLineWidth => "max-line-width"
  | .output => "output"

def Flag.name : Flag → String
  | .jsonDiagnostics => "json-diagnostics"
  | .help => "help"
  | .version => "version"

def UsageError.message : UsageError → String
  | .unexpected argument => "unexpected argument '" ++ String.ofList argument ++ "'"
  | .missingValue o => "a value is required for '--" ++ o.name ++ "'"
  | .invalidValue o value =>
    "invalid value '" ++ String.ofList value ++ "' for '--" ++ o.name ++ "'"
  | .repeated argument => "'" ++ String.ofList argument ++ "' cannot be used multiple times"
  | .missingAux => "the aux file is missing"

/-! ## Single arguments -/

/-- The options that take a value, by their long names. -/
def valueOptions : List (Text × ValueOption) :=
  [ValueOption.styleDirectory, .config, .minCrossrefs, .maxLineWidth, .output].map
    fun o => (o.name.toList, o)

def flags : List (Text × Flag) :=
  [Flag.jsonDiagnostics, .help, .version].map fun f => (f.name.toList, f)

/-- An option by its long name, perhaps with an equals sign and a value. -/
def longOption? (s : Text) : Option OptionArgument :=
  let name := s.takeWhile (· ≠ '=')
  let value := ((s.dropWhile (· ≠ '=')).head?).map fun _ => s.drop (name.length + 1)
  match valueOptions.lookup name, flags.lookup name, value with
  | some o, _, _ => some (.valued o value)
  | none, some f, none => some (.flag f)
  | _, _, _ => none

/-- An option by its short name, perhaps with a value right behind it or after an equals sign. -/
def shortOption? : Text → Option OptionArgument
  | 'h' :: _ => some (.flag .help)
  | 'V' :: _ => some (.flag .version)
  | ['o'] => some (.valued .output none)
  | 'o' :: '=' :: value => some (.valued .output (some value))
  | 'o' :: value => some (.valued .output (some value))
  | _ => none

/-- Whether an argument is an option, or tries to be one. -/
def isOption (s : Text) : Bool := s.head? == some '-' && s != ['-']

def option? : Text → Option OptionArgument
  | '-' :: '-' :: s => longOption? s
  | '-' :: s => shortOption? s
  | _ => none

/-! ## Values -/

/-- A number of 64 bits: decimal digits, perhaps after a plus sign. -/
def number? (s : Text) : Option Nat :=
  let digits := if s.head? = some '+' then s.drop 1 else s
  let n := digits.foldl (fun n c => 10 * n + (c.toNat - '0'.toNat)) 0
  if digits ≠ [] ∧ digits.all Char.isDigit ∧ n ≤ 18446744073709551615 then some n else none

def path? (s : Text) : Option Path := if s = [] then none else some s

namespace Arguments

/-- Whether an option that can be given once was given. -/
def hasValue (a : Arguments) : ValueOption → Bool
  | .styleDirectory => false
  | .config => a.config.isSome
  | .minCrossrefs => a.minCrossrefs.isSome
  | .maxLineWidth => a.maxLineWidth.isSome
  | .output => a.output.isSome

/-- Gives an option a value, if it is one. -/
def set? (a : Arguments) (value : Text) : ValueOption → Option Arguments
  | .styleDirectory =>
    (path? value).map fun p => { a with styleDirectories := a.styleDirectories ++ [p] }
  | .config => (path? value).map fun p => { a with config := some p }
  | .minCrossrefs => (number? value).map fun n => { a with minCrossrefs := some n }
  | .maxLineWidth => (number? value).map fun n => { a with maxLineWidth := some n }
  | .output => (path? value).map fun p => { a with output := some p }

def setValue (a : Arguments) (o : ValueOption) (value : Text) : Except UsageError Arguments :=
  match a.set? value o with
  | none => .error (.invalidValue o value)
  | some b => if a.hasValue o then .error (.repeated ("--" ++ o.name).toList) else .ok b

/-- Takes an argument that is no option. -/
def setAux (a : Arguments) (s : Text) : Except UsageError Arguments :=
  match a.aux with
  | some _ => .error (.unexpected s)
  | none => if s = [] then .error .missingAux else .ok { a with aux := some s }

def request (a : Arguments) : Except UsageError Request :=
  match a.aux with
  | none => .error .missingAux
  | some aux => .ok (.run aux a)

end Arguments

/-! ## All arguments -/

/-- Obeys arguments of which none is an option. -/
def readOperands (a : Arguments) : List Text → Except UsageError Request
  | [] => a.request
  | s :: rest => do readOperands (← a.setAux s) rest

def readArguments (a : Arguments) : List Text → Except UsageError Request
  | [] => a.request
  | s :: rest =>
    if s = ['-', '-'] then readOperands a rest
    else if !isOption s then do readArguments (← a.setAux s) rest
    else
      match option? s with
      | none => .error (.unexpected s)
      | some (.flag .help) => .ok .help
      | some (.flag .version) => .ok .version
      | some (.flag .jsonDiagnostics) =>
        if a.jsonDiagnostics then .error (.repeated s)
        else readArguments { a with jsonDiagnostics := true } rest
      | some (.valued o (some value)) => do readArguments (← a.setValue o value) rest
      | some (.valued o none) =>
        match rest with
        | [] => .error (.missingValue o)
        | value :: rest =>
          if isOption value then .error (.missingValue o)
          else do readArguments (← a.setValue o value) rest

def Request.ofArguments (arguments : List Text) : Except UsageError Request :=
  readArguments {} arguments

end Bibliography.CommandLine
