import Bibliography.Proofs.Run.Steps

set_option autoImplicit false

/-! # Properties that pass from steps to runs

A property of runs that holds of the primitive runs and passes from parts to wholes (`Run.Closed`)
holds of everything that a style can run: of every built-in function, of rows of tokens, of values
and of names, with any fuel. The cases of the 37 built-in functions are gone through here and
nowhere else; whoever proves something about all runs proves that it is closed. Most built-in
functions are plain: they neither run others, nor look at the whole stack, nor touch the output.
For a property of these less is asked (`Run.Plain`), and most often no more than what is said of a
machine's parts (`Run.Elementary`, and `Run.Basic` where all of the scene may be seen). Less is
asked of a property that need not hold when any value is put on the stack or any variable is set
(`Run.Modest`), and least if it need not hold of assigning (`Run.Computing`); it then stops at the
functions that run others.

Main statements: `Run.Computing.builtin_of_ne_assign`, `Run.Modest.builtin`, `Run.Closed.runName`,
`Run.Closed.tokens`, `Run.Closed.runValue`.
-/

namespace Bibliography.Style

/-- Whether a function runs no others, does not look at the whole stack and does not touch the
output. -/
def Builtin.isPlain : Builtin → Bool
  | .callType | .ifThenElse | .while | .stack | .newline | .write => false
  | _ => true

def Fault.wantsEntry : Fault → Bool
  | .noCurrentEntry _ => true
  | _ => false

/-- Whether a fault is about neither the current entry, nor names, nor commands or other texts of
the style. -/
def Fault.isOrdinary : Fault → Bool
  | .noCurrentEntry _ | .undefinedName _ | .duplicateDeclaration _ => false
  | .malformed _ _ | .outOfOrder _ _ _ | .inCommand _ _ _ _ => false
  | _ => true

theorem Fault.wantsEntry_of_isOrdinary {f : Fault} (h : f.isOrdinary = true) :
    f.wantsEntry = false := by
  cases f with
  | noCurrentEntry _ => cases h
  | _ => rfl

/-- Whether a value can be run: a function, or a reference to a name. -/
def Value.isRunnable : Value → Bool
  | .function _ | .reference _ => true
  | _ => false

namespace Run

/-- A property of runs that passes from parts to wholes and holds of what most plain functions are
made of, except for assigning. They put nothing on the stack that can be run, and their faults are
ordinary: what asks for the current entry fails by itself if there is none. -/
structure Computing (P : ∀ {α : Type}, Run α → Prop) : Prop where
  give : ∀ {α : Type} (a : α), P (give a)
  bind : ∀ {α β : Type} {x : Run α} {f : α → Run β}, P x → (∀ a, P (f a)) → P (x >>= f)
  fail : ∀ {α : Type} (f : Fault), f.isOrdinary = true → P (fail f : Run α)
  activeName : P activeName
  current : P current
  preamble : P preamble
  bindings : P bindings
  put : ∀ v, v.isRunnable = false → P (push v)
  pop : P pop
  swap : P swap
  duplicate : P duplicate
  currentEntry : ∀ function, P (currentEntry function)
  currentKey : ∀ function, P (currentKey function)
  currentVariables : ∀ name, P (currentVariables name)
  fieldValue : ∀ name, P (fieldValue name)
  report : ∀ d, d.severity ≠ .error → P (report d)

/-- A property of runs that also holds of assigning, which fails by itself if the name is not
bound. -/
structure Modest (P : ∀ {α : Type}, Run α → Prop) : Prop extends Computing P where
  assign : P assign

/-- A property of runs that holds of the primitive runs of plain functions and passes from parts
to wholes. Plain functions report no errors. -/
structure Plain (P : ∀ {α : Type}, Run α → Prop) : Prop extends Modest P where
  undefined : ∀ {α : Type} (name : Text), P (Run.fail (.undefinedName name) : Run α)
  push : ∀ v, P (push v)
  setVariable : ∀ name v, P (setVariable name v)
  put := fun v _ => push v
  swap := bind pop fun _ => bind pop fun _ => bind (push _) fun _ => push _
  duplicate := bind pop fun _ => bind (push _) fun _ => push _
  assign := bind pop fun target => bind pop fun v =>
    match target with
    | .reference name => setVariable name v
    | .integer _ | .string _ | .missing _ | .function _ => fail _ rfl

/-- A property of runs that holds of the primitive runs and passes from parts to wholes. -/
structure Closed (P : ∀ {α : Type}, Run α → Prop) : Prop extends Plain P where
  unfinished : P (fun _ _ => .unfinished : Run Unit)
  options : P options
  takeStack : P takeStack
  write : ∀ t, P (write t)
  takeLine : P takeLine
  emit : ∀ piece, P (emit piece)
  running : ∀ (b : Builtin) {x : Run Unit}, P x → P (running b x)
  calling : ∀ (name : Text) {x : Run Unit}, P x → P (calling name x)

/-- A property of runs that passes from parts to wholes and holds of what plain functions ask for
and do: they look at the scene and at variables, set variables, take and put values, and report. -/
structure Elementary (P : ∀ {α : Type}, Run α → Prop) : Prop where
  give : ∀ {α : Type} (a : α), P (give a)
  bind : ∀ {α β : Type} {x : Run α} {f : α → Run β}, P x → (∀ a, P (f a)) → P (x >>= f)
  fail : ∀ {α : Type} (f : Fault), f.isOrdinary = true → P (fail f : Run α)
  undefined : ∀ {α : Type} (name : Text), P (Run.fail (.undefinedName name) : Run α)
  activeName : P activeName
  current : P current
  preamble : P preamble
  bindings : P bindings
  currentEntry : ∀ function, P (currentEntry function)
  currentKey : ∀ function, P (currentKey function)
  fieldValue : ∀ name, P (fieldValue name)
  variablesOf : ∀ key, P (variablesOf key)
  setBinding : ∀ name b, P (change fun m => { m with bindings := m.bindings.set name b })
  setVariables : ∀ key vars, P (setVariables key vars)
  push : ∀ v, P (push v)
  pop : P pop
  report : ∀ d, P (report d)

namespace Elementary

variable {P : ∀ {α : Type}, Run α → Prop} (h : Elementary P)
include h

theorem currentVariables (name : Text) : P (Run.currentVariables name) :=
  h.bind (h.currentKey name) fun key => h.bind (h.variablesOf key) fun vars =>
    h.bind (h.setVariables key vars) fun _ => h.give vars

theorem changeVariables (name : Text) (f : EntryVariables → EntryVariables) :
    P (Run.changeVariables name f) :=
  h.bind (h.currentKey name) fun key => h.bind (h.currentVariables name) fun vars =>
    h.setVariables key (f vars)

theorem setVariable (name : Text) (v : Value) : P (Run.setVariable name v) := by
  refine h.bind h.bindings fun bindings => ?_
  cases bindings.get? name with
  | none => exact h.undefined name
  | some b =>
    cases b with
    | integer _ =>
      cases v with
      | integer n => exact h.setBinding name _
      | string _ | missing _ | function _ | reference _ => exact h.fail _ rfl
    | string _ =>
      cases v.text? with
      | none => exact h.fail _ rfl
      | some t => exact h.setBinding name _
    | entryInteger =>
      cases v with
      | integer n => exact h.changeVariables name _
      | string _ | missing _ | function _ | reference _ => exact h.fail _ rfl
    | entryString =>
      cases v.text? with
      | none => exact h.fail _ rfl
      | some t => exact h.changeVariables name _
    | field | builtin _ | function _ => exact h.fail _ rfl

/-- What holds of the elementary runs holds of those that plain functions are made of. -/
theorem plain : Plain P where
  give := h.give
  bind := h.bind
  fail := h.fail
  undefined := h.undefined
  activeName := h.activeName
  current := h.current
  preamble := h.preamble
  bindings := h.bindings
  push := h.push
  pop := h.pop
  currentEntry := h.currentEntry
  currentKey := h.currentKey
  currentVariables := h.currentVariables
  fieldValue := h.fieldValue
  setVariable := h.setVariable
  report := fun d _ => h.report d

end Elementary

/-- A property of runs that passes from parts to wholes and holds of what plain functions do to a
machine, whatever they see of the scene. -/
structure Basic (P : ∀ {α : Type}, Run α → Prop) : Prop where
  give : ∀ {α : Type} (a : α), P (give a)
  bind : ∀ {α β : Type} {x : Run α} {f : α → Run β}, P x → (∀ a, P (f a)) → P (x >>= f)
  fail : ∀ {α : Type} (f : Fault), P (fail f : Run α)
  scene : P scene
  bindings : P bindings
  variablesOf : ∀ key, P (variablesOf key)
  setBinding : ∀ name b, P (change fun m => { m with bindings := m.bindings.set name b })
  setVariables : ∀ key vars, P (setVariables key vars)
  push : ∀ v, P (push v)
  pop : P pop
  report : ∀ d, P (report d)

namespace Basic

variable {P : ∀ {α : Type}, Run α → Prop} (h : Basic P)
include h

theorem currentEntry (function : Text) : P (Run.currentEntry function) := by
  refine h.bind h.scene fun s => ?_
  split
  · exact h.give _
  · exact h.fail _

theorem currentKey (function : Text) : P (Run.currentKey function) := by
  refine h.bind (h.bind h.scene fun s => h.give s.current) fun key? => ?_
  cases key? with
  | none => exact h.fail _
  | some key => exact h.give key

theorem fieldValue (name : Text) : P (Run.fieldValue name) := by
  refine h.bind (h.currentEntry name) fun e => h.bind h.scene fun s => ?_
  split
  · exact h.give _
  · exact h.give _

/-- What may be seen of the scene may be seen of its parts. -/
theorem elementary : Elementary P where
  give := h.give
  bind := h.bind
  fail := fun f _ => h.fail f
  undefined := fun _ => h.fail _
  activeName := h.bind h.scene fun s => h.give s.activeName
  current := h.bind h.scene fun s => h.give s.current
  preamble := h.bind h.scene fun s => h.give s.data.preamble.flatten
  bindings := h.bindings
  currentEntry := h.currentEntry
  currentKey := h.currentKey
  fieldValue := h.fieldValue
  variablesOf := h.variablesOf
  setBinding := h.setBinding
  setVariables := h.setVariables
  push := h.push
  pop := h.pop
  report := h.report

theorem plain : Plain P := h.elementary.plain

end Basic

namespace Computing

variable {P : ∀ {α : Type}, Run α → Prop} (h : Computing P)
include h

/-! ## Arguments and results -/

theorem ofExcept {α : Type} {r : Except Fault α} (hr : ∀ f, r = .error f → f.isOrdinary = true) :
    P (Run.ofExcept r) := by
  cases r with
  | ok a => exact h.give a
  | error f => exact h.fail f (hr f rfl)

/-- The errors of an operation are made into ordinary faults. -/
theorem ofMapError {α ε : Type} (r : Except ε α) {g : ε → Fault}
    (hg : ∀ e, (g e).isOrdinary = true) : P (Run.ofExcept (r.mapError g)) := by
  refine h.ofExcept fun f hf => ?_
  cases r with
  | ok a => cases hf
  | error e =>
    cases hf
    exact hg e

theorem mismatch {α : Type} (wanted : Wanted) (found : Value) :
    P (Run.mismatch wanted found : Run α) :=
  h.bind h.activeName fun _ => h.fail _ rfl

theorem invalidArgument {α : Type} (f : ArgumentFault) : P (Run.invalidArgument f : Run α) :=
  h.bind h.activeName fun _ => h.fail _ rfl

theorem popInteger : P Run.popInteger := by
  refine h.bind h.pop fun v => ?_
  cases v with
  | integer n => exact h.give n
  | string _ | missing _ | function _ | reference _ => exact h.mismatch _ _

theorem popString : P Run.popString := by
  refine h.bind h.pop fun v => ?_
  cases v with
  | string s => exact h.give s
  | missing _ => exact h.give []
  | integer _ | function _ | reference _ => exact h.mismatch _ _

theorem popRunnable : P Run.popRunnable := by
  refine h.bind h.pop fun v => ?_
  cases v with
  | function body => exact h.give (Value.function body)
  | reference name => exact h.give (Value.reference name)
  | integer _ | string _ | missing _ => exact h.mismatch _ _

theorem pushChecked (n : Int) : P (Run.pushChecked n) := by
  rw [Run.pushChecked]
  split
  · exact h.put _ rfl
  · exact h.invalidArgument _

/-! ## Built-in functions that run no others -/

theorem compare (p : Int → Int → Bool) : P (Run.compare p) :=
  h.bind h.popInteger fun _ => h.bind h.popInteger fun _ => h.put _ rfl

theorem combine (f : Int → Int → Int) : P (Run.combine f) :=
  h.bind h.popInteger fun _ => h.bind h.popInteger fun _ => h.pushChecked _

/-- A function that tells what two values have in common from their integers or their texts. -/
theorem equal : P Run.equal := by
  refine h.bind h.pop fun right => h.bind h.pop fun left => ?_
  split
  · exact h.put _ rfl
  · split
    · exact h.put _ rfl
    · exact h.mismatch _ _
    · exact h.mismatch _ _

theorem times : P Run.times := by
  refine h.bind h.pop fun right => h.bind h.pop fun left => ?_
  split
  · exact h.pushChecked _
  · split
    · exact h.put _ rfl
    · exact h.mismatch _ _
    · exact h.mismatch _ _

/-- A function that makes a value of a text, but none that can be run. -/
theorem transform {f : Text → Value} (hf : ∀ s, (f s).isRunnable = false) :
    P (Run.transform f) :=
  h.bind h.popString fun s => h.put _ (hf s)

theorem changeCase : P Run.changeCase :=
  h.bind h.popString fun _ => h.bind h.popString fun _ =>
    h.bind (h.ofMapError _ fun _ => rfl) fun _ => h.put _ rfl

theorem chrToInt : P Run.chrToInt := by
  refine h.bind h.popString fun s => ?_
  split
  · exact h.put _ rfl
  · exact h.invalidArgument _

theorem intToChr : P Run.intToChr := by
  refine h.bind h.popInteger fun n => ?_
  split
  · exact h.put _ rfl
  · exact h.invalidArgument _

theorem substring : P Run.substring :=
  h.bind h.popInteger fun _ => h.bind h.popInteger fun _ => h.bind h.popString fun _ =>
    h.bind (h.ofMapError _ fun _ => rfl) fun _ => h.put _ rfl

theorem textPrefix : P Run.textPrefix :=
  h.bind h.popInteger fun _ => h.bind h.popString fun _ => h.put _ rfl

theorem empty : P Run.empty := by
  refine h.bind h.pop fun v => ?_
  cases v with
  | integer _ | string _ | missing _ => exact h.put _ rfl
  | function _ | reference _ => exact h.mismatch _ _

theorem missing : P Run.missing := by
  refine h.bind h.pop fun v => ?_
  cases v with
  | integer _ | string _ | missing _ | function _ | reference _ => exact h.put _ rfl

omit h in
/-- A name or a pattern is at fault. -/
theorem isOrdinary_of_formatName {name pattern : Text} {f : Fault}
    (hf : Style.formatName name pattern = .error f) : f.isOrdinary = true := by
  rw [Style.formatName] at hf
  cases hname : Person.read name with
  | error e =>
    rw [hname] at hf
    cases hf
    rfl
  | ok p =>
    rw [hname] at hf
    cases hpattern : NameFormat.ofPattern pattern with
    | error e =>
      rw [hpattern] at hf
      cases hf
      rfl
    | ok format =>
      rw [hpattern] at hf
      cases hf

theorem formatName : P Run.formatName := by
  refine h.bind h.popString fun pattern => h.bind h.popInteger fun index =>
    h.bind h.popString fun names => ?_
  dsimp only
  split
  · exact h.invalidArgument _
  · rw [printName_eq]
    exact h.bind (h.ofExcept fun _ => isOrdinary_of_formatName) fun _ => h.put _ rfl

theorem top : P Run.top := h.bind h.pop fun _ => h.report _ nofun

theorem warning : P Run.warning :=
  h.bind h.popString fun _ => h.bind h.current fun _ => h.report _ nofun

theorem handlerName : P Run.handlerName := by
  refine h.bind h.activeName fun function => h.bind (h.currentEntry function) fun e =>
    h.bind h.bindings fun bindings => ?_
  split
  · exact h.give _
  · split
    · exact h.give _
    · exact h.fail _ rfl

/-- The functions that run no others, do not look at the whole stack, do not touch the output and
do not assign. -/
theorem builtin_of_ne_assign (call : Text → Run Unit) (turns : Nat) {b : Builtin}
    (hb : b.isPlain = true) (hassign : b ≠ .assign) : P (runBuiltin call turns b) := by
  cases b with
  | callType | ifThenElse | «while» | stack | newline | write => cases hb
  | assign => exact absurd rfl hassign
  | greater | less => exact h.compare _
  | equal => exact h.equal
  | plus | minus => exact h.combine _
  | times => exact h.times
  | addPeriod | numNames | purify | textLength | width => exact h.transform fun _ => rfl
  | changeCase => exact h.changeCase
  | chrToInt => exact h.chrToInt
  | cite => exact h.bind h.activeName fun _ => h.bind (h.currentKey _) fun _ => h.put _ rfl
  | duplicate => exact h.duplicate
  | empty => exact h.empty
  | formatName => exact h.formatName
  | intToChr => exact h.intToChr
  | intToStr => exact h.bind h.popInteger fun _ => h.put _ rfl
  | missing => exact h.missing
  | pop => exact h.bind h.pop fun _ => h.give ()
  | preamble => exact h.bind h.preamble fun _ => h.put _ rfl
  | quote => exact h.put _ rfl
  | skip => exact h.give ()
  | substring => exact h.substring
  | swap => exact h.swap
  | textPrefix => exact h.textPrefix
  | top => exact h.top
  | type => exact h.bind h.activeName fun _ => h.bind (h.currentEntry _) fun _ => h.put _ rfl
  | warning => exact h.warning

/-! ## The output -/

theorem emitLines (hemit : ∀ piece, P (emit piece)) (lines : List Text) :
    P (Run.emitLines lines) := by
  induction lines with
  | nil => exact h.give ()
  | cons line lines ih => exact h.bind (hemit line) fun _ => h.bind (hemit _) fun _ => ih

theorem newline (htakeLine : P takeLine) (hoptions : P options)
    (hemit : ∀ piece, P (emit piece)) : P Run.newline := by
  refine h.bind htakeLine fun line => h.bind hoptions fun options => ?_
  dsimp only
  split
  · exact h.bind (h.ofMapError _ fun _ => rfl) fun _ => h.emitLines hemit _
  · exact h.emitLines hemit _

end Computing

/-- The functions that run no others, do not look at the whole stack and do not touch the
output. -/
theorem Modest.builtin {P : ∀ {α : Type}, Run α → Prop} (h : Modest P) (call : Text → Run Unit)
    (turns : Nat) {b : Builtin} (hb : b.isPlain = true) : P (runBuiltin call turns b) := by
  by_cases hassign : b = .assign
  · subst hassign
    exact h.assign
  · exact h.builtin_of_ne_assign call turns hb hassign

namespace Plain

variable {P : ∀ {α : Type}, Run α → Prop} (h : Plain P)
include h

theorem refer (name : Text) : P (Run.refer name) := by
  refine h.bind h.bindings fun bindings => ?_
  split
  · exact h.push _
  · exact h.undefined name

end Plain

namespace Closed

variable {P : ∀ {α : Type}, Run α → Prop} (h : Closed P)
include h

/-! ## The stack and the output -/

theorem stack : P Run.stack := h.bind h.takeStack fun _ => h.report _ nofun

theorem newline : P Run.newline := h.toPlain.newline h.takeLine h.options h.emit

/-! ## What runs functions -/

section

variable {call : Text → Run Unit} (hcall : ∀ name, P (call name))
include hcall

theorem tokens (ts : List Token) : P (runTokens call ts) := by
  induction ts with
  | nil => exact h.give ()
  | cons t ts ih =>
    cases t with
    | integer _ | string _ | block _ => exact h.bind (h.push _) fun _ => ih
    | name name => exact h.bind (hcall name) fun _ => ih
    | quoted name => exact h.bind (h.refer name) fun _ => ih

theorem runValue (v : Value) : P (Style.runValue call v) := by
  cases v with
  | function ts => exact h.tokens hcall ts
  | reference name => exact hcall name
  | integer _ | string _ | missing _ => exact h.mismatch _ _

theorem runIf : P (Style.runIf call) := by
  refine h.bind h.popRunnable fun otherwise => h.bind h.popRunnable fun thenValue =>
    h.bind h.popInteger fun n => ?_
  split
  · exact h.runValue hcall thenValue
  · exact h.runValue hcall otherwise

omit hcall in
theorem runLoop {condition body : Run Unit} (hc : P condition) (hb : P body) (turns : Nat) :
    P (Style.runLoop condition body turns) := by
  induction turns with
  | zero => exact h.unfinished
  | succ turns ih =>
    refine h.bind hc fun _ => h.bind h.popInteger fun n => ?_
    split
    · exact h.give ()
    · exact h.bind hb fun _ => ih

theorem runWhile (turns : Nat) : P (Style.runWhile call turns) :=
  h.bind h.popRunnable fun body => h.bind h.popRunnable fun condition =>
    h.runLoop (h.runValue hcall condition) (h.runValue hcall body) turns

theorem runCallType : P (Style.runCallType call) :=
  h.bind h.handlerName fun name => hcall name

theorem builtin (turns : Nat) (b : Builtin) : P (runBuiltin call turns b) := by
  cases b with
  | callType => exact h.runCallType hcall
  | ifThenElse => exact h.runIf hcall
  | «while» => exact h.runWhile hcall turns
  | stack => exact h.stack
  | newline => exact h.newline
  | write => exact h.bind h.popString fun _ => h.write _
  | _ => exact h.toPlain.builtin call turns rfl

theorem binding (turns : Nat) (name : Text) (b : Binding) :
    P (runBinding call turns name b) := by
  cases b with
  | builtin b => exact h.running b (h.builtin hcall turns b)
  | function body => exact h.calling name (h.tokens hcall body)
  | integer _ | string _ => exact h.push _
  | field => exact h.bind (h.fieldValue name) fun _ => h.push _
  | entryInteger | entryString => exact h.bind (h.currentVariables name) fun _ => h.push _

end

/-- What is closed holds of running a name. -/
theorem runName (fuel : Nat) (name : Text) : P (Style.runName fuel name) := by
  induction fuel generalizing name with
  | zero => exact h.unfinished
  | succ fuel ih =>
    refine h.bind h.bindings fun bindings => ?_
    split
    · exact h.undefined name
    · exact h.binding ih fuel name _

end Closed

end Run

end Bibliography.Style
