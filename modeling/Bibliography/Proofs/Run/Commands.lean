import Bibliography.Style.Interpreter

set_option autoImplicit false

/-! # One command after another

A style runs its commands in their order up to the first that fails, and a command that runs a
function for entries takes them in their order up to the first fault. Both loops are opened here
once. Behind them stands the same rule: an invariant `I` that each step that ends well keeps, and a
property `E` of ends that follows from the invariant at the end, or after the step that is the last
because it did not end well.

The invariant of a row of commands may speak of the commands that are left to run: what an
interpreter can come to hold depends on what is still to be declared and read.

Where it matters what came before an end, a loop is taken apart: an iteration that ends well is a
row of `Rounds`, and one that does not has the rounds before it and the entry for which it failed
(`iterate_eq_error_iff`). Commands fail in the same way (`exists_of_runCommands_eq_error`). What a
single command can do is said once (`Interpreter.Performs`).

Main statements: `iterate_induction`, `runCommands_induction`, `performs_of_runCommand`.
-/

namespace Bibliography.Style

@[simp]
theorem Fault.root_within (command : String) (key : Option Text) (span : SourceSpan) (f : Fault) :
    (f.within command key span).root = f.root := by
  cases f <;> rfl

namespace Interpreter

variable {fuel : Nat} {i : Interpreter}

/-! ## The two loops -/

theorem iterate_nil (word : String) (span : SourceSpan) (name : Text) :
    i.iterate fuel word span name [] = some (.ok (), i) := rfl

theorem iterate_cons (word : String) (span : SourceSpan) (name key : Text) (keys : List Text) :
    i.iterate fuel word span name (key :: keys) =
      match i.runFunction fuel (some key) name with
      | none => none
      | some (.error f, j) => some (.error (f.within word (some key) span), j)
      | some (.ok (), j) => j.iterate fuel word span name keys := by
  have hrun : (stage fuel).runFunction i (some key) name = i.runFunction fuel (some key) name := rfl
  rw [iterate, Stage.iterate, hrun]
  obtain _ | ⟨_ | _, _⟩ := i.runFunction fuel (some key) name <;> rfl

theorem iterateCommand_eq (word : String) (span : SourceSpan) (name : Text) (keys : List Text) :
    i.iterateCommand fuel word span name keys =
      if !i.readSeen then some (.error (.outOfOrder word .afterRead span), i)
      else if !i.machine.bindings.contains name then some (.error (.undefinedName name), i)
      else i.iterate fuel word span name keys := rfl

theorem runCommand_eq (bibFiles : List Text) (command : Command) (span : SourceSpan) :
    i.runCommand fuel bibFiles ⟨command, span⟩ =
      match command with
      | .entry fields integers strings => some (i.declareEntries span fields integers strings)
      | .integers names => some (i.withDeclared [(.integer 0, names)])
      | .strings names => some (i.withDeclared [(.string [], names)])
      | .function name body => some (i.withDeclared [(.function body, [name])])
      | .abbreviation name value => some (i.abbreviate span name value)
      | .read => some (i.read bibFiles span)
      | .execute name => i.runFunction fuel none name
      | .iterate name => i.iterateCommand fuel "ITERATE" span name i.citations
      | .reverse name => i.iterateCommand fuel "REVERSE" span name i.citations.reverse
      | .sort => some (i.sort span) := by
  cases command <;> rfl

theorem runCommands_nil (bibFiles : List Text) :
    i.runCommands fuel bibFiles [] = some (.ok (), i) := rfl

theorem runCommands_cons (bibFiles : List Text) (c : LocatedCommand) (p : Program) :
    i.runCommands fuel bibFiles (c :: p) =
      match i.runCommand fuel bibFiles c with
      | none => none
      | some (.error f, j) => some (.error (f.within c.command.word none c.span), j)
      | some (.ok (), j) => j.runCommands fuel bibFiles p := by
  have hrun : (stage fuel).runCommand bibFiles c i = i.runCommand fuel bibFiles c := rfl
  rw [runCommands, Stage.runCommands, hrun]
  obtain _ | ⟨_ | _, _⟩ := i.runCommand fuel bibFiles c <;> rfl

theorem iterate_induction {word : String} {span : SourceSpan} {name : Text} {keys : List Text}
    {I : Interpreter → Prop} {E : Option (Except Fault Unit × Interpreter) → Prop}
    (done : ∀ i, I i → E (some (.ok (), i)))
    (next : ∀ i i' key, key ∈ keys → I i →
      i.runFunction fuel (some key) name = some (.ok (), i') → I i')
    (failed : ∀ i i' key f, key ∈ keys → I i →
      i.runFunction fuel (some key) name = some (.error f, i') →
        E (some (.error (f.within word (some key) span), i')))
    (unfinished : ∀ i key, key ∈ keys → I i → i.runFunction fuel (some key) name = none → E none)
    (h : I i) : E (i.iterate fuel word span name keys) := by
  induction keys generalizing i with
  | nil => exact done i h
  | cons key keys ih =>
    rw [iterate_cons]
    cases hrun : i.runFunction fuel (some key) name with
    | none => exact unfinished i key List.mem_cons_self h hrun
    | some q =>
      obtain ⟨r, i'⟩ := q
      cases r with
      | error f => exact failed i i' key f List.mem_cons_self h hrun
      | ok u =>
        exact ih (fun j j' k hk => next j j' k (List.mem_cons_of_mem _ hk))
          (fun j j' k f hk => failed j j' k f (List.mem_cons_of_mem _ hk))
          (fun j k hk => unfinished j k (List.mem_cons_of_mem _ hk))
          (next i i' key List.mem_cons_self h hrun)

theorem runCommands_induction {bibFiles : List Text} {p : Program}
    {I : Program → Interpreter → Prop} {E : Option (Except Fault Unit × Interpreter) → Prop}
    (done : ∀ i, I [] i → E (some (.ok (), i)))
    (next : ∀ c cs i i', I (c :: cs) i →
      i.runCommand fuel bibFiles c = some (.ok (), i') → I cs i')
    (failed : ∀ c cs i i' f, I (c :: cs) i →
      i.runCommand fuel bibFiles c = some (.error f, i') →
        E (some (.error (f.within c.command.word none c.span), i')))
    (unfinished : ∀ c cs i, I (c :: cs) i → i.runCommand fuel bibFiles c = none → E none)
    (h : I p i) : E (runCommands fuel bibFiles p i) := by
  induction p generalizing i with
  | nil => exact done i h
  | cons c cs ih =>
    rw [runCommands_cons]
    cases hrun : i.runCommand fuel bibFiles c with
    | none => exact unfinished c cs i h hrun
    | some q =>
      obtain ⟨r, i'⟩ := q
      cases r with
      | error f => exact failed c cs i i' f h hrun
      | ok u => exact ih (next c cs i i' h hrun)

/-! ## The rounds of an iteration -/

/-- The error of a function is the fault of its name. -/
theorem of_runFunction_eq_error {current : Option Text} {name : Text} {f : Fault}
    {i' : Interpreter} (h : i.runFunction fuel current name = some (.error f, i')) :
    ∃ m, runName fuel name (i.scene current) i.machine = .failed f m ∧
      i' = { i with machine := m } := by
  rw [runFunction] at h
  split at h
  · cases h
  · next f m hfailed =>
    cases h
    exact ⟨m, hfailed, rfl⟩
  · cases h

/-- The function ran for the entries `keys`, one after the other, and ended well each time. -/
inductive Rounds (fuel : Nat) (name : Text) : List Text → Interpreter → Interpreter → Prop where
  | nil (i : Interpreter) : Rounds fuel name [] i i
  | cons {key : Text} {keys : List Text} {i j k : Interpreter}
      (first : i.runFunction fuel (some key) name = some (.ok (), j))
      (rest : Rounds fuel name keys j k) : Rounds fuel name (key :: keys) i k

variable {word : String} {span : SourceSpan} {name : Text} {keys : List Text} {i' : Interpreter}

theorem iterate_eq_ok_iff :
    i.iterate fuel word span name keys = some (.ok (), i') ↔ Rounds fuel name keys i i' := by
  constructor
  · intro h
    induction keys generalizing i with
    | nil =>
      cases h
      exact Rounds.nil _
    | cons key keys ih =>
      rw [iterate_cons] at h
      split at h
      · cases h
      · cases h
      · next j hfirst => exact Rounds.cons hfirst (ih h)
  · intro h
    induction h with
    | nil i => rfl
    | cons hfirst _ ih =>
      rw [iterate_cons, hfirst]
      exact ih

/-- An iteration that fails ran well for the entries before the one for which it failed, and its
error tells of that one. -/
theorem iterate_eq_error_iff {g : Fault} :
    i.iterate fuel word span name keys = some (.error g, i') ↔
      ∃ done key rest j f, keys = done ++ key :: rest ∧ Rounds fuel name done i j ∧
        j.runFunction fuel (some key) name = some (.error f, i') ∧
        g = f.within word (some key) span := by
  constructor
  · intro h
    induction keys generalizing i with
    | nil => cases h
    | cons key keys ih =>
      rw [iterate_cons] at h
      split at h
      · cases h
      · next f j hfailed =>
        cases h
        exact ⟨[], key, keys, i, f, rfl, Rounds.nil i, hfailed, rfl⟩
      · next j hfirst =>
        obtain ⟨done, failing, rest, l, f, rfl, hdone, hlast, hg⟩ := ih h
        exact ⟨key :: done, failing, rest, l, f, rfl, Rounds.cons hfirst hdone, hlast, hg⟩
  · rintro ⟨done, key, rest, j, f, rfl, hdone, hlast, rfl⟩
    induction hdone with
    | nil i =>
      rw [List.nil_append, iterate_cons, hlast]
    | cons hfirst _ ih =>
      rw [List.cons_append, iterate_cons, hfirst]
      exact ih hlast

/-! ## Commands that run a function for entries -/

/-- The function that a command runs for entries, and these entries in their order, if it is such
a command. -/
def visits? (i : Interpreter) : Command → Option (Text × List Text)
  | .iterate name => some (name, i.citations)
  | .reverse name => some (name, i.citations.reverse)
  | _ => none

theorem runCommand_of_visits {bibFiles : List Text} {c : LocatedCommand}
    (h : i.visits? c.command = some (name, keys)) :
    i.runCommand fuel bibFiles c = i.iterateCommand fuel c.command.word c.span name keys := by
  obtain ⟨command, span⟩ := c
  cases command with
  | iterate _ | reverse _ =>
    cases h
    rfl
  | _ => cases h

theorem mem_citations_of_visits {c : Command} {name key : Text} {keys : List Text}
    (h : i.visits? c = some (name, keys)) (hkey : key ∈ keys) : key ∈ i.citations := by
  cases c with
  | iterate _ =>
    cases h
    exact hkey
  | reverse _ =>
    cases h
    exact List.mem_reverse.1 hkey
  | _ => cases h

theorem iterateCommand_eq_ok_iff :
    i.iterateCommand fuel word span name keys = some (.ok (), i') ↔
      i.readSeen = true ∧ i.machine.bindings.contains name = true ∧
        Rounds fuel name keys i i' := by
  rw [iterateCommand_eq]
  by_cases hread : i.readSeen = true <;>
    by_cases hbound : i.machine.bindings.contains name = true <;>
      simp [hread, hbound, iterate_eq_ok_iff]

/-! ## What a command does -/

/-- What a command fails with that does nothing: it is out of order or names nothing. -/
inductive Refusal (c : LocatedCommand) : Fault → Prop where
  | order (fault : OrderFault) : Refusal c (.outOfOrder c.command.word fault c.span)
  | unbound (name : Text) : Refusal c (.undefinedName name)

/-- A command that ends gives a result and an interpreter. -/
inductive Performs (fuel : Nat) (bibFiles : List Text) (i : Interpreter) (c : LocatedCommand) :
    Except Fault Unit → Interpreter → Prop where
  | refused {f : Fault} (h : Refusal c f) : Performs fuel bibFiles i c (.error f) i
  /-- Names are bound, all of them or those before one that is bound already. -/
  | declared {r : Except Fault Unit} (entrySeen : Bool) (bindings : Table Binding)
      (twice : ∀ f, r = .error f → ∃ name, f = .duplicateDeclaration name) :
      Performs fuel bibFiles i c r
        { i with entrySeen := entrySeen, machine := { i.machine with bindings := bindings } }
  | abbreviation {name value : Text} (h : c.command = .abbreviation name value) :
      Performs fuel bibFiles i c (.ok ())
        { i with abbreviations := i.abbreviations.define name value }
  /-- The database cannot be read. -/
  | unread (e : DatabaseError) (warnings : List BibWarning) (command : c.command = .read)
      (h : i.readSeen = false) : Performs fuel bibFiles i c (.error (.database e))
        { i with readSeen := true, warnings := warnings }
  | read (warnings : List BibWarning) (d : Database) (command : c.command = .read)
      (h : i.readSeen = false) : Performs fuel bibFiles i c (.ok ())
        ({ i with readSeen := true, warnings := warnings }.settled d)
  | executed {name : Text} {r : Except Fault Unit} {j : Interpreter}
      (command : c.command = .execute name) (h : i.runFunction fuel none name = some (r, j)) :
      Performs fuel bibFiles i c r j
  | iterated {name : Text} {keys : List Text} {r : Except Fault Unit} {j : Interpreter}
      (visits : i.visits? c.command = some (name, keys)) (read : i.readSeen = true)
      (bound : i.machine.bindings.contains name = true)
      (h : i.iterate fuel c.command.word c.span name keys = some (r, j)) :
      Performs fuel bibFiles i c r j
  | sorted (command : c.command = .sort) (h : i.readSeen = true) :
      Performs fuel bibFiles i c (.ok ()) i.sortCitations

section

variable {bibFiles : List Text} {c : LocatedCommand} {r : Except Fault Unit} {j : Interpreter}

theorem fault_of_declare {binding : Binding} {names : List Text} {t : Table Binding} {f : Fault}
    (hf : (declare binding names t).2 = some f) : ∃ name, f = .duplicateDeclaration name := by
  induction names generalizing t with
  | nil => cases hf
  | cons n names ih =>
    rw [declare] at hf
    split at hf
    · cases hf
      exact ⟨n, rfl⟩
    · exact ih hf

/-- Declarations fail for a name that is bound already, and for nothing else. -/
theorem fault_of_declareAll {rows : List (Binding × List Text)} {t : Table Binding} {f : Fault}
    (hf : (declareAll rows t).2 = some f) : ∃ name, f = .duplicateDeclaration name := by
  induction rows generalizing t with
  | nil => cases hf
  | cons row rows ih =>
    obtain ⟨binding, names⟩ := row
    rw [declareAll] at hf
    split at hf
    · next heq =>
      cases hf
      exact fault_of_declare (congrArg Prod.snd heq)
    · exact ih hf

theorem performs_of_withDeclared (entrySeen : Bool) {rows : List (Binding × List Text)}
    (h : { i with entrySeen := entrySeen }.withDeclared rows = (r, j)) :
    i.Performs fuel bibFiles c r j := by
  rw [withDeclared] at h
  split at h
  next bindings fault? hall =>
  dsimp only at h
  split at h
  · cases h
    refine .declared entrySeen bindings fun f hf => ?_
    cases hf
    exact fault_of_declareAll (congrArg Prod.snd hall)
  · cases h
    exact .declared entrySeen bindings nofun

theorem performs_of_iterateCommand (hvisits : i.visits? c.command = some (name, keys))
    (h : i.iterateCommand fuel c.command.word c.span name keys = some (r, j)) :
    i.Performs fuel bibFiles c r j := by
  rw [iterateCommand_eq] at h
  split at h
  · cases h
    exact .refused (.order _)
  · next hread =>
    split at h
    · cases h
      exact .refused (.unbound _)
    · next hbound => exact .iterated hvisits (by simpa using hread) (by simpa using hbound) h

/-- **Whatever a command does, it is one of these.** -/
theorem performs_of_runCommand (h : i.runCommand fuel bibFiles c = some (r, j)) :
    i.Performs fuel bibFiles c r j := by
  obtain ⟨command, span⟩ := c
  rw [runCommand_eq] at h
  cases command with
  | entry fields integers strings =>
    replace h : i.declareEntries span fields integers strings = (r, j) := Option.some.inj h
    rw [declareEntries] at h
    split at h
    · cases h
      exact .refused (.order _)
    · split at h
      · cases h
        exact .refused (.order _)
      · exact performs_of_withDeclared true h
  | integers _ | strings _ | function _ _ =>
    exact performs_of_withDeclared i.entrySeen (Option.some.inj h)
  | abbreviation name value =>
    replace h : i.abbreviate span name value = (r, j) := Option.some.inj h
    rw [abbreviate] at h
    split at h
    · cases h
      exact .refused (.order _)
    · cases h
      exact .abbreviation rfl
  | read =>
    replace h : i.read bibFiles span = (r, j) := Option.some.inj h
    rw [Interpreter.read] at h
    split at h
    · cases h
      exact .refused (.order _)
    · next hread =>
      rw [Bool.not_eq_true] at hread
      dsimp only at h
      split at h
      · cases h
        exact .unread _ _ rfl hread
      · cases h
        exact .read _ _ rfl hread
  | execute name => exact .executed rfl h
  | iterate name => exact performs_of_iterateCommand rfl h
  | reverse name => exact performs_of_iterateCommand rfl h
  | sort =>
    replace h : i.sort span = (r, j) := Option.some.inj h
    rw [Interpreter.sort] at h
    split at h
    · next hread =>
      cases h
      exact .sorted rfl hread
    · cases h
      exact .refused (.order _)

end

/-! ## Rows of commands -/

theorem runCommands_append (fuel : Nat) (bibFiles : List Text) (p q : Program) (i : Interpreter) :
    runCommands fuel bibFiles (p ++ q) i =
      match runCommands fuel bibFiles p i with
      | some (.ok (), j) => runCommands fuel bibFiles q j
      | end? => end? := by
  induction p generalizing i with
  | nil => rfl
  | cons c p ih =>
    rw [List.cons_append, runCommands_cons, runCommands_cons]
    cases i.runCommand fuel bibFiles c with
    | none => rfl
    | some end? =>
      obtain ⟨r, j⟩ := end?
      cases r with
      | error b => rfl
      | ok u => exact ih j

/-- The error of a row of commands is that of the first command that fails. -/
theorem exists_of_runCommands_eq_error {bibFiles : List Text} {p : Program} {e : Fault}
    (h : runCommands fuel bibFiles p i = some (.error e, i')) :
    ∃ before c after j g, p = before ++ c :: after ∧
      runCommands fuel bibFiles before i = some (.ok (), j) ∧
      j.runCommand fuel bibFiles c = some (.error g, i') ∧
      e = g.within c.command.word none c.span := by
  induction p generalizing i with
  | nil => cases h
  | cons c p ih =>
    rw [runCommands_cons] at h
    split at h
    · cases h
    · next g j hfailed =>
      cases h
      exact ⟨[], c, p, i, g, rfl, rfl, hfailed, rfl⟩
    · next j hfirst =>
      obtain ⟨before, failing, after, l, g, rfl, hbefore, hfailed, he⟩ := ih h
      refine ⟨c :: before, failing, after, l, g, rfl, ?_, hfailed, he⟩
      rw [runCommands_cons, hfirst]
      exact hbefore

/-! ## Ends that are known -/

/-- Whether a run ends well is a computation. -/
theorem exists_of_any_isOk {ε : Type} {x : Option (Except ε Unit × Interpreter)}
    {P : Interpreter → Bool} (h : x.any (fun q => q.1.isOk && P q.2) = true) :
    ∃ i', x = some (.ok (), i') ∧ P i' = true := by
  match x with
  | some (.ok _, i') => exact ⟨i', rfl, by simpa [Except.isOk, Except.toBool] using h⟩
  | some (.error _, _) => cases h
  | none => cases h

end Interpreter

end Bibliography.Style
