import Bibliography.Proofs.Run.Commands
import Bibliography.Proofs.Run.Session

set_option autoImplicit false

/-! # The context is restored

Setting a register and putting it back leaves no trace, also when what runs in between fails: an
action that mirrors a run leaves the context as it was (`Session.Restored`). A command sets the
current entry and takes it back at its end, so between commands nothing is current, nothing runs
and no call is open (`Session.Idle`).

Main statement: `executeName_restores_context`.
-/

namespace Bibliography.Style

/-! ## The context of a call -/

/-- What is the same in the state `σ'` after a call as it was in the state `σ` before. The machine
keeps its frame, and calls were never deeper than before or than allowed. -/
structure Session.Restored (σ σ' : Session) : Prop where
  options : σ'.interpreter.options = σ.interpreter.options
  source : σ'.interpreter.source = σ.interpreter.source
  abbreviations : σ'.interpreter.abbreviations = σ.interpreter.abbreviations
  data : σ'.interpreter.data = σ.interpreter.data
  citations : σ'.interpreter.citations = σ.interpreter.citations
  visibleCrossrefs : σ'.interpreter.visibleCrossrefs = σ.interpreter.visibleCrossrefs
  entrySeen : σ'.interpreter.entrySeen = σ.interpreter.entrySeen
  readSeen : σ'.interpreter.readSeen = σ.interpreter.readSeen
  warnings : σ'.interpreter.warnings = σ.interpreter.warnings
  bibFiles : σ'.bibFiles = σ.bibFiles
  current : σ'.current = σ.current
  active : σ'.active = σ.active
  depth : σ'.depth = σ.depth
  frame : Machine.Frame σ.current σ.machine σ'.machine
  deepest : σ'.deepest ≤ max σ.deepest maxDepth

/-- Another machine that keeps the frame leaves the context as it was. -/
theorem Session.restored_after {σ : Session} {m : Machine} {deepest : Nat}
    (hframe : Machine.Frame σ.current σ.machine m) (hdeepest : deepest ≤ max σ.deepest maxDepth) :
    σ.Restored (σ.after m deepest) where
  options := rfl
  source := rfl
  abbreviations := rfl
  data := rfl
  citations := rfl
  visibleCrossrefs := rfl
  entrySeen := rfl
  readSeen := rfl
  warnings := rfl
  bibFiles := rfl
  current := rfl
  active := rfl
  depth := rfl
  frame := hframe
  deepest := hdeepest

/-- The outcome that ends with a result and a machine. -/
def Outcome.ended {α : Type} : Except Fault α → Machine → Outcome α
  | .ok a, m => .done a m
  | .error f, m => .failed f m

/-- The action gives what the run gives, has no end exactly if the run has none, and restores the
context. -/
def Action.Restores {α : Type} (x : Action α) (y : Run α) : Prop :=
  ∀ σ : Session, match x σ with
    | some (r, σ') => y σ.scene σ.machine = .ended r σ'.machine ∧ σ.Restored σ'
    | none => y σ.scene σ.machine = .unfinished

/-- An action that mirrors a run that goes by steps restores the context. -/
theorem Action.Mirrors.restores {α : Type} {x : Action α} {y : Run α} (hxy : Mirrors x y)
    (hy : y.Steps) : x.Restores y := by
  intro σ
  obtain ⟨deepest, -, hdeepest, hx⟩ := hxy σ
  have hframe := hy.frame σ.scene σ.machine
  rw [hx]
  cases hrun : y σ.scene σ.machine with
  | done a m =>
    rw [hrun] at hframe
    exact ⟨rfl, Session.restored_after hframe hdeepest⟩
  | failed f m =>
    rw [hrun] at hframe
    exact ⟨rfl, Session.restored_after hframe hdeepest⟩
  | unfinished => rfl

/-! ## Commands -/

namespace Session

/-- Nothing is current, nothing runs and no call is open. -/
structure Idle (σ : Session) : Prop where
  current : σ.current = none
  active : σ.active = none
  depth : σ.depth = 0

/-- The state of a fresh interpreter to which a list of keys and the names of database files were
given. -/
def fresh (options : Options) (source : Source) (answers : SinkAnswers)
    (citations bibFiles : List Text) : Session where
  interpreter := { Interpreter.fresh options source answers with citations := citations }
  bibFiles := bibFiles

theorem idle_fresh (options : Options) (source : Source) (answers : SinkAnswers)
    (citations bibFiles : List Text) : (fresh options source answers citations bibFiles).Idle :=
  ⟨rfl, rfl, rfl⟩

/-- Commands are run on a session as on an interpreter. The entry for which a function runs is
current all the while, and none is after the last one, also when the function failed for it. -/
def stage (fuel : Nat) : Stage Session where
  interpreter := interpreter
  update σ i := { σ with interpreter := i }
  runFunction σ current name := (executeName fuel name : Action Unit) { σ with current := current }
  leave σ := { σ with current := none }

def runCommands (fuel : Nat) (p : Program) (σ : Session) :
    Option (Except Fault Unit × Session) :=
  (stage fuel).runCommands σ.bibFiles p σ

/-- The state with what an interpreter makes of its part. -/
def onto (σ : Session) (deepest : Nat) :
    Option (Except Fault Unit × Interpreter) → Option (Except Fault Unit × Session) :=
  Option.map fun p => (p.1, { σ with interpreter := p.2, deepest := deepest })

/-- The state `σ` ends as its interpreter does; calls were never deeper than before or than
allowed. -/
def Carries (σ : Session) (x : Option (Except Fault Unit × Session))
    (y : Option (Except Fault Unit × Interpreter)) : Prop :=
  ∃ deepest, σ.deepest ≤ deepest ∧ deepest ≤ max σ.deepest maxDepth ∧ x = σ.onto deepest y

variable {σ : Session}

/-- What calls no function, or ends before it does, carries over as it is. -/
theorem Carries.of_eq {x : Option (Except Fault Unit × Session)}
    {y : Option (Except Fault Unit × Interpreter)} (h : x = σ.onto σ.deepest y) : σ.Carries x y :=
  ⟨σ.deepest, Nat.le_refl _, Nat.le_max_left _ _, h⟩

/-- What goes on from a later state of the same session carries over from the earlier one. -/
theorem Carries.later {i : Interpreter} {deepest : Nat}
    {x : Option (Except Fault Unit × Session)} {y : Option (Except Fault Unit × Interpreter)}
    (hge : σ.deepest ≤ deepest) (hle : deepest ≤ max σ.deepest maxDepth)
    (h : ({ σ with interpreter := i, deepest := deepest } : Session).Carries x y) :
    σ.Carries x y := by
  obtain ⟨deepest', hge', hle', hx⟩ := h
  change deepest ≤ deepest' at hge'
  change deepest' ≤ max deepest maxDepth at hle'
  exact ⟨deepest', by omega, by omega, hx⟩

/-- A function is run in the scene of its command. -/
theorem carries_runFunction (hactive : σ.active = none) (hdepth : σ.depth = 0) (fuel : Nat)
    (current : Option Text) (name : Text) :
    { σ with current := current }.Carries ((stage fuel).runFunction σ current name)
      (σ.interpreter.runFunction fuel current name) := by
  obtain ⟨deepest, hge, hle, hx⟩ :=
    Action.mirrors_executeName fuel name { σ with current := current }
  refine ⟨deepest, hge, hle, hx.trans ?_⟩
  have hscene : ({ σ with current := current } : Session).scene = σ.interpreter.scene current := by
    simp only [scene, hactive, hdepth, Interpreter.scene]
  have hmachine : ({ σ with current := current } : Session).machine = σ.interpreter.machine := rfl
  rw [hscene, hmachine, Interpreter.runFunction]
  cases runName fuel name (σ.interpreter.scene current) σ.interpreter.machine <;> rfl

/-- Each entry is current in its turn, and none is at the end. -/
theorem carries_iterate (fuel : Nat) (word : String) (span : SourceSpan) (name : Text)
    (keys : List Text) (hactive : σ.active = none) (hdepth : σ.depth = 0) :
    { σ with current := none }.Carries ((stage fuel).iterate word span name keys σ)
      (σ.interpreter.iterate fuel word span name keys) := by
  induction keys generalizing σ with
  | nil => exact Carries.of_eq rfl
  | cons key keys ih =>
    obtain ⟨deepest, hge, hle, hrun⟩ := carries_runFunction hactive hdepth fuel (some key) name
    rw [Stage.iterate, Interpreter.iterate_cons, hrun]
    cases σ.interpreter.runFunction fuel (some key) name with
    | none => exact ⟨deepest, hge, hle, rfl⟩
    | some p =>
      obtain ⟨r, i⟩ := p
      cases r with
      | error f => exact ⟨deepest, hge, hle, rfl⟩
      | ok u =>
        -- the entries that are left start where this one ended
        exact Carries.later hge hle (ih
          (σ := { σ with interpreter := i, current := some key, deepest := deepest })
          hactive hdepth)

theorem carries_iterateCommand (hσ : σ.Idle) (fuel : Nat) (word : String) (span : SourceSpan)
    (name : Text) (keys : List Text) :
    σ.Carries ((stage fuel).iterateCommand word span name keys σ)
      (σ.interpreter.iterateCommand fuel word span name keys) := by
  have hcurrent : ({ σ with current := none } : Session) = σ := by rw [← hσ.current]
  have hinterpreter : (stage fuel).interpreter σ = σ.interpreter := rfl
  rw [Stage.iterateCommand, Interpreter.iterateCommand_eq, hinterpreter]
  split
  · exact Carries.of_eq rfl
  · split
    · exact Carries.of_eq rfl
    · have h := carries_iterate fuel word span name keys hσ.active hσ.depth
      rwa [hcurrent] at h

/-- **A command gives what it gives for the interpreter**, and leaves the registers as they are
between commands. -/
theorem carries_runCommand (hσ : σ.Idle) (fuel : Nat) (bibFiles : List Text)
    (c : LocatedCommand) :
    σ.Carries ((stage fuel).runCommand bibFiles c σ)
      (σ.interpreter.runCommand fuel bibFiles c) := by
  have hcurrent : ({ σ with current := none } : Session) = σ := by rw [← hσ.current]
  obtain ⟨command, span⟩ := c
  cases command with
  | execute name =>
    have h := carries_runFunction hσ.active hσ.depth fuel none name
    rwa [hcurrent] at h
  | iterate name => exact carries_iterateCommand hσ fuel "ITERATE" span name _
  | reverse name => exact carries_iterateCommand hσ fuel "REVERSE" span name _
  | entry _ _ _ | integers _ | strings _ | function _ _ | abbreviation _ _ | read | sort =>
    exact Carries.of_eq rfl

theorem carries_runCommands (hσ : σ.Idle) (fuel : Nat) (bibFiles : List Text) (p : Program) :
    σ.Carries ((stage fuel).runCommands bibFiles p σ)
      (Interpreter.runCommands fuel bibFiles p σ.interpreter) := by
  induction p generalizing σ with
  | nil => exact Carries.of_eq rfl
  | cons c cs ih =>
    obtain ⟨deepest, hge, hle, hrun⟩ := carries_runCommand hσ fuel bibFiles c
    rw [Stage.runCommands, Interpreter.runCommands_cons, hrun]
    cases σ.interpreter.runCommand fuel bibFiles c with
    | none => exact ⟨deepest, hge, hle, rfl⟩
    | some q =>
      obtain ⟨r, i⟩ := q
      cases r with
      | error f => exact ⟨deepest, hge, hle, rfl⟩
      | ok u =>
        exact Carries.later hge hle (ih (σ := { σ with interpreter := i, deepest := deepest })
          ⟨hσ.current, hσ.active, hσ.depth⟩)

/-- What is carried out between commands ends between commands. -/
theorem Carries.idle {x : Option (Except Fault Unit × Session)}
    {y : Option (Except Fault Unit × Interpreter)} (hσ : σ.Idle) (h : σ.Carries x y)
    {r : Except Fault Unit} {σ' : Session} (hx : x = some (r, σ')) :
    σ'.Idle ∧ σ'.deepest ≤ max σ.deepest maxDepth ∧ y = some (r, σ'.interpreter) := by
  obtain ⟨deepest, -, hle, heq⟩ := h
  cases y with
  | none => cases heq.symm.trans hx
  | some p =>
    cases heq.symm.trans hx
    exact ⟨⟨hσ.current, hσ.active, hσ.depth⟩, hle, rfl⟩

end Session

/-- **The context is restored, on success and on failure.** Running a name, a row of tokens or a
value on any state gives what it gives in the scene of that state and leaves the context as it
was. So after every command of a program on a fresh interpreter — the last one of a row of
commands, whether it succeeds or fails — nothing is current, nothing runs and no call is open; and
calls were nowhere too deep. -/
theorem executeName_restores_context :
    (∀ fuel name, Action.Restores (executeName fuel name) (runName fuel name)) ∧
    (∀ fuel ts, Action.Restores (runTokens (executeName fuel) ts) (runTokens (runName fuel) ts)) ∧
    (∀ fuel v, Action.Restores (runValue (executeName fuel) v) (runValue (runName fuel) v)) ∧
    ∀ fuel options source answers citations bibFiles p r σ',
      Session.runCommands fuel p (Session.fresh options source answers citations bibFiles) =
          some (r, σ') →
        σ'.Idle ∧ σ'.deepest ≤ maxDepth ∧
        Interpreter.runCommands fuel bibFiles p
          { Interpreter.fresh options source answers with citations := citations } =
            some (r, σ'.interpreter) := by
  refine ⟨fun fuel name => ?_, fun fuel ts => ?_, fun fuel v => ?_, ?_⟩
  · exact (Action.mirrors_executeName fuel name).restores (steps_runName fuel name)
  · exact Action.Mirrors.restores (Action.Mirrors.correspondence.runTokens
      (Action.mirrors_executeName fuel) ts) (steps_runTokens fuel ts)
  · exact Action.Mirrors.restores (Action.Mirrors.correspondence.runValue
      (Action.mirrors_executeName fuel) v) (steps_runValue fuel v)
  · intro fuel options source answers citations bibFiles p r σ' hrun
    have hidle := Session.idle_fresh options source answers citations bibFiles
    obtain ⟨hidle', hdeepest, hi⟩ :=
      (Session.carries_runCommands hidle fuel bibFiles p).idle hidle hrun
    change σ'.deepest ≤ max 0 maxDepth at hdeepest
    exact ⟨hidle', by omega, hi⟩

/-- A state inside a call, with a function that takes more values from the stack than there are. -/
def Session.sample : Session where
  interpreter :=
    { options := {}
      source := .memory .empty
      machine :=
        { bindings := [("f".toList, .function [.name "pop$".toList, .name "pop$".toList]),
            ("pop$".toList, .builtin .pop)]
          stack := [.integer 1]
          sink := { answers := .willing } } }
  bibFiles := []
  current := some "key".toList
  active := some .callType
  depth := 7

def Program.sample : Program := [⟨.execute "pop$".toList, ⟨0, .bare 0, .bare 0⟩⟩]

/-- A call that fails behind another call restores the context, and so does a style whose first
command fails. -/
theorem context_restored_on_underflow :
    (∃ σ', (executeName 3 "f".toList : Action Unit) Session.sample =
        some (.error (.stackUnderflow "pop$".toList), σ') ∧
      Session.sample.Restored σ' ∧ σ'.deepest = 8) ∧
    ∃ f σ', Session.runCommands 2 Program.sample
          (Session.fresh {} (.memory .empty) .willing [] []) = some (.error f, σ') ∧
        σ'.Idle ∧ σ'.deepest ≤ maxDepth := by
  constructor
  · have h : _ ∧ Session.sample.Restored _ :=
      executeName_restores_context.1 3 "f".toList Session.sample
    exact ⟨_, rfl, h.2, rfl⟩
  · refine ⟨_, _, rfl, ?_⟩
    have h := executeName_restores_context.2.2.2 2 {} (.memory .empty) .willing [] []
      Program.sample _ _ rfl
    exact ⟨h.1, h.2.1⟩

end Bibliography.Style
