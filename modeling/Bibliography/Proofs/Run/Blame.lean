import Bibliography.Proofs.Citations.Requests
import Bibliography.Proofs.Run.Chronicle

set_option autoImplicit false

/-! # What the error of a style blames

A fault arises deep inside a run, and the error that comes out tells where: in which command, where
that command stands and, if it is one that runs a function for entries, for which entry. It is put
into a command in two places, by an iteration that knows the entry and by the run of the style, and
yet it tells of a command once: a function fails with faults that tell of none (`plain_runName`),
and what is in a command already stays as it is. Only the last line, which is finished behind all
commands, fails in no command.

The faults that a run can have are said by `Run.FailsWith`, which passes from parts to wholes like
everything that is said of runs (`Run.FailsWith.closed`). So a line can fail in two ways only
(`failsWith_newline`), and where an entry is current no fault is that there is none
(`failsWith_runName`).

Main statement: `error_blames_command_and_entry`.
-/

namespace Bibliography.Style

/-! ## The faults of a run -/

/-- In the scenes `S`, a run fails with no other faults than those of `Q`. -/
def Run.FailsWith {α : Type} (S : Scene → Prop) (Q : Fault → Prop) (x : Run α) : Prop :=
  ∀ (s : Scene) (m : Machine) (f : Fault) (m' : Machine), S s → x s m = .failed f m' → Q f

namespace Run.FailsWith

variable {α β : Type} {S : Scene → Prop} {Q : Fault → Prop}

theorem bind {x : Run α} {f : α → Run β} (hx : FailsWith S Q x)
    (hf : ∀ a, FailsWith S Q (f a)) : FailsWith S Q (x >>= f) := by
  intro s m e m' hs h
  rw [bind_apply] at h
  cases hxs : x s m with
  | done a m₁ =>
    rw [hxs] at h
    exact hf a s m₁ e m' hs h
  | failed e₁ m₁ =>
    rw [hxs] at h
    cases h
    exact hx s m e m' hs hxs
  | unfinished =>
    rw [hxs] at h
    cases h

theorem give (a : α) : FailsWith S Q (Run.give a) := fun _ _ _ _ _ h => nomatch h

theorem fail {f : Fault} (hf : Q f) : FailsWith S Q (Run.fail f : Run α) := by
  intro s m e m' _ h
  cases h
  exact hf

theorem ofExcept {r : Except Fault α} (hr : ∀ f, r = .error f → Q f) :
    FailsWith S Q (Run.ofExcept r) := by
  cases r with
  | ok a => exact give a
  | error f => exact fail (hr f rfl)

theorem change (g : Machine → Machine) : FailsWith S Q (Run.change g) :=
  fun _ _ _ _ _ h => nomatch h

/-- What is taken from the stack fails if nothing is there. -/
theorem pop (h : ∀ function, Q (.stackUnderflow function)) : FailsWith S Q Run.pop := by
  intro s m f m' _ hfailed
  rw [Run.pop] at hfailed
  split at hfailed
  · cases hfailed
    exact h _
  · cases hfailed

/-- A sink refuses a piece by an error of the output. -/
theorem emit (h : ∀ message, Q (.output message)) (piece : Text) :
    FailsWith S Q (Run.emit piece) := by
  intro s m f m' _ hfailed
  rw [Run.emit] at hfailed
  split at hfailed
  · cases hfailed
  · cases hfailed
    exact h _

section

variable (hfail : ∀ f, f.isOrdinary = true → Q f)
variable (hundefined : ∀ name, Q (.undefinedName name))
variable (hentry : ∀ function, FailsWith S Q (Run.currentEntry function))
variable (hkey : ∀ function, FailsWith S Q (Run.currentKey function))
include hfail hundefined hentry hkey

/-- The faults of plain functions are ordinary, or of a name that is not bound, or those of what
asks for the current entry. -/
theorem elementary : Run.Elementary (FailsWith S Q) where
  give := give
  bind := bind
  fail := fun f hf => fail (hfail f hf)
  undefined := fun name => fail (hundefined name)
  activeName := fun _ _ _ _ _ h => nomatch h
  current := fun _ _ _ _ _ h => nomatch h
  preamble := fun _ _ _ _ _ h => nomatch h
  bindings := fun _ _ _ _ _ h => nomatch h
  currentEntry := hentry
  currentKey := hkey
  fieldValue := fun name => bind (hentry name) fun e => bind (fun _ _ _ _ _ h => nomatch h)
    fun s => by
      split
      · exact give _
      · exact give _
  variablesOf := fun _ _ _ _ _ _ h => nomatch h
  setBinding := fun _ _ => change _
  setVariables := fun _ _ => change _
  push := fun _ => change _
  pop := pop fun _ => hfail _ rfl
  report := fun _ => change _

/-- What functions fail with depends on what is current and on the database, but on no function that
is running. -/
theorem closed (hscene : ∀ {s s' : Scene}, s.current = s'.current → s.data = s'.data → S s → S s') :
    Run.Closed (FailsWith S Q) where
  toPlain := (elementary hfail hundefined hentry hkey).plain
  unfinished := fun _ _ _ _ _ h => nomatch h
  options := fun _ _ _ _ _ h => nomatch h
  takeStack := fun _ _ _ _ _ h => nomatch h
  write := fun _ => change _
  takeLine := fun _ _ _ _ _ h => nomatch h
  emit := emit fun _ => hfail _ rfl
  running := fun b _ hx s m f m' hs h =>
    hx { s with active := some b } m f m' (hscene (s := s) rfl rfl hs) h
  calling := fun name x hx s m f m' hs h => by
    rw [calling_apply] at h
    split at h
    · cases h
      exact hfail _ rfl
    · exact hx { s with depth := s.depth + 1 } m f m' (hscene (s := s) rfl rfl hs) h

end

end Run.FailsWith

/-! ## The last line -/

/-- The faults of a line: its braces are not balanced, or the output does not take it. -/
inductive Fault.OfLine : Fault → Prop where
  | text (e : Tex.TextError) : OfLine (.text .newline e)
  | output (message : String) : OfLine (.output message)

theorem failsWith_newline (S : Scene → Prop) : Run.newline.FailsWith S Fault.OfLine := by
  have hlines (lines : List Text) : (Run.emitLines lines).FailsWith S Fault.OfLine := by
    induction lines with
    | nil => exact Run.FailsWith.give ()
    | cons line lines ih =>
      exact (Run.FailsWith.emit .output line).bind fun _ =>
        (Run.FailsWith.emit .output ['\n']).bind fun _ => ih
  refine Run.FailsWith.bind (fun _ _ _ _ _ h => nomatch h) fun line =>
    Run.FailsWith.bind (fun _ _ _ _ _ h => nomatch h) fun options => ?_
  dsimp only
  split
  · refine Run.FailsWith.bind (Run.FailsWith.ofExcept fun f hf => ?_) fun _ => hlines _
    cases hbraces : Tex.checkBraces line with
    | ok u =>
      rw [hbraces] at hf
      cases hf
    | error e =>
      rw [hbraces] at hf
      cases hf
      exact Fault.OfLine.text e
  · exact hlines _

/-- Finishing the last line fails with a fault of that line. -/
theorem Interpreter.ofLine_of_flush_eq_error {i i' : Interpreter} {f : Fault}
    (h : i.flush = (.error f, i')) : f.OfLine := by
  rw [Interpreter.flush] at h
  split at h
  · cases h
  · cases hline : Run.newline (i.scene none) i.machine with
    | done u m =>
      rw [hline] at h
      cases h
    | failed f m =>
      rw [hline] at h
      cases h
      exact failsWith_newline (fun _ => True) _ _ _ _ trivial hline
    | unfinished =>
      rw [hline] at h
      cases h

/-! ## Where an entry is current -/

/-- An entry of the database is current. -/
def Scene.Grounded (s : Scene) : Prop := ∃ e, s.current.bind s.data.entry? = some e

theorem Interpreter.grounded_scene {i : Interpreter} {key : Text}
    (h : i.data.contains key = true) : (i.scene (some key)).Grounded :=
  Option.isSome_iff_exists.1 h

/-- A run that does not want an entry where one is current. -/
abbrev Run.Served {α : Type} (x : Run α) : Prop :=
  x.FailsWith Scene.Grounded fun f => f.wantsEntry = false

namespace Run.Served

theorem currentEntry (function : Text) : (Run.currentEntry function).Served := by
  rintro s m f m' ⟨e, he⟩ h
  simp only [Run.currentEntry, bind_apply, scene_apply, he] at h
  cases h

theorem currentKey (function : Text) : (Run.currentKey function).Served := by
  rintro s m f m' ⟨e, he⟩ h
  cases hcurrent : s.current with
  | none =>
    rw [hcurrent] at he
    cases he
  | some key =>
    simp only [Run.currentKey, bind_apply, current_apply, hcurrent] at h
    cases h

theorem closed : Run.Closed @Run.Served :=
  FailsWith.closed (fun _ => Fault.wantsEntry_of_isOrdinary) (fun _ => rfl) currentEntry currentKey
    fun hcurrent hdata ⟨e, he⟩ => ⟨e, by rw [← hcurrent, ← hdata, he]⟩

end Run.Served

/-- **Where an entry is current, no fault is that there is none.** -/
theorem failsWith_runName (fuel : Nat) (name : Text) : (runName fuel name).Served :=
  Run.Served.closed.runName fuel name

/-! ## Faults that tell of no command -/

namespace Fault

def tellsCommand : Fault → Bool
  | .inCommand _ _ _ _ => true
  | _ => false

/-- Whether a fault tells of nothing in the style, neither of a command nor of a place. -/
def isPlain : Fault → Bool
  | .malformed _ _ | .outOfOrder _ _ _ | .inCommand _ _ _ _ => false
  | _ => true

/-- A fault that tells of no command, and of no place but perhaps this one. -/
structure ArisesAt (span : SourceSpan) (f : Fault) : Prop where
  bare : f.tellsCommand = false
  place : f.diagnostic.location.or (some span) = some span

variable {f : Fault}

theorem isPlain_of_isOrdinary (h : f.isOrdinary = true) : f.isPlain = true := by
  cases f with
  | malformed _ _ | outOfOrder _ _ _ | inCommand _ _ _ _ => cases h
  | _ => rfl

theorem arisesAt_of_isPlain (h : f.isPlain = true) (span : SourceSpan) : f.ArisesAt span := by
  cases f with
  | malformed _ _ | outOfOrder _ _ _ | inCommand _ _ _ _ => cases h
  | _ => exact ⟨rfl, rfl⟩

theorem within_of_bare (h : f.tellsCommand = false) (command : String) (key : Option Text)
    (span : SourceSpan) : f.within command key span = .inCommand command key span f := by
  cases f with
  | inCommand _ _ _ _ => cases h
  | _ => rfl

theorem root_of_bare (h : f.tellsCommand = false) : f.root = f := by
  cases f with
  | inCommand _ _ _ _ => cases h
  | _ => rfl

theorem severity_diagnostic (f : Fault) : f.diagnostic.severity = .error := by
  induction f with
  | inCommand _ _ _ _ ih => exact ih
  | _ => rfl

theorem code_diagnostic (f : Fault) : f.diagnostic.code = f.root.diagnostic.code := by
  induction f with
  | inCommand _ _ _ _ ih => exact ih
  | _ => rfl

end Fault

/-- Functions fail with faults that tell of no command and of no place. -/
theorem plain_runName (fuel : Nat) (name : Text) :
    (runName fuel name).FailsWith (fun _ => True) fun f => f.isPlain = true := by
  have hentry (function : Text) :
      (Run.currentEntry function).FailsWith (fun _ => True) fun f => f.isPlain = true := by
    refine Run.FailsWith.bind (fun _ _ _ _ _ h => nomatch h) fun s => ?_
    split
    · exact Run.FailsWith.give _
    · exact Run.FailsWith.fail rfl
  have hkey (function : Text) :
      (Run.currentKey function).FailsWith (fun _ => True) fun f => f.isPlain = true := by
    refine Run.FailsWith.bind (fun _ _ _ _ _ h => nomatch h) fun key? => ?_
    cases key? with
    | none => exact Run.FailsWith.fail rfl
    | some key => exact Run.FailsWith.give key
  exact (Run.FailsWith.closed (fun _ => Fault.isPlain_of_isOrdinary) (fun _ => rfl) hentry hkey
    fun _ _ _ => trivial).runName fuel name

namespace Interpreter

/-! ## Commands that fail -/

/-- The command `c` failed with the fault `f` while its function ran for the entry `key`; for all
entries before that one the function had ended well. -/
inductive FailsFor (fuel : Nat) (i : Interpreter) (c : Command) (key : Text) (f : Fault)
    (i' : Interpreter) : Prop where
  | intro {name : Text} {done rest : List Text} {j : Interpreter}
      (visits : i.visits? c = some (name, done ++ key :: rest))
      (read : i.readSeen = true)
      (bound : i.machine.bindings.contains name = true)
      (before : Rounds fuel name done i j)
      (failed : j.runFunction fuel (some key) name = some (.error f, i'))

variable {fuel : Nat} {bibFiles : List Text} {i i' : Interpreter} {c : LocatedCommand}
variable {f g : Fault} {key : Text}

theorem FailsFor.readSeen {c : Command} (h : i.FailsFor fuel c key f i') : i.readSeen = true := by
  obtain ⟨-, hread, -⟩ := h
  exact hread

theorem isPlain_of_runFunction {current : Option Text} {name : Text}
    (h : i.runFunction fuel current name = some (.error f, i')) : f.isPlain = true := by
  obtain ⟨m, hfailed, -⟩ := of_runFunction_eq_error h
  exact plain_runName fuel name _ _ _ _ trivial hfailed

/-- A command that fails for an entry puts the fault into itself and tells of the entry. -/
theorem FailsFor.runCommand_eq (h : i.FailsFor fuel c.command key f i') :
    i.runCommand fuel bibFiles c =
      some (.error (.inCommand c.command.word (some key) c.span f), i') := by
  obtain ⟨hvisits, hread, hbound, hbefore, hfailed⟩ := h
  have hbare := (Fault.arisesAt_of_isPlain (isPlain_of_runFunction hfailed) c.span).bare
  rw [runCommand_of_visits hvisits, iterateCommand_eq]
  simp only [hread, hbound, Bool.not_true, Bool.false_eq_true, if_false]
  exact iterate_eq_error_iff.2 ⟨_, _, _, _, f, rfl, hbefore, hfailed,
    (Fault.within_of_bare hbare _ _ _).symm⟩

/-- A command fails by itself, with a fault that tells of no command, or for an entry. -/
theorem arisesAt_or_failsFor (h : i.runCommand fuel bibFiles c = some (.error g, i')) :
    g.ArisesAt c.span ∨ ∃ key f, i.FailsFor fuel c.command key f i' ∧ f.ArisesAt c.span ∧
      g = .inCommand c.command.word (some key) c.span f := by
  cases performs_of_runCommand h with
  | refused href =>
    cases href with
    | order _ | unbound _ => exact Or.inl ⟨rfl, rfl⟩
  | declared _ _ twice =>
    obtain ⟨name, rfl⟩ := twice g rfl
    exact Or.inl ⟨rfl, rfl⟩
  | unread => exact Or.inl ⟨rfl, rfl⟩
  | executed _ hrun =>
    exact Or.inl (Fault.arisesAt_of_isPlain (isPlain_of_runFunction hrun) c.span)
  | iterated hvisits hread hbound hrun =>
    obtain ⟨done, key, rest, j, f, rfl, hbefore, hfailed, rfl⟩ := iterate_eq_error_iff.1 hrun
    have hf := Fault.arisesAt_of_isPlain (isPlain_of_runFunction hfailed) c.span
    exact Or.inr ⟨key, f, ⟨hvisits, hread, hbound, hbefore, hfailed⟩, hf,
      Fault.within_of_bare hf.bare _ _ _⟩

/-- **What is put into a command in two places is in it once.** The error that a command leaves
behind tells of the command, and of an entry exactly if the command failed for that entry; what is
in it tells of no command. -/
theorem exists_inCommand_of_runCommand (h : i.runCommand fuel bibFiles c = some (.error g, i')) :
    ∃ key? f, g.within c.command.word none c.span = .inCommand c.command.word key? c.span f ∧
      f.ArisesAt c.span ∧ ∀ key, key? = some key ↔ i.FailsFor fuel c.command key f i' := by
  obtain hg | ⟨key, f, hfails, hf, rfl⟩ := arisesAt_or_failsFor h
  · refine ⟨none, g, Fault.within_of_bare hg.bare _ _ _, hg, fun key => ⟨nofun, fun hfails => ?_⟩⟩
    -- for an entry it would have failed with a fault in which this one is
    cases h.symm.trans hfails.runCommand_eq
  · refine ⟨some key, f, rfl, hf, fun key' => ⟨?_, fun hfails' => ?_⟩⟩
    · rintro ⟨⟩
      exact hfails
    · cases h.symm.trans hfails'.runCommand_eq
      rfl

/-- The events of a row of commands up to the one that fails. -/
theorem commandsEvents_of_error {before after : Program} {c : LocatedCommand} {j : Interpreter}
    (hbefore : runCommands fuel bibFiles before i = some (.ok (), j))
    (hfailed : j.runCommand fuel bibFiles c = some (.error g, i')) :
    commandsEvents fuel bibFiles (before ++ c :: after) i =
      commandsEvents fuel bibFiles before i ++ j.commandEvents fuel bibFiles c := by
  induction before generalizing i with
  | nil =>
    cases hbefore
    simp only [List.nil_append, commandsEvents, hfailed, List.append_nil]
  | cons d before ih =>
    rw [runCommands_cons] at hbefore
    split at hbefore
    · cases hbefore
    · cases hbefore
    · next l hfirst =>
      rw [List.cons_append, commandsEvents, commandsEvents, hfirst, List.append_assoc]
      exact congrArg _ (ih hbefore)

/-- A style that ends with an error failed in a command, or all commands succeeded and the last line
failed. -/
theorem runCommands_or_flush_of_run_eq_error {p : Program} {citations bibFiles : List Text}
    {e : Fault} (h : i.run fuel p citations bibFiles = some (.error e, i')) :
    runCommands fuel bibFiles p { i with citations := citations } = some (.error e, i') ∨
      ∃ j, runCommands fuel bibFiles p { i with citations := citations } = some (.ok (), j) ∧
        j.flush = (.error e, i') := by
  rw [run] at h
  split at h
  · next j hall => exact Or.inr ⟨j, hall, Option.some.inj h⟩
  · exact Or.inl h

end Interpreter

open Interpreter in
/-- **An error blames one command and, if need be, one entry.** If a style ends with an error, then
either all commands succeeded and the last line failed, and the error is the fault of that line. Or
a command failed after all commands before it had succeeded, and nothing happened afterwards; then
the error is its fault put into that command. It tells of the command once, whoever put it there: of
its place, and of an entry exactly if the command failed for that entry. The diagnostic is an error
with the code of the fault at the root, at the place of the command, and its last detail tells the
command and the entry. -/
theorem error_blames_command_and_entry {fuel : Nat} {i i' : Interpreter} {p : Program}
    {citations bibFiles : List Text} {e : Fault}
    (h : i.run fuel p citations bibFiles = some (.error e, i')) :
    (∃ j, runCommands fuel bibFiles p { i with citations := citations } = some (.ok (), j) ∧
      j.flush = (.error e, i') ∧ e.OfLine) ∨
    ∃ before c after j g key? f, p = before ++ c :: after ∧
      runCommands fuel bibFiles before { i with citations := citations } = some (.ok (), j) ∧
      j.runCommand fuel bibFiles c = some (.error g, i') ∧
      i.history fuel p citations bibFiles =
        commandsEvents fuel bibFiles before { i with citations := citations } ++
          j.commandEvents fuel bibFiles c ∧
      e = g.within c.command.word none c.span ∧
      e = .inCommand c.command.word key? c.span f ∧ f.tellsCommand = false ∧ e.root = f ∧
      (∀ key, key? = some key ↔ j.FailsFor fuel c.command key f i') ∧
      e.diagnostic.severity = .error ∧ e.diagnostic.code = e.root.diagnostic.code ∧
      e.diagnostic.location = some c.span ∧
      e.diagnostic.details = e.root.diagnostic.details ++
        [⟨.info, Fault.whileRunning c.command.word key?, some c.span⟩] := by
  obtain h | ⟨j, hall, hflush⟩ := runCommands_or_flush_of_run_eq_error h
  · obtain ⟨before, c, after, j, g, rfl, hbefore, hfailed, he⟩ := exists_of_runCommands_eq_error h
    obtain ⟨key?, f, hwithin, hf, hblames⟩ := exists_inCommand_of_runCommand hfailed
    have hroot : f.root = f := Fault.root_of_bare hf.bare
    -- the row of commands ended with an error, so the last line was never finished
    have hhistory : i.history fuel (before ++ c :: after) citations bibFiles =
        commandsEvents fuel bibFiles before { i with citations := citations } ++
          j.commandEvents fuel bibFiles c := by
      rw [history, h, commandsEvents_of_error hbefore hfailed, List.append_nil]
    obtain rfl := he.trans hwithin
    refine Or.inr ⟨before, c, after, j, g, key?, f, rfl, hbefore, hfailed, hhistory, he, rfl,
      hf.bare, hroot, hblames, Fault.severity_diagnostic _, Fault.code_diagnostic _, hf.place, ?_⟩
    rw [Fault.root, hroot]
    rfl
  · exact Or.inl ⟨j, hall, hflush, ofLine_of_flush_eq_error hflush⟩

/-- A style that puts one value on the stack and takes one for each entry. -/
def Program.shortOfValues : Program :=
  [⟨.read, ⟨0, .bare 0, .bare 4⟩⟩, ⟨.execute "quote$".toList, ⟨0, .bare 5, .bare 21⟩⟩,
    ⟨.iterate "pop$".toList, ⟨0, .bare 22, .bare 36⟩⟩]

open Interpreter in
/-- The value is taken for the first entry, so the second is to blame. -/
theorem second_entry_blamed :
    ∃ e i', (fresh { crossrefOrder := .firstReference } (.memory sampleDatabase) .willing).run 1
        Program.shortOfValues ["CHILD".toList, "parent".toList] [] = some (.error e, i') ∧
      e.diagnostic.details.getLast? = some
        ⟨.info, "While running ITERATE for entry 'parent'", some ⟨0, .bare 22, .bare 36⟩⟩ ∧
      ∃ (j : Interpreter) (c : Command),
        j.FailsFor 1 c "parent".toList (.stackUnderflow "pop$".toList) i' := by
  have hrun : (fresh { crossrefOrder := .firstReference } (.memory sampleDatabase) .willing).run 1
      Program.shortOfValues ["CHILD".toList, "parent".toList] [] =
        some (.error (.inCommand "ITERATE" (some "parent".toList) ⟨0, .bare 22, .bare 36⟩
          (.stackUnderflow "pop$".toList)), _) := rfl
  refine ⟨_, _, hrun, by decide, ?_⟩
  obtain ⟨j, -, -, hline⟩ |
    ⟨before, c, after, j, g, key?, f, -, -, -, -, -, he, -, -, hblames, -⟩ :=
      error_blames_command_and_entry hrun
  · cases hline
  · obtain ⟨-, rfl, -, rfl⟩ := Fault.inCommand.inj he
    exact ⟨j, c.command, (hblames _).1 rfl⟩

end Bibliography.Style
