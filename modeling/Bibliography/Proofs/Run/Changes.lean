import Bibliography.Proofs.Run.Commands
import Bibliography.Proofs.Run.Frame

set_option autoImplicit false

/-! # What commands can change

A command changes an interpreter in few ways (`Interpreter.Change`): it declares names, defines an
abbreviation, reads the database, which happens once, or runs a function, which goes by steps of the
machine. While a function runs for an entry, that entry is one of the citations and the database has
been read. Sorting stands apart, because it is the only thing that moves citations. All commands but
that one go by such changes (`changes_of_runCommand`), whether they succeed or fail, and so does
finishing the last line. So what the changes and sorting keep, a style keeps
(`Interpreter.Kept.run`).

Main statements: `changes_of_runCommand`, `Kept.runCommands`, `Kept.run`.
-/

namespace Bibliography.Style.Interpreter

open Relation (ReflTransGen)

/-! ## Changes -/

/-- What can be current while a function runs: no entry or, once the database has been read, one of
the citations. -/
def Allows (i : Interpreter) : Option Text → Prop
  | none => True
  | some key => i.readSeen = true ∧ key ∈ i.citations

theorem allows_none (i : Interpreter) : i.Allows none := trivial

/-- One change that a command other than sorting makes. -/
inductive Change (i : Interpreter) : Interpreter → Prop where
  /-- Names are bound, perhaps by the one command that declares what entries have. -/
  | declared (entrySeen : Bool) (bindings : Table Binding) :
      Change i { i with entrySeen := entrySeen, machine := { i.machine with bindings := bindings } }
  | abbreviations (a : Abbreviations) : Change i { i with abbreviations := a }
  /-- The database cannot be read. -/
  | unread (warnings : List BibWarning) (h : i.readSeen = false) :
      Change i { i with readSeen := true, warnings := warnings }
  | read (warnings : List BibWarning) (d : Database) (h : i.readSeen = false) :
      Change i ({ i with readSeen := true, warnings := warnings }.settled d)
  /-- A function goes on by a step, for an entry or for none. -/
  | step {current : Option Text} {m : Machine} (hcurrent : i.Allows current)
      (h : Machine.Step current i.machine m) : Change i { i with machine := m }

/-- An interpreter to which rows of changes lead. -/
abbrev Changes : Interpreter → Interpreter → Prop := ReflTransGen Change

variable {fuel : Nat} {bibFiles : List Text} {i j : Interpreter}

/-- Rows of steps are rows of changes, because they do not move the citations. -/
theorem changes_of_reaches {current : Option Text} {m : Machine} (hcurrent : i.Allows current)
    (h : Machine.Reaches current i.machine m) : Changes i { i with machine := m } := by
  induction h with
  | refl => exact ReflTransGen.refl
  | tail _ hstep ih => exact ih.tail (Change.step hcurrent hstep)

/-! ## Commands -/

/-- A function that runs changes only the machine, and that by steps. -/
theorem exists_reaches_of_runFunction {current : Option Text} {name : Text}
    {r : Except Fault Unit} (h : i.runFunction fuel current name = some (r, j)) :
    ∃ m, Machine.Reaches current i.machine m ∧ j = { i with machine := m } := by
  have hsteps := steps_runName fuel name (i.scene current) i.machine
  rw [runFunction] at h
  cases hrun : runName fuel name (i.scene current) i.machine with
  | done u m =>
    rw [hrun] at h hsteps
    cases h
    exact ⟨m, hsteps, rfl⟩
  | failed f m =>
    rw [hrun] at h hsteps
    cases h
    exact ⟨m, hsteps, rfl⟩
  | unfinished =>
    rw [hrun] at h
    cases h

theorem changes_of_runFunction {current : Option Text} {name : Text} {r : Except Fault Unit}
    (hcurrent : i.Allows current)
    (h : i.runFunction fuel current name = some (r, j)) : Changes i j := by
  obtain ⟨m, hsteps, rfl⟩ := exists_reaches_of_runFunction h
  exact changes_of_reaches hcurrent hsteps

theorem changes_of_iterate {word : String} {span : SourceSpan} {name : Text} {keys : List Text}
    {r : Except Fault Unit} (hread : i.readSeen = true) (hkeys : ∀ key ∈ keys, key ∈ i.citations)
    (h : i.iterate fuel word span name keys = some (r, j)) : Changes i j := by
  -- between two entries the citations are where they were
  refine iterate_induction
    (I := fun l => Changes i l ∧ l.readSeen = true ∧ l.citations = i.citations)
    (E := fun end? => ∀ r j, end? = some (r, j) → Changes i j) ?_ ?_ ?_ ?_
    ⟨ReflTransGen.refl, hread, rfl⟩ r j h
  · rintro l ⟨hl, -, -⟩ r j ⟨⟩
    exact hl
  · rintro l l' key hkey ⟨hl, hread, hcitations⟩ hrun
    obtain ⟨m, hsteps, rfl⟩ := exists_reaches_of_runFunction hrun
    have hallows : l.Allows (some key) := ⟨hread, hcitations ▸ hkeys key hkey⟩
    exact ⟨hl.trans (changes_of_reaches hallows hsteps), hread, hcitations⟩
  · rintro l l' key f hkey ⟨hl, hread, hcitations⟩ hrun r j ⟨⟩
    have hallows : l.Allows (some key) := ⟨hread, hcitations ▸ hkeys key hkey⟩
    exact hl.trans (changes_of_runFunction hallows hrun)
  · rintro l key - - - r j ⟨⟩

/-- **Every command but sorting goes by changes**, whether it succeeds or fails. -/
theorem changes_of_runCommand {c : LocatedCommand} {r : Except Fault Unit}
    (hc : c.command ≠ .sort)
    (h : i.runCommand fuel bibFiles c = some (r, j)) : Changes i j := by
  cases performs_of_runCommand h with
  | refused _ => exact ReflTransGen.refl
  | declared entrySeen bindings _ =>
    exact ReflTransGen.single (Change.declared entrySeen bindings)
  | abbreviation _ => exact ReflTransGen.single (Change.abbreviations _)
  | unread _ warnings _ hread => exact ReflTransGen.single (Change.unread warnings hread)
  | read warnings d _ hread => exact ReflTransGen.single (Change.read warnings d hread)
  | executed _ hrun => exact changes_of_runFunction i.allows_none hrun
  | iterated hvisits hread _ hrun =>
    exact changes_of_iterate hread (fun _ => mem_citations_of_visits hvisits) hrun
  | sorted hsort _ => exact absurd hsort hc

/-- Sorting needs the database, and without it nothing happens. -/
theorem runCommand_sort {span : SourceSpan} {r : Except Fault Unit}
    (h : i.runCommand fuel bibFiles ⟨.sort, span⟩ = some (r, j)) :
    r = .ok () ∧ i.readSeen = true ∧ j = i.sortCitations ∨
      r = .error (.outOfOrder "SORT" .afterRead span) ∧ i.readSeen = false ∧ j = i := by
  replace h : i.sort span = (r, j) := Option.some.inj h
  rw [Interpreter.sort] at h
  split at h
  · next hread =>
    cases h
    exact Or.inl ⟨rfl, hread, rfl⟩
  · next hread =>
    cases h
    exact Or.inr ⟨rfl, by simpa using hread, rfl⟩

/-- Finishing the last line goes by changes. -/
theorem changes_flush (i : Interpreter) : Changes i i.flush.2 := by
  have hsteps := Run.Steps.closed.newline (i.scene none) i.machine
  rw [flush]
  split
  · exact ReflTransGen.refl
  · cases hline : Run.newline (i.scene none) i.machine with
    | done u m =>
      rw [hline] at hsteps
      exact changes_of_reaches i.allows_none hsteps
    | failed f m =>
      rw [hline] at hsteps
      exact changes_of_reaches i.allows_none hsteps
    | unfinished => exact ReflTransGen.refl

/-! ## What is kept -/

/-- A property that every change keeps, and sorting too. -/
structure Kept (I : Interpreter → Prop) : Prop where
  change : ∀ i j, Change i j → I i → I j
  sort : ∀ i, i.readSeen = true → I i → I i.sortCitations

namespace Kept

variable {I : Interpreter → Prop} (hI : Kept I)
include hI

theorem changes (h : Changes i j) (hi : I i) : I j := by
  induction h with
  | refl => exact hi
  | tail _ hchange ih => exact hI.change _ _ hchange ih

theorem runCommand {c : LocatedCommand} {r : Except Fault Unit} (hi : I i)
    (h : i.runCommand fuel bibFiles c = some (r, j)) : I j := by
  by_cases hc : c.command = .sort
  · obtain ⟨command, span⟩ := c
    subst hc
    obtain ⟨-, hread, rfl⟩ | ⟨-, -, rfl⟩ := runCommand_sort h
    · exact hI.sort i hread hi
    · exact hi
  · exact hI.changes (changes_of_runCommand hc h) hi

theorem runCommands {p : Program} {r : Except Fault Unit} (hi : I i)
    (h : runCommands fuel bibFiles p i = some (r, j)) : I j := by
  refine runCommands_induction (I := fun _ => I)
    (E := fun end? => ∀ r j, end? = some (r, j) → I j) ?_ ?_ ?_ ?_ hi r j h
  · rintro i hi r j ⟨⟩
    exact hi
  · intro c cs i i' hi hrun
    exact hI.runCommand hi hrun
  · rintro c cs i i' b hi hrun r j ⟨⟩
    exact hI.runCommand hi hrun
  · intro c cs i _ _ r j h
    cases h

theorem flush (hi : I i) : I i.flush.2 := hI.changes (changes_flush i) hi

/-- **What is kept from change to change holds at the end of a style.** -/
theorem run {p : Program} {citations : List Text} {r : Except Fault Unit}
    (hi : I { i with citations := citations })
    (h : i.run fuel p citations bibFiles = some (r, j)) : I j := by
  rw [Interpreter.run] at h
  split at h
  · next l hall =>
    have hflush : l.flush = (r, j) := Option.some.inj h
    have hj := hI.flush (hI.runCommands hi hall)
    rwa [hflush] at hj
  · exact hI.runCommands hi h

end Kept

end Bibliography.Style.Interpreter
