import Bibliography.Proofs.Citations.Agreement
import Bibliography.Proofs.Run.Closure
import Bibliography.Proofs.Run.Fuel

set_option autoImplicit false

/-! # Entries that do not matter

Two interpreters run one style, on databases that agree on the keys to which the citations lead. A
run looks at the database only through the preamble, the current entry and the entry that this one
refers to, so it does not tell the databases apart (`Run.Blind`). Neither do commands: the two
interpreters stay equal up to the database and its source (`Interpreter.Alike`), and the databases
go on to agree on every citation, also on those that reading the database adds.

Main statement: `run_eq_of_agreeFor`.
-/

namespace Bibliography.Style

open Interpreter (AgreeOn AgreeFor relevantKeys wildcard)

/-! ## Runs -/

/-- From the scene, another database looks like the one that is there. -/
structure Scene.Admits (s : Scene) (d : Database) : Prop where
  preamble : s.data.preamble.flatten = d.preamble.flatten
  entry : ∀ c, s.current = some c → AgreeOn s.data d c

namespace Scene.Admits

variable {s : Scene} {d : Database}

theorem entry_eq (h : s.Admits d) :
    s.current.bind d.entry? = s.current.bind s.data.entry? :=
  Option.bind_congr fun c hc => (h.entry c hc).entry.symm

/-- The current entry has the same fields, also those that it inherits. -/
theorem field_eq (h : s.Admits d) {c : Text} {e : Entry} (hc : s.current = some c)
    (he : s.data.entry? c = some e) (name : Text) : d.field e name = s.data.field e name := by
  have hparent : d.parent? e = s.data.parent? e := by
    refine Option.bind_congr fun target htarget => ?_
    refine ((h.entry c hc).parent target ?_).symm
    rw [Interpreter.crossrefOf?, he, Option.bind_some, htarget]
  rw [Database.field, Database.field, hparent]

end Scene.Admits

/-- A run that does the same with any database that the scene admits. -/
def Run.Blind {α : Type} (x : Run α) : Prop :=
  ∀ s d, s.Admits d → ∀ m, x { s with data := d } m = x s m

namespace Run.Blind

variable {α β : Type}

theorem bind {x : Run α} {f : α → Run β} (hx : Blind x) (hf : ∀ a, Blind (f a)) :
    Blind (x >>= f) := by
  intro s d h m
  rw [bind_apply, bind_apply, hx s d h m]
  cases x s m with
  | done a m => exact hf a s d h m
  | failed f m => rfl
  | unfinished => rfl

theorem preamble : Blind Run.preamble := by
  intro s d h m
  rw [preamble_apply, preamble_apply, h.preamble]

theorem currentEntry (function : Text) : Blind (Run.currentEntry function) := by
  intro s d h m
  simp only [Run.currentEntry, bind_apply, scene_apply, h.entry_eq]
  cases s.current.bind s.data.entry? <;> rfl

theorem fieldValue (name : Text) : Blind (Run.fieldValue name) := by
  intro s d h m
  cases he : s.current.bind s.data.entry? with
  | none =>
    simp only [Run.fieldValue, Run.currentEntry, bind_apply, scene_apply, h.entry_eq, he,
      fail_apply]
  | some e =>
    -- besides the current entry, its fields are all that is looked at
    obtain ⟨c, hc, he⟩ := Option.bind_eq_some_iff.1 he
    have he' : d.entry? c = some e := by rw [← (h.entry c hc).entry, he]
    rw [fieldValue_of_entry hc he, fieldValue_of_entry (s := { s with data := d }) hc he']
    simp only [h.field_eq hc he]

theorem currentKey (function : Text) : Blind (Run.currentKey function) := by
  intro s d h m
  simp only [Run.currentKey, bind_apply, current_apply]
  cases s.current <;> rfl

/-- Of the scene, plain functions look at the preamble, the current entry and its fields. -/
theorem elementary : Run.Elementary @Run.Blind where
  give _ _ _ _ _ := rfl
  bind := bind
  fail _ _ _ _ _ _ := rfl
  undefined _ _ _ _ _ := rfl
  activeName _ _ _ _ := rfl
  current _ _ _ _ := rfl
  preamble := preamble
  bindings _ _ _ _ := rfl
  currentEntry := currentEntry
  currentKey := currentKey
  fieldValue := fieldValue
  variablesOf _ _ _ _ _ := rfl
  setBinding _ _ _ _ _ _ := rfl
  setVariables _ _ _ _ _ _ := rfl
  push _ _ _ _ _ := rfl
  pop _ _ _ _ := rfl
  report _ _ _ _ _ := rfl

theorem running (b : Builtin) {x : Run Unit} (hx : Blind x) : Blind (Run.running b x) :=
  fun s d h m => hx { s with active := some b } d ⟨h.preamble, h.entry⟩ m

theorem calling (name : Text) {x : Run Unit} (hx : Blind x) : Blind (Run.calling name x) := by
  intro s d h m
  rw [calling_apply, calling_apply]
  split
  · rfl
  · exact hx { s with depth := s.depth + 1 } d ⟨h.preamble, h.entry⟩ m

/-- What asks neither for the preamble nor for the current entry does not see the database. -/
theorem closed : Run.Closed @Run.Blind where
  toPlain := elementary.plain
  unfinished _ _ _ _ := rfl
  options _ _ _ _ := rfl
  takeStack _ _ _ _ := rfl
  write _ _ _ _ _ := rfl
  takeLine _ _ _ _ := rfl
  emit _ _ _ _ _ := rfl
  running := running
  calling := calling

end Run.Blind

/-- **No name tells databases apart that agree on the current entry.** -/
theorem blind_runName (fuel : Nat) (name : Text) : (runName fuel name).Blind :=
  Run.Blind.closed.runName fuel name

/-! ## Interpreters -/

namespace Interpreter

def withDatabase (i : Interpreter) (source : Source) (d : Database) : Interpreter :=
  { i with source := source, data := d }

/-- The interpreter can have another database. Once the database is read, it agrees on the
citations; before that, the sources agree on everything that the citations lead to. -/
structure Admits (i : Interpreter) (source : Source) (d : Database) : Prop where
  preamble : i.data.preamble.flatten = d.preamble.flatten
  cited : ∀ c ∈ i.citations, AgreeOn i.data d c
  unread : i.readSeen = false → wildcard ∉ i.citations ∧ ∃ d₁ d₂,
    i.source = .memory d₁ ∧ source = .memory d₂ ∧ AgreeFor i.citations d₁ d₂

/-- Two interpreters that differ only in databases that agree. -/
inductive Alike (i : Interpreter) : Interpreter → Prop
  | mk {source : Source} {d : Database} (h : i.Admits source d) : Alike i (i.withDatabase source d)

/-- Both end, with one result and with interpreters that are alike, or neither does. -/
abbrev SameEnd :
    Option (Except Fault Unit × Interpreter) → Option (Except Fault Unit × Interpreter) → Prop :=
  Option.Rel fun p q => p.1 = q.1 ∧ p.2.Alike q.2

/-- The two ways in which both end in the same way. -/
theorem SameEnd.elim {x y : Option (Except Fault Unit × Interpreter)} (h : SameEnd x y) :
    (x = none ∧ y = none) ∨ ∃ r i j, x = some (r, i) ∧ y = some (r, j) ∧ i.Alike j := by
  cases h with
  | none => exact Or.inl ⟨rfl, rfl⟩
  | @some p q hpq =>
    obtain ⟨r, i⟩ := p
    obtain ⟨r', j⟩ := q
    obtain ⟨rfl, halike⟩ := hpq
    exact Or.inr ⟨r, i, j, rfl, rfl, halike⟩

/-- A function changes nothing but the machine. -/
theorem exists_machine_of_runFunction {fuel : Nat} {i : Interpreter} {current : Option Text}
    {name : Text} {p : Except Fault Unit × Interpreter}
    (h : i.runFunction fuel current name = some p) : ∃ m, p.2 = { i with machine := m } := by
  rw [runFunction] at h
  split at h
  · cases h
  · exact ⟨_, by rw [← Option.some.inj h]⟩
  · exact ⟨_, by rw [← Option.some.inj h]⟩

section

variable {i : Interpreter} {source : Source} {d : Database} (h : i.Admits source d)
include h

/-- The machine has no part in whether the interpreter can have the other database. -/
theorem Admits.with_machine (m : Machine) :
    ({ i with machine := m } : Interpreter).Admits source d :=
  ⟨h.preamble, h.cited, h.unread⟩

/-- A function for a citation, or for no entry, gives the same. -/
theorem runFunction_withDatabase (fuel : Nat) {current : Option Text}
    (hcurrent : ∀ c, current = some c → c ∈ i.citations) (name : Text) :
    (i.withDatabase source d).runFunction fuel current name =
      (i.runFunction fuel current name).map fun p => (p.1, p.2.withDatabase source d) := by
  have hscene : (i.scene current).Admits d :=
    ⟨h.preamble, fun c hc => h.cited c (hcurrent c hc)⟩
  have hrun : runName fuel name ((i.withDatabase source d).scene current)
      (i.withDatabase source d).machine = runName fuel name (i.scene current) i.machine :=
    blind_runName fuel name (i.scene current) d hscene i.machine
  rw [runFunction, runFunction, hrun]
  cases runName fuel name (i.scene current) i.machine <;> rfl

theorem sameEnd_runFunction (fuel : Nat) {current : Option Text}
    (hcurrent : ∀ c, current = some c → c ∈ i.citations) (name : Text) :
    SameEnd (i.runFunction fuel current name)
      ((i.withDatabase source d).runFunction fuel current name) := by
  rw [runFunction_withDatabase h fuel hcurrent name]
  cases hrun : i.runFunction fuel current name with
  | none => exact .none
  | some p =>
    obtain ⟨m, hm⟩ := exists_machine_of_runFunction hrun
    have hadmits : p.2.Admits source d := hm ▸ h.with_machine m
    exact .some ⟨rfl, .mk hadmits⟩

theorem sameEnd_iterate (fuel : Nat) (word : String) (span : SourceSpan) (name : Text)
    {keys : List Text} (hkeys : keys ⊆ i.citations) :
    SameEnd (i.iterate fuel word span name keys)
      ((i.withDatabase source d).iterate fuel word span name keys) := by
  induction keys generalizing i with
  | nil => exact .some ⟨rfl, .mk h⟩
  | cons key keys ih =>
    obtain ⟨hkey, hkeys⟩ := List.cons_subset.1 hkeys
    have hcurrent : ∀ c, some key = some c → c ∈ i.citations := by
      rintro c ⟨⟩
      exact hkey
    rw [iterate_cons, iterate_cons, runFunction_withDatabase h fuel hcurrent name]
    cases hrun : i.runFunction fuel (some key) name with
    | none => exact .none
    | some p =>
      obtain ⟨m, hm⟩ := exists_machine_of_runFunction hrun
      obtain ⟨r, i'⟩ := p
      change i' = { i with machine := m } at hm
      subst hm
      cases r with
      | error b => exact .some ⟨rfl, .mk (h.with_machine m)⟩
      | ok u =>
        -- the citations are still the same, so the keys that are left are among them
        exact ih (h.with_machine m) hkeys

theorem sameEnd_iterateCommand (fuel : Nat) (word : String) (span : SourceSpan) (name : Text)
    {keys : List Text} (hkeys : keys ⊆ i.citations) :
    SameEnd (i.iterateCommand fuel word span name keys)
      ((i.withDatabase source d).iterateCommand fuel word span name keys) := by
  have hseen : (i.withDatabase source d).readSeen = i.readSeen := rfl
  have hmachine : (i.withDatabase source d).machine = i.machine := rfl
  rw [iterateCommand_eq, iterateCommand_eq, hseen, hmachine]
  split
  · exact .some ⟨rfl, .mk h⟩
  · split
    · exact .some ⟨rfl, .mk h⟩
    · exact sameEnd_iterate h fuel word span name hkeys

theorem sameEnd_withDeclared (rows : List (Binding × List Text)) :
    SameEnd (some (i.withDeclared rows)) (some ((i.withDatabase source d).withDeclared rows)) := by
  have hmachine : (i.withDatabase source d).machine = i.machine := rfl
  rw [withDeclared, withDeclared, hmachine]
  obtain ⟨bindings, fault?⟩ := declareAll rows i.machine.bindings
  cases fault? with
  | none => exact .some ⟨rfl, .mk (h.with_machine _)⟩
  | some f => exact .some ⟨rfl, .mk (h.with_machine _)⟩

/-- Reading takes the databases from their sources; from then on they agree on the citations. -/
theorem sameEnd_read (bibFiles : List Text) (span : SourceSpan) :
    SameEnd (some (i.read bibFiles span))
      (some ((i.withDatabase source d).read bibFiles span)) := by
  by_cases hseen : i.readSeen = true
  · have hseen' : (i.withDatabase source d).readSeen = true := hseen
    rw [read, read, if_pos hseen, if_pos hseen']
    exact .some ⟨rfl, .mk h⟩
  · rw [Bool.not_eq_true] at hseen
    obtain ⟨hw, d₁, d₂, hsource, rfl, hagree⟩ := h.unread hseen
    have hseen' : (i.withDatabase (.memory d₂) d).readSeen = false := hseen
    have hload : (i.source.load bibFiles i.abbreviations).1 = .ok d₁ := by rw [hsource]; rfl
    have hload' : ((i.withDatabase (.memory d₂) d).source.load bibFiles
        (i.withDatabase (.memory d₂) d).abbreviations).1 = .ok d₂ := rfl
    have hwarnings : (i.source.load bibFiles i.abbreviations).2 = [] := by rw [hsource]; rfl
    rw [read_of_load hseen hload, read_of_load hseen' hload', hwarnings]
    -- what was there before the reading is replaced in both, so it does not matter that it is `d`
    set j := ({ i with readSeen := true, warnings := i.warnings ++ [] } : Interpreter)
    have hsettled : ({ j with source := .memory d₂, data := d } : Interpreter).settled d₂ =
        (j.settled d₁).withDatabase (.memory d₂) d₂ :=
      settled_of_agreeFor (i := j) hagree hw (.memory d₂)
    have hadmits : (j.settled d₁).Admits (.memory d₂) d₂ :=
      ⟨hagree.preamble, fun c => agreeOn_of_mem_settled (i := j) hagree hw, fun hunread =>
        absurd hunread (by simp [settled, j])⟩
    exact .some ⟨rfl, hsettled ▸ .mk hadmits⟩

/-- Sorting puts the same citations in another order. -/
theorem sameEnd_sort (hseen : i.readSeen = true) :
    SameEnd (some (.ok (), i.sortCitations))
      (some (.ok (), (i.withDatabase source d).sortCitations)) := by
  have hadmits : i.sortCitations.Admits source d :=
    ⟨h.preamble, fun c hc => h.cited c (List.mem_mergeSort.1 hc), fun hunread =>
      absurd (hseen.symm.trans hunread) (by simp)⟩
  exact .some ⟨rfl, .mk hadmits⟩

/-- **A command ends in the same way on databases that agree**, and leaves databases that agree. -/
theorem sameEnd_runCommand (fuel : Nat) (bibFiles : List Text) (c : LocatedCommand) :
    SameEnd (i.runCommand fuel bibFiles c)
      ((i.withDatabase source d).runCommand fuel bibFiles c) := by
  have hread : (i.withDatabase source d).readSeen = i.readSeen := rfl
  have hentry : (i.withDatabase source d).entrySeen = i.entrySeen := rfl
  obtain ⟨command, span⟩ := c
  rw [runCommand_eq, runCommand_eq]
  cases command with
  | entry fields integers strings =>
    dsimp only
    rw [declareEntries, declareEntries, hread, hentry]
    split
    · exact .some ⟨rfl, .mk h⟩
    · split
      · exact .some ⟨rfl, .mk h⟩
      · have hadmits : ({ i with entrySeen := true } : Interpreter).Admits source d :=
          ⟨h.preamble, h.cited, h.unread⟩
        exact sameEnd_withDeclared hadmits _
  | integers names | strings names => exact sameEnd_withDeclared h _
  | function name body => exact sameEnd_withDeclared h _
  | abbreviation name value =>
    dsimp only
    rw [abbreviate, abbreviate, hread]
    split
    · exact .some ⟨rfl, .mk h⟩
    · have hadmits : ({ i with abbreviations := i.abbreviations.define name value } :
          Interpreter).Admits source d :=
        ⟨h.preamble, h.cited, h.unread⟩
      exact .some ⟨rfl, .mk hadmits⟩
  | read => exact sameEnd_read h bibFiles span
  | execute name => exact sameEnd_runFunction h fuel (by simp) name
  | iterate name => exact sameEnd_iterateCommand h fuel "ITERATE" span name (List.Subset.refl _)
  | reverse name =>
    exact sameEnd_iterateCommand h fuel "REVERSE" span name fun c hc => List.mem_reverse.1 hc
  | sort =>
    dsimp only
    rw [Interpreter.sort, Interpreter.sort, hread]
    split
    · exact sameEnd_sort h ‹_›
    · exact .some ⟨rfl, .mk h⟩

theorem sameEnd_flush : SameEnd (some i.flush) (some (i.withDatabase source d).flush) := by
  have hscene : (i.scene none).Admits d := ⟨h.preamble, by simp [scene]⟩
  have hnewline := Run.Blind.closed.newline (i.scene none) d hscene i.machine
  have hmachine : (i.withDatabase source d).machine = i.machine := rfl
  have hscene' : (i.withDatabase source d).scene none = { i.scene none with data := d } := rfl
  rw [flush, flush, hmachine, hscene', hnewline]
  split
  · exact .some ⟨rfl, .mk h⟩
  · cases Run.newline (i.scene none) i.machine with
    | done u m => exact .some ⟨rfl, .mk (h.with_machine m)⟩
    | failed f m => exact .some ⟨rfl, .mk (h.with_machine m)⟩
    | unfinished => exact .some ⟨rfl, .mk h⟩

end

theorem sameEnd_runCommands (fuel : Nat) (bibFiles : List Text) (p : Program) {i j : Interpreter}
    (h : i.Alike j) :
    SameEnd (runCommands fuel bibFiles p i) (runCommands fuel bibFiles p j) := by
  induction p generalizing i j with
  | nil => exact .some ⟨rfl, h⟩
  | cons c cs ih =>
    obtain ⟨h⟩ := h
    rw [runCommands_cons, runCommands_cons]
    rcases (sameEnd_runCommand h fuel bibFiles c).elim with
      ⟨hi, hj⟩ | ⟨r, i', j', hi, hj, halike⟩
    · rw [hi, hj]
      exact .none
    · rw [hi, hj]
      cases r with
      | error b => exact .some ⟨rfl, halike⟩
      | ok u => exact ih halike

/-- **A style ends in the same way on databases that agree.** -/
theorem sameEnd_run (fuel : Nat) (p : Program) (citations bibFiles : List Text)
    {i j : Interpreter} (h : ({ i with citations := citations } : Interpreter).Alike
      { j with citations := citations }) :
    SameEnd (i.run fuel p citations bibFiles) (j.run fuel p citations bibFiles) := by
  rw [run, run]
  rcases (sameEnd_runCommands fuel bibFiles p h).elim with
    ⟨hi, hj⟩ | ⟨r, i', j', hi, hj, halike⟩
  · rw [hi, hj]
    exact .none
  · rw [hi, hj]
    cases r with
    | error e => exact .some ⟨rfl, halike⟩
    | ok u =>
      obtain ⟨h⟩ := halike
      exact sameEnd_flush h

/-- Two fresh interpreters are alike when their databases agree. -/
theorem alike_fresh {citations : List Text} (hw : wildcard ∉ citations) {d d' : Database}
    (h : AgreeFor citations d d') (options : Options) (answers : SinkAnswers) :
    ({ fresh options (.memory d) answers with citations := citations } : Interpreter).Alike
      { fresh options (.memory d') answers with citations := citations } := by
  have hadmits : ({ fresh options (.memory d) answers with citations := citations } :
      Interpreter).Admits (.memory d') .empty :=
    ⟨rfl, fun c _ => AgreeOn.refl .empty c, fun _ => ⟨hw, d, d', rfl, rfl, h⟩⟩
  exact .mk hadmits

end Interpreter

/-! ## Main statement -/

/-- Running a style on two interpreters gives one bibliography: one has an end if the other has,
and then there is one result, one text, one stack, one list of citations and one list of
diagnostics. -/
structure SameBibliography (p : Program) (citations bibFiles : List Text) (i j : Interpreter) :
    Prop where
  ends : (∃ fuel, (i.run fuel p citations bibFiles).isSome) ↔
    ∃ fuel, (j.run fuel p citations bibFiles).isSome
  same : ∀ fuel fuel' r r' i' j', i.run fuel p citations bibFiles = some (r, i') →
    j.run fuel' p citations bibFiles = some (r', j') →
    r = r' ∧ i'.machine.sink.written = j'.machine.sink.written ∧
      i'.machine.stack = j'.machine.stack ∧ i'.citations = j'.citations ∧
      i'.machine.diagnostics = j'.machine.diagnostics

open Interpreter in
/-- The fresh interpreters go alike with any fuel, and more fuel changes no end. -/
theorem sameBibliography_of_agreeFor {citations : List Text} (hw : wildcard ∉ citations)
    {d d' : Database} (h : AgreeFor citations d d') (options : Options) (answers : SinkAnswers)
    (p : Program) (bibFiles : List Text) :
    SameBibliography p citations bibFiles (fresh options (.memory d) answers)
      (fresh options (.memory d') answers) := by
  have hsame := fun fuel => sameEnd_run fuel p citations bibFiles (alike_fresh hw h options answers)
  constructor
  · refine exists_congr fun fuel => ?_
    rcases (hsame fuel).elim with ⟨hi, hj⟩ | ⟨r, i, j, hi, hj, -⟩
    · rw [hi, hj]
    · rw [hi, hj, Option.isSome_some, Option.isSome_some]
  · intro fuel fuel' r r' i' j' hi hj
    -- with the greater of the two fuels both runs end as they do with their own
    have hi := run_mono (Nat.le_max_left fuel fuel') hi
    have hj := run_mono (Nat.le_max_right fuel fuel') hj
    have h := hsame (max fuel fuel')
    rw [hi, hj] at h
    cases h with
    | some h =>
      obtain ⟨rfl, ⟨-⟩⟩ := h
      exact ⟨rfl, rfl, rfl, rfl, rfl⟩

open Interpreter in
/-- **Entries that the citations do not lead to do not matter.** Unless all entries are asked for,
a style gives one bibliography on two databases that agree on the keys to which the citations lead.
So it does when entries are added to which they lead not, and when the entries change places. -/
theorem run_eq_of_agreeFor {citations : List Text} (hw : wildcard ∉ citations) (options : Options)
    (answers : SinkAnswers) (p : Program) (bibFiles : List Text) :
    (∀ d d' : Database, AgreeFor citations d d' →
      SameBibliography p citations bibFiles (fresh options (.memory d) answers)
        (fresh options (.memory d') answers)) ∧
    (∀ d d' : Database, d.preamble.flatten = d'.preamble.flatten → d.entries ⊆ d'.entries →
      (∀ q ∈ d'.entries, q ∉ d.entries →
        ∀ key ∈ relevantKeys d citations, key.fold ≠ q.2.key.fold) →
      SameBibliography p citations bibFiles (fresh options (.memory d) answers)
        (fresh options (.memory d') answers)) ∧
    (∀ d d' : Database, d.preamble.flatten = d'.preamble.flatten → d.entries.Perm d'.entries →
      SameBibliography p citations bibFiles (fresh options (.memory d) answers)
        (fresh options (.memory d') answers)) := by
  refine ⟨fun d d' h => ?_, fun d d' hpreamble hsub hnew => ?_, fun d d' hpreamble hperm => ?_⟩
  · exact sameBibliography_of_agreeFor hw h options answers p bibFiles
  · exact sameBibliography_of_agreeFor hw (.of_subset hpreamble hsub hnew) options answers p
      bibFiles
  · exact sameBibliography_of_agreeFor hw (.of_perm citations hpreamble hperm) options answers p
      bibFiles

/-- The sample database with its entries in another order and one more between them. -/
def Interpreter.sampleDatabase' : Database where
  entries :=
    [("parent".toList, { key := "Parent".toList, kind := "book".toList }),
      ("other".toList, { key := "Other".toList, kind := "book".toList }),
      ("child".toList,
        { key := "Child".toList
          kind := "inbook".toList
          fields := [("crossref".toList, " PARENT ".toList)] })]
  keyed := by decide
  distinct := by decide

open Interpreter in
/-- A style that lists the entries that are cited cannot tell the two databases apart. -/
theorem sameBibliography_sampleDatabase :
    wildcard ∉ ["CHILD".toList] ∧ AgreeFor ["CHILD".toList] sampleDatabase sampleDatabase' ∧
    SameBibliography
      [⟨.read, ⟨0, .bare 0, .bare 0⟩⟩, ⟨.iterate "cite$".toList, ⟨0, .bare 5, .bare 5⟩⟩]
      ["CHILD".toList] [] (fresh {} (.memory sampleDatabase) .willing)
      (fresh {} (.memory sampleDatabase') .willing) :=
  ⟨by decide, by decide, (run_eq_of_agreeFor (by decide) _ _ _ _).1 _ _ (by decide)⟩

end Bibliography.Style
