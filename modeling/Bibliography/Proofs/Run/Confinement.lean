import Bibliography.Proofs.Citations.Crossrefs
import Bibliography.Proofs.Run.Commands
import Bibliography.Proofs.Run.History

set_option autoImplicit false

/-! # Styles that stay within a vocabulary

If a style, the keys it is run for and the database it reads are within a closed vocabulary, then
so is everything that it puts on the stack, into variables or into the output. Functions are
confined because their tales are (`Tale.Closed.ofName`); the other commands bring in only what they
declare and what the database says.

Main statement: `Interpreter.Confined.run`.
-/

namespace Bibliography.Style

variable {V : Vocabulary}

/-! ## What is read and what is run -/

/-- An entry says nothing outside the vocabulary, and its type may be run if types may be. -/
structure EntryWithin (V : Vocabulary) (e : Entry) : Prop where
  key : V.text e.key
  kind : V.text e.kind
  handler : V.builtin .callType → V.name e.kind
  value : ∀ name value, e.ownValue? name = some value → V.text value

/-- A database says nothing outside the vocabulary. -/
structure DatabaseWithin (V : Vocabulary) (d : Database) : Prop where
  entry : ∀ p ∈ d.entries, EntryWithin V p.2
  preamble : ∀ chunk ∈ d.preamble, V.text chunk

theorem databaseWithin_all (d : Database) : DatabaseWithin .all d := by
  refine ⟨fun p _ => ?_, fun _ _ => trivial⟩
  constructor <;> intros <;> trivial

theorem databaseWithin_empty : DatabaseWithin V .empty :=
  ⟨List.forall_mem_nil _, List.forall_mem_nil _⟩

namespace DatabaseWithin

variable {d : Database} (h : DatabaseWithin V d)
include h

theorem of_entry {key : Text} {e : Entry} (he : d.entry? key = some e) : EntryWithin V e :=
  h.entry (key.fold, e) (Table.mem_of_get?_eq_some he)

theorem text_of_mem_keys {key : Text} (hkey : key ∈ d.keys) : V.text key := by
  obtain ⟨e, he, rfl⟩ := Database.exists_entry?_of_mem_keys hkey
  exact (h.of_entry he).key

/-- The value of a field is the entry's own, or that of the entry it refers to. -/
theorem text_of_field {key name value : Text} {e : Entry} (he : d.entry? key = some e)
    (hvalue : d.field e name = .present value) : V.text value := by
  rw [Database.field] at hvalue
  split at hvalue
  · next own hown =>
    cases hvalue
    exact (h.of_entry he).value name value hown
  · split at hvalue
    · next inherited hinherited =>
      cases hvalue
      obtain ⟨parent, hparent, hown⟩ := Option.bind_eq_some_iff.1 hinherited
      obtain ⟨target, -, hparent⟩ := Option.bind_eq_some_iff.1 hparent
      exact (h.of_entry hparent).value name value hown
    · cases hvalue

end DatabaseWithin

/-- A command says nothing outside the vocabulary. -/
def Command.Within (V : Vocabulary) : Command → Prop
  | .function _ body => Token.AllWithin V body
  | .execute name | .iterate name | .reverse name => V.name name
  | .entry _ _ _ | .integers _ | .strings _ | .abbreviation _ _ | .read | .sort => True

/-- A command that runs a function for entries names it. -/
theorem Command.Within.name_of_visits {V : Vocabulary} {c : Command} (hc : c.Within V)
    {i : Interpreter} {name : Text} {keys : List Text}
    (h : i.visits? c = some (name, keys)) : V.name name := by
  cases c with
  | iterate _ | reverse _ =>
    cases h
    exact hc
  | _ => cases h

/-- A style says nothing outside the vocabulary. -/
def Program.Within (V : Vocabulary) (p : Program) : Prop := ∀ c ∈ p, c.command.Within V

instance [DecidablePred V.text] [DecidablePred V.name] : DecidablePred (Command.Within V)
  | .function _ body => inferInstanceAs (Decidable (Token.AllWithin V body))
  | .execute name | .iterate name | .reverse name => inferInstanceAs (Decidable (V.name name))
  | .entry _ _ _ | .integers _ | .strings _ | .abbreviation _ _ | .read | .sort => .isTrue trivial

instance [DecidablePred V.text] [DecidablePred V.name] (p : Program) : Decidable (p.Within V) :=
  inferInstanceAs (Decidable (∀ c ∈ p, c.command.Within V))

theorem Command.within_all (c : Command) : c.Within .all := by
  cases c with
  | function _ body => exact Token.allWithin_all body
  | execute _ | iterate _ | reverse _ | entry _ _ _ | integers _ | strings _ | abbreviation _ _
  | read | sort => trivial

/-- The abbreviations with which a style reads its database, if it starts with the abbreviations
`a`. -/
def Program.abbreviationsAtRead (a : Abbreviations) : Program → Abbreviations
  | [] => a
  | c :: cs =>
    match c.command with
    | .read => a
    | .abbreviation name value => abbreviationsAtRead (a.define name value) cs
    | _ => abbreviationsAtRead a cs

namespace Interpreter

theorem abbreviationsAtRead_of_visits {i : Interpreter} {c : LocatedCommand} {name : Text}
    {keys : List Text} (h : i.visits? c.command = some (name, keys)) (a : Abbreviations)
    (cs : Program) :
    Program.abbreviationsAtRead a (c :: cs) = Program.abbreviationsAtRead a cs := by
  obtain ⟨command, span⟩ := c
  cases command with
  | iterate _ | reverse _ => rfl
  | _ => cases h

/-- What an interpreter holds, and what it can come to hold by running the style `p`, is within the
vocabulary. -/
structure Confined (V : Vocabulary) (bibFiles : List Text) (p : Program) (i : Interpreter) :
    Prop where
  machine : i.machine.Within V
  cited : ∀ c ∈ i.citations, V.text c
  data : DatabaseWithin V i.data
  program : p.Within V
  loads : i.readSeen = false → ∀ d,
    (i.source.load bibFiles (p.abbreviationsAtRead i.abbreviations)).1 = .ok d → DatabaseWithin V d

/-- How what is run before the style `p` may end. -/
def EndsConfined (V : Vocabulary) (bibFiles : List Text) (p : Program) :
    Except Fault Unit × Interpreter → Prop
  | (.ok _, i) => i.Confined V bibFiles p
  | (.error f, i) => i.machine.Within V ∧ f.Within V

theorem EndsConfined.machine {bibFiles : List Text} {p : Program}
    {q : Except Fault Unit × Interpreter} (h : EndsConfined V bibFiles p q) :
    q.2.machine.Within V := by
  obtain ⟨r, i⟩ := q
  cases r with
  | ok u => exact Confined.machine h
  | error e => exact h.1

theorem fault_within_of_ne {f : Fault} (h : ∀ b s, f.root ≠ .text b (.unmatchedBraces s)) :
    f.Within V :=
  fun b s hf => absurd hf (h b s)

/-- A fault says no more for the command and the entry that it tells of. -/
theorem fault_within_within {f : Fault} (h : f.Within V) (command : String) (key : Option Text)
    (span : SourceSpan) : (f.within command key span).Within V := by
  intro b s hf
  rw [Fault.root_within] at hf
  exact h b s hf

/-! ## Declarations -/

/-- What holds of all bindings holds also with new ones of which it holds. -/
theorem bindings_of_declare {P : Text → Binding → Prop} {binding : Binding} {names : List Text}
    {t : Table Binding} (hbinding : ∀ name ∈ names, P name binding)
    (ht : ∀ name b, t.get? name = some b → P name b) :
    ∀ name b, (declare binding names t).1.get? name = some b → P name b := by
  induction names generalizing t with
  | nil => exact ht
  | cons n names ih =>
    rw [List.forall_mem_cons] at hbinding
    rw [declare]
    split
    · exact ht
    · refine ih hbinding.2 fun name b hb => ?_
      rw [Table.get?_set] at hb
      split at hb
      · next heq =>
        cases hb
        exact heq ▸ hbinding.1
      · exact ht name b hb

theorem bindings_of_declareAll {P : Text → Binding → Prop} {rows : List (Binding × List Text)}
    {t : Table Binding} (hrows : ∀ row ∈ rows, ∀ name ∈ row.2, P name row.1)
    (ht : ∀ name b, t.get? name = some b → P name b) :
    ∀ name b, (declareAll rows t).1.get? name = some b → P name b := by
  induction rows generalizing t with
  | nil => exact ht
  | cons row rows ih =>
    obtain ⟨binding, names⟩ := row
    rw [List.forall_mem_cons] at hrows
    have hnames := bindings_of_declare hrows.1 ht
    rw [declareAll]
    split
    · next heq =>
      rw [heq] at hnames
      exact hnames
    · next heq =>
      rw [heq] at hnames
      exact ih hrows.2 hnames

/-! ## Confined interpreters -/

namespace Confined

variable {bibFiles : List Text} {p : Program} {i : Interpreter}

theorem all (bibFiles : List Text) (p : Program) (i : Interpreter) :
    i.Confined .all bibFiles p where
  machine := i.machine.within_all
  cited _ _ := trivial
  data := databaseWithin_all i.data
  program c _ := c.command.within_all
  loads _ d _ := databaseWithin_all d

section

variable (h : i.Confined V bibFiles p)
include h

theorem scene (hV : V.Closed) {current : Option Text}
    (hcurrent : ∀ c, current = some c → c ∈ i.citations) : (i.scene current).Within V := by
  have hentry : ∀ e, current.bind i.data.entry? = some e → EntryWithin V e := by
    intro e he
    obtain ⟨c, -, he⟩ := Option.bind_eq_some_iff.1 he
    exact h.data.of_entry he
  -- the current entry stands in the database under a requested key
  refine ⟨fun key hkey => h.cited key (hcurrent key hkey), fun e he => (hentry e he).kind,
    fun e he => (hentry e he).handler, fun e name value he hvalue => ?_, ?_⟩
  · obtain ⟨c, -, he⟩ := Option.bind_eq_some_iff.1 he
    exact h.data.text_of_field he hvalue
  · exact hV.flatten h.data.preamble

theorem with_machine {m : Machine} (hm : m.Within V) :
    ({ i with machine := m } : Interpreter).Confined V bibFiles p :=
  { h with machine := hm }

end

/-- A style goes on with what is confined, unless a command changes the abbreviations or reads. -/
theorem tail {c : LocatedCommand} {cs : Program} (h : i.Confined V bibFiles (c :: cs))
    (hc : Program.abbreviationsAtRead i.abbreviations (c :: cs) =
      Program.abbreviationsAtRead i.abbreviations cs) : i.Confined V bibFiles cs where
  machine := h.machine
  cited := h.cited
  data := h.data
  program c hc := h.program c (List.mem_cons_of_mem _ hc)
  loads hseen := hc ▸ h.loads hseen

/-! ## Functions -/

section

variable (hV : V.Closed) (h : i.Confined V bibFiles p)
include hV h

theorem runFunction {fuel : Nat} {current : Option Text}
    (hcurrent : ∀ c, current = some c → c ∈ i.citations) {name : Text} (hname : V.name name)
    {q : Except Fault Unit × Interpreter} (hrun : i.runFunction fuel current name = some q) :
    EndsConfined V bibFiles p q ∧ q.2.citations = i.citations := by
  have hfits := Tale.keeps_runName hV fuel hname (i.scene current) i.machine
    (h.scene hV hcurrent) h.machine
  rw [Interpreter.runFunction] at hrun
  split at hrun
  · cases hrun
  · next f m hfailed =>
    rw [hfailed] at hfits
    cases hrun
    exact ⟨hfits, rfl⟩
  · next m hdone =>
    rw [hdone] at hfits
    cases hrun
    exact ⟨h.with_machine hfits.1, rfl⟩

theorem iterate {fuel : Nat} {word : String} {span : SourceSpan} {name : Text}
    (hname : V.name name) {keys : List Text} (hkeys : keys ⊆ i.citations)
    {q : Except Fault Unit × Interpreter} (hrun : i.iterate fuel word span name keys = some q) :
    EndsConfined V bibFiles p q := by
  have hcurrent : ∀ (j : Interpreter) (key : Text), key ∈ keys → j.citations = i.citations →
      ∀ c, some key = some c → c ∈ j.citations := by
    rintro j key hkey hj c ⟨⟩
    exact hj ▸ hkeys hkey
  refine iterate_induction (I := fun j => j.Confined V bibFiles p ∧ j.citations = i.citations)
    (E := fun x => ∀ q, x = some q → EndsConfined V bibFiles p q)
    (fun j hj q hq => ?done) (fun j j' key hkey hj hfunction => ?next)
    (fun j j' key f hkey hj hfailed q hq => ?failed) (fun _ _ _ _ _ _ hq => nomatch hq)
    ⟨h, rfl⟩ q hrun
  case done =>
    cases hq
    exact hj.1
  case next =>
    obtain ⟨hconfined, hcitations⟩ :=
      runFunction hV hj.1 (hcurrent j key hkey hj.2) hname hfunction
    exact ⟨hconfined, hcitations.trans hj.2⟩
  case failed =>
    cases hq
    obtain ⟨⟨hmachine, hfault⟩, -⟩ :=
      runFunction hV hj.1 (hcurrent j key hkey hj.2) hname hfailed
    exact ⟨hmachine, fault_within_within hfault _ _ _⟩

theorem iterateCommand {fuel : Nat} {word : String} {span : SourceSpan} {name : Text}
    (hname : V.name name)
    {keys : List Text} (hkeys : keys ⊆ i.citations) {q : Except Fault Unit × Interpreter}
    (hrun : i.iterateCommand fuel word span name keys = some q) :
    EndsConfined V bibFiles p q := by
  rw [iterateCommand_eq] at hrun
  split at hrun
  · cases hrun
    exact ⟨h.machine, fault_within_of_ne fun _ _ hf => by cases hf⟩
  · split at hrun
    · cases hrun
      exact ⟨h.machine, fault_within_of_ne fun _ _ hf => by cases hf⟩
    · exact iterate hV h hname hkeys hrun

end

/-! ## Declarations -/

theorem withDeclared (h : i.Confined V bibFiles p) {rows : List (Binding × List Text)}
    (hrows : ∀ row ∈ rows, ∀ name ∈ row.2, row.1.Within V name) :
    EndsConfined V bibFiles p (i.withDeclared rows) := by
  have hbindings := bindings_of_declareAll hrows h.machine.bindings
  rw [Interpreter.withDeclared]
  cases hdeclared : declareAll rows i.machine.bindings with
  | mk bindings fault? =>
    rw [hdeclared] at hbindings
    have hmachine : ({ i.machine with bindings := bindings } : Machine).Within V :=
      { h.machine with bindings := hbindings }
    cases fault? with
    | none => exact h.with_machine hmachine
    | some f =>
      obtain ⟨name, rfl⟩ := fault_of_declareAll (congrArg Prod.snd hdeclared)
      exact ⟨hmachine, fault_within_of_ne fun _ _ hf => by cases hf⟩

/-! ## The database -/

/-- The variables of the entries are empty once the database is read. -/
theorem strings_of_settled (i : Interpreter) (d : Database) {key : Text} {vars : EntryVariables}
    (h : (i.settled d).machine.entryVariables.get? key = some vars) : vars = {} := by
  have hset : ∀ (keys : List Text) (t : Table EntryVariables),
      (∀ vars, t.get? key = some vars → vars = {}) →
        ∀ vars, (keys.foldl (fun t key => t.set key.fold {}) t).get? key = some vars →
          vars = {} := by
    intro keys
    induction keys with
    | nil => exact fun _ ht => ht
    | cons k keys ih =>
      refine fun t ht => ih _ fun vars hvars => ?_
      rw [Table.get?_set] at hvars
      split at hvars
      · exact (Option.some.inj hvars).symm
      · exact ht vars hvars
  exact hset _ [] (fun _ h => nomatch h) vars h

/-- The citations are keys that were requested or keys of entries. -/
theorem mem_citations_of_settled {i : Interpreter} {d : Database} {c : Text}
    (hc : c ∈ (i.settled d).citations) : c ∈ i.citations ∨ c ∈ d.keys := by
  rcases List.mem_append.1 hc with hc | hc
  · rw [expandCitations_eq] at hc
    rcases List.mem_append.1 hc with hc | hc
    · obtain ⟨⟨-, before, after, heq, -⟩, -⟩ :=
        ((requestsWith_knownKeys d i.citations).mem_iff c).1 hc
      exact Or.inl (heq ▸ List.mem_append_right _ List.mem_cons_self)
    · split at hc
      · exact Or.inr ((mem_otherKeys d _ c).1 hc).1
      · cases hc
  · exact Or.inr ((mem_addedParents i.options d _ c).1 hc).1

theorem settled (h : i.Confined V bibFiles p) {d : Database} (hd : DatabaseWithin V d)
    (hseen : i.readSeen = true) : (i.settled d).Confined V bibFiles p where
  machine :=
    { h.machine with
      entryStrings := by
        intro key vars hvars name s hs
        rw [strings_of_settled i d hvars] at hs
        cases hs }
  cited c hc := (mem_citations_of_settled hc).elim (h.cited c) hd.text_of_mem_keys
  data := hd
  program := h.program
  loads hunread := absurd (hseen.symm.trans hunread) (by simp)

theorem read {c : LocatedCommand} {cs : Program} (h : i.Confined V bibFiles (c :: cs))
    (hc : c.command = .read) : EndsConfined V bibFiles cs (i.read bibFiles c.span) := by
  by_cases hseen : i.readSeen = true
  · rw [Interpreter.read, if_pos hseen]
    exact ⟨h.machine, fault_within_of_ne fun _ _ hf => by cases hf⟩
  · rw [Bool.not_eq_true] at hseen
    have hloads := h.loads hseen
    rw [Program.abbreviationsAtRead, hc] at hloads
    cases hload : (i.source.load bibFiles i.abbreviations).1 with
    | error e =>
      rw [Interpreter.read, if_neg (by simp [hseen])]
      simp only [hload]
      exact ⟨h.machine, fault_within_of_ne fun _ _ hf => by cases hf⟩
    | ok d =>
      rw [read_of_load hseen hload]
      refine settled ?_ (hloads d hload) rfl
      exact ⟨h.machine, h.cited, h.data, fun c hc => h.program c (List.mem_cons_of_mem _ hc),
        fun hunread => by cases hunread⟩

/-! ## Commands -/

/-- **A command that says nothing outside the vocabulary brings nothing else in.** -/
theorem runCommand (hV : V.Closed) {c : LocatedCommand} {cs : Program}
    (h : i.Confined V bibFiles (c :: cs)) {fuel : Nat} {q : Except Fault Unit × Interpreter}
    (hrun : i.runCommand fuel bibFiles c = some q) :
    EndsConfined V bibFiles cs q := by
  obtain ⟨command, span⟩ := c
  have hwithin : command.Within V := h.program ⟨command, span⟩ List.mem_cons_self
  rw [runCommand_eq] at hrun
  cases command with
  | entry fields integers strings =>
    cases hrun
    rw [declareEntries]
    split
    · exact ⟨h.machine, fault_within_of_ne fun _ _ hf => by cases hf⟩
    · split
      · exact ⟨h.machine, fault_within_of_ne fun _ _ hf => by cases hf⟩
      · have htail := h.tail rfl
        have hseen : ({ i with entrySeen := true } : Interpreter).Confined V bibFiles cs :=
          ⟨htail.machine, htail.cited, htail.data, htail.program, htail.loads⟩
        -- none of these four bindings holds a text
        refine hseen.withDeclared fun row hrow name _ => ?_
        simp only [List.mem_cons, List.not_mem_nil, or_false] at hrow
        obtain rfl | rfl | rfl | rfl := hrow <;> trivial
  | integers names =>
    cases hrun
    refine (h.tail rfl).withDeclared fun row hrow name _ => ?_
    obtain rfl := List.mem_singleton.1 hrow
    trivial
  | strings names =>
    cases hrun
    refine (h.tail rfl).withDeclared fun row hrow name _ => ?_
    obtain rfl := List.mem_singleton.1 hrow
    exact hV.nil
  | function name body =>
    cases hrun
    refine (h.tail rfl).withDeclared fun row hrow name _ => ?_
    obtain rfl := List.mem_singleton.1 hrow
    exact fun _ => hwithin
  | abbreviation name value =>
    cases hrun
    rw [abbreviate]
    split
    · exact ⟨h.machine, fault_within_of_ne fun _ _ hf => by cases hf⟩
    · exact ⟨h.machine, h.cited, h.data, fun c hc => h.program c (List.mem_cons_of_mem _ hc),
        h.loads⟩
  | read =>
    cases hrun
    exact h.read rfl
  | execute name =>
    exact ((h.tail rfl).runFunction hV (fun _ hc => by cases hc) hwithin hrun).1
  | iterate name =>
    exact (h.tail rfl).iterateCommand hV hwithin (List.Subset.refl _) hrun
  | reverse name =>
    exact (h.tail rfl).iterateCommand hV hwithin
      (List.reverse_subset.2 (List.Subset.refl _)) hrun
  | sort =>
    cases hrun
    rw [Interpreter.sort]
    split
    · have htail := h.tail rfl
      exact ⟨htail.machine, fun c hc => htail.cited c (List.mem_mergeSort.1 hc), htail.data,
        htail.program, htail.loads⟩
    · exact ⟨h.machine, fault_within_of_ne fun _ _ hf => by cases hf⟩

theorem runCommands (hV : V.Closed) (h : i.Confined V bibFiles p) {fuel : Nat}
    {q : Except Fault Unit × Interpreter}
    (hrun : Interpreter.runCommands fuel bibFiles p i = some q) :
    EndsConfined V bibFiles [] q := by
  refine runCommands_induction (I := fun p i => i.Confined V bibFiles p)
    (E := fun x => ∀ q, x = some q → EndsConfined V bibFiles [] q)
    (fun i hi q hq => ?done) (fun c cs i i' hi hcommand => hi.runCommand hV hcommand)
    (fun c cs i i' f hi hcommand q hq => ?failed) (fun _ _ _ _ _ _ hq => nomatch hq) h q hrun
  case done =>
    cases hq
    exact hi
  case failed =>
    cases hq
    obtain ⟨hmachine, hfault⟩ := hi.runCommand hV hcommand
    exact ⟨hmachine, fault_within_within hfault _ _ _⟩

/-- The last line is finished with a machine, a scene and a check as in a function. -/
theorem flush (hV : V.Closed) (h : i.Confined V bibFiles p) :
    EndsConfined V bibFiles p i.flush := by
  have hfits := Run.Keeps.newline hV (i.scene none) i.machine
    (h.scene hV fun _ hc => by cases hc) h.machine
  rw [Interpreter.flush]
  split
  · exact h
  · split
    · next m hdone =>
      rw [hdone] at hfits
      exact h.with_machine hfits.1
    · next f m hfailed =>
      rw [hfailed] at hfits
      exact hfits
    · exact h

/-- **A style that says nothing outside a vocabulary does not leave it.** -/
theorem run (hV : V.Closed) {citations : List Text}
    (h : ({ i with citations := citations } : Interpreter).Confined V bibFiles p) {fuel : Nat}
    {q : Except Fault Unit × Interpreter}
    (hrun : i.run fuel p citations bibFiles = some q) :
    EndsConfined V bibFiles [] q := by
  rw [Interpreter.run] at hrun
  split at hrun
  · next i' hcommands =>
    cases hrun
    exact flush hV (h.runCommands hV hcommands)
  · exact h.runCommands hV hrun

end Confined

end Interpreter

end Bibliography.Style
