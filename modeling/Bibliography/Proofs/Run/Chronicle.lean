import Bibliography.Proofs.Run.Confinement

set_option autoImplicit false

/-! # The history of a style

The history of a style is the row of the events of its commands. A command that runs a function has
the events of that function; any other is one event.

A `Watch` is what one wants to know at every moment of a run: `J` is said of the events so far and
the machine after them, and `K` of the machine alone. Only three kinds of events matter to a watch,
because all others leave the output as it is (`Run.Quiet`): a text that is written, a line that is
finished, and the rest.

Main statements: `Watch.runCommands`, `Interpreter.Confined.history`,
`Interpreter.leadsFrom_history`.
-/

namespace Bibliography.Style

open Interpreter (EndsConfined)

namespace Interpreter

/-! ## Events of commands -/

def functionEvents (fuel : Nat) (i : Interpreter) (current : Option Text) (name : Text) :
    List Event :=
  (Tale.ofName fuel name).history (i.scene current) i.machine

/-- The events of a function that is run for entries one after the other. -/
def iterateEvents (fuel : Nat) (name : Text) : List Text → Interpreter → List Event
  | [], _ => []
  | key :: keys, i => i.functionEvents fuel (some key) name ++
    match i.runFunction fuel (some key) name with
    | some (.ok (), i) => iterateEvents fuel name keys i
    | _ => []

/-- The events of a function that is run for entries, if the command is in order. -/
def iterateCommandEvents (fuel : Nat) (i : Interpreter) (name : Text) (keys : List Text) :
    List Event :=
  if !i.readSeen then []
  else if !i.machine.bindings.contains name then []
  else iterateEvents fuel name keys i

def commandEvents (fuel : Nat) (bibFiles : List Text) (i : Interpreter) (c : LocatedCommand) :
    List Event :=
  match c.command with
  | .execute name => i.functionEvents fuel none name
  | .iterate name => i.iterateCommandEvents fuel name i.citations
  | .reverse name => i.iterateCommandEvents fuel name i.citations.reverse
  | _ => ((i.runCommand fuel bibFiles c).map fun q => ⟨none, i.machine, q.2.machine⟩).toList

def commandsEvents (fuel : Nat) (bibFiles : List Text) : Program → Interpreter → List Event
  | [], _ => []
  | c :: cs, i => i.commandEvents fuel bibFiles c ++
    match i.runCommand fuel bibFiles c with
    | some (.ok (), i) => commandsEvents fuel bibFiles cs i
    | _ => []

/-- The event of finishing the last line. -/
def flushEvent (i : Interpreter) : Event := ⟨none, i.machine, i.flush.2.machine⟩

/-- **The history of a style** that is run for a list of requested keys and the names of database
files. -/
def history (fuel : Nat) (i : Interpreter) (p : Program) (citations bibFiles : List Text) :
    List Event :=
  commandsEvents fuel bibFiles p { i with citations := citations } ++
    match runCommands fuel bibFiles p { i with citations := citations } with
    | some (.ok (), i) => [i.flushEvent]
    | _ => []

/-! ### What holds of all events and of the end -/

variable {fuel : Nat} {bibFiles : List Text} {E : Event → Prop}

/-- What holds of the events of every function that runs for an entry holds of those of an
iteration, if functions that end well keep an invariant. -/
theorem along_iterate {word : String} {span : SourceSpan} {name : Text} {keys : List Text}
    {I : Interpreter → Prop} {F : Except Fault Unit × Interpreter → Prop} {i : Interpreter}
    (done : ∀ i, I i → F (.ok (), i))
    (function : ∀ i key, key ∈ keys → I i →
      (∀ e ∈ i.functionEvents fuel (some key) name, E e) ∧
      (∀ i', i.runFunction fuel (some key) name = some (.ok (), i') → I i') ∧
      ∀ f i', i.runFunction fuel (some key) name = some (.error f, i') →
        F (.error (f.within word (some key) span), i'))
    (h : I i) :
    (∀ e ∈ iterateEvents fuel name keys i, E e) ∧
      ∀ q, i.iterate fuel word span name keys = some q → F q := by
  induction keys generalizing i with
  | nil =>
    refine ⟨List.forall_mem_nil _, ?_⟩
    rintro q ⟨⟩
    exact done i h
  | cons key keys ih =>
    obtain ⟨hevents, hnext, hfailed⟩ := function i key List.mem_cons_self h
    rw [iterateEvents, iterate_cons]
    cases hrun : i.runFunction fuel (some key) name with
    | none =>
      refine ⟨by simpa using hevents, ?_⟩
      rintro q ⟨⟩
    | some q =>
      obtain ⟨r, i'⟩ := q
      cases r with
      | error f =>
        refine ⟨by simpa using hevents, ?_⟩
        rintro q ⟨⟩
        exact hfailed f i' hrun
      | ok u =>
        -- the other entries follow on the interpreter that the first one left
        have hrest := ih (fun j k hk => function j k (List.mem_cons_of_mem _ hk)) (hnext i' hrun)
        exact ⟨List.forall_mem_append.2 ⟨hevents, hrest.1⟩, hrest.2⟩

/-- What holds of the events and the end of every command holds of those of a row of them, if
commands that succeed keep an invariant. It may speak of the commands that are left to run. -/
theorem along_commands {p : Program} {I : Program → Interpreter → Prop}
    {F : Except Fault Unit × Interpreter → Prop} {i : Interpreter}
    (done : ∀ i, I [] i → F (.ok (), i))
    (command : ∀ c cs i, I (c :: cs) i → (∀ e ∈ i.commandEvents fuel bibFiles c, E e) ∧
      (∀ i', i.runCommand fuel bibFiles c = some (.ok (), i') → I cs i') ∧
      ∀ f i', i.runCommand fuel bibFiles c = some (.error f, i') →
        F (.error (f.within c.command.word none c.span), i'))
    (h : I p i) :
    (∀ e ∈ commandsEvents fuel bibFiles p i, E e) ∧
      ∀ q, runCommands fuel bibFiles p i = some q → F q := by
  induction p generalizing i with
  | nil =>
    refine ⟨List.forall_mem_nil _, ?_⟩
    rintro q ⟨⟩
    exact done i h
  | cons c cs ih =>
    obtain ⟨hevents, hnext, hfailed⟩ := command c cs i h
    rw [commandsEvents, runCommands_cons]
    cases hrun : i.runCommand fuel bibFiles c with
    | none =>
      refine ⟨by simpa using hevents, ?_⟩
      rintro q ⟨⟩
    | some q =>
      obtain ⟨r, i'⟩ := q
      cases r with
      | error f =>
        refine ⟨by simpa using hevents, ?_⟩
        rintro q ⟨⟩
        exact hfailed f i' hrun
      | ok u =>
        have hrest := ih (hnext i' hrun)
        exact ⟨List.forall_mem_append.2 ⟨hevents, hrest.1⟩, hrest.2⟩

/-- What holds of the events and the end of the commands of a style, and of finishing the last line,
holds of the history and the end of the style. -/
theorem along_run {p : Program} {citations : List Text}
    {F : Except Fault Unit × Interpreter → Prop} {i : Interpreter}
    (commands : (∀ e ∈ commandsEvents fuel bibFiles p { i with citations := citations }, E e) ∧
      ∀ q, runCommands fuel bibFiles p { i with citations := citations } = some q → F q)
    (flush : ∀ j, F (.ok (), j) → E j.flushEvent ∧ F j.flush) :
    (∀ e ∈ i.history fuel p citations bibFiles, E e) ∧
      ∀ q, i.run fuel p citations bibFiles = some q → F q := by
  obtain ⟨hevents, hends⟩ := commands
  rw [history, run]
  cases hcommands : runCommands fuel bibFiles p { i with citations := citations } with
  | none =>
    refine ⟨by simpa using hevents, ?_⟩
    rintro q ⟨⟩
  | some q =>
    have hq := hends q hcommands
    obtain ⟨r, j⟩ := q
    cases r with
    | error e =>
      refine ⟨by simpa using hevents, ?_⟩
      rintro q ⟨⟩
      exact hq
    | ok u =>
      obtain ⟨hevent, hend⟩ := flush j hq
      refine ⟨List.forall_mem_append.2 ⟨hevents, List.forall_mem_singleton.2 hevent⟩, ?_⟩
      rintro q ⟨⟩
      exact hend

/-! ### Commands one by one -/

/-- On the machine of `j` there are new diagnostics and variables of entries at most. -/
structure Spares (i j : Interpreter) : Prop where
  options : j.options = i.options
  bindings : j.machine.bindings = i.machine.bindings
  stack : j.machine.stack = i.machine.stack
  pending : j.machine.pending = i.machine.pending
  sink : j.machine.sink = i.machine.sink

theorem Spares.refl (i : Interpreter) : i.Spares i := ⟨rfl, rfl, rfl, rfl, rfl⟩

/-- How a command ends that neither runs a function nor declares names. -/
inductive SparingEnd (c : LocatedCommand) : Except Fault Unit → Prop where
  | done : SparingEnd c (.ok ())
  | misplaced (why : OrderFault) : SparingEnd c (.error (.outOfOrder c.command.word why c.span))
  | unread (e : DatabaseError) : SparingEnd c (.error (.database e))

/-- A command that runs no function is one event: it declares names, or it spares the machine. -/
theorem command_cases {i : Interpreter} {c : LocatedCommand}
    {P : List Event → Option (Except Fault Unit × Interpreter) → Prop}
    (execute : ∀ name, c.command = .execute name →
      P (i.functionEvents fuel none name) (i.runFunction fuel none name))
    (visit : ∀ name keys, i.visits? c.command = some (name, keys) →
      P (i.iterateCommandEvents fuel name keys)
        (i.iterateCommand fuel c.command.word c.span name keys))
    (declare : ∀ entrySeen rows q, { i with entrySeen := entrySeen }.withDeclared rows = q →
      (∀ row ∈ rows, ∀ body, row.1 = .function body → ∃ name, c.command = .function name body) →
      i.runCommand fuel bibFiles c = some q → P [⟨none, i.machine, q.2.machine⟩] (some q))
    (spare : ∀ q, i.Spares q.2 → SparingEnd c q.1 → i.runCommand fuel bibFiles c = some q →
      P [⟨none, i.machine, q.2.machine⟩] (some q)) :
    P (i.commandEvents fuel bibFiles c) (i.runCommand fuel bibFiles c) := by
  obtain ⟨command, span⟩ := c
  have one : ∀ q, (i.runCommand fuel bibFiles ⟨command, span⟩ = some q →
      P [⟨none, i.machine, q.2.machine⟩] (some q)) →
      i.runCommand fuel bibFiles ⟨command, span⟩ = some q →
      i.commandEvents fuel bibFiles ⟨command, span⟩ = [⟨none, i.machine, q.2.machine⟩] →
      P (i.commandEvents fuel bibFiles ⟨command, span⟩)
        (i.runCommand fuel bibFiles ⟨command, span⟩) := by
    intro q hP hq hevents
    rw [hevents, hq]
    exact hP hq
  cases command with
  | execute name => exact execute name rfl
  | iterate name => exact visit name i.citations rfl
  | reverse name => exact visit name i.citations.reverse rfl
  | entry fields integers strings =>
    refine one (i.declareEntries span fields integers strings) ?_ rfl rfl
    rw [declareEntries]
    split
    · exact spare _ (.refl i) (.misplaced _)
    · split
      · exact spare _ (.refl i) (.misplaced _)
      · refine declare true _ _ rfl fun row hrow body hbody => ?_
        simp only [List.mem_cons, List.not_mem_nil, or_false] at hrow
        obtain rfl | rfl | rfl | rfl := hrow <;> cases hbody
  | integers names | strings names =>
    refine one (i.withDeclared _) (declare i.entrySeen _ _ rfl fun row hrow body hbody => ?_) rfl
      rfl
    obtain rfl := List.mem_singleton.1 hrow
    cases hbody
  | function name body =>
    refine one (i.withDeclared _) (declare i.entrySeen _ _ rfl fun row hrow body' hbody => ?_) rfl
      rfl
    obtain rfl := List.mem_singleton.1 hrow
    cases hbody
    exact ⟨name, rfl⟩
  | abbreviation name value =>
    refine one (i.abbreviate span name value) ?_ rfl rfl
    rw [abbreviate]
    split
    · exact spare _ (.refl i) (.misplaced _)
    · exact spare _ ⟨rfl, rfl, rfl, rfl, rfl⟩ .done
  | read =>
    refine one (i.read bibFiles span) ?_ rfl rfl
    rw [read]
    split
    · exact spare _ (.refl i) (.misplaced _)
    · obtain ⟨loaded, warnings⟩ := i.source.load bibFiles i.abbreviations
      cases loaded with
      | error e => exact spare _ ⟨rfl, rfl, rfl, rfl, rfl⟩ (.unread e)
      | ok d => exact spare _ ⟨rfl, rfl, rfl, rfl, rfl⟩ .done
  | sort =>
    refine one (i.sort span) ?_ rfl rfl
    rw [Interpreter.sort]
    split
    · exact spare _ ⟨rfl, rfl, rfl, rfl, rfl⟩ .done
    · exact spare _ (.refl i) (.misplaced _)

end Interpreter

/-! ## What leaves the output as it is -/

/-- The line that is not finished and the sink are the same. -/
structure Machine.SameOutput (m m' : Machine) : Prop where
  pending : m'.pending = m.pending
  sink : m'.sink = m.sink

namespace Machine.SameOutput

theorem refl (m : Machine) : SameOutput m m := ⟨rfl, rfl⟩

theorem trans {m m' m'' : Machine} (h : SameOutput m m') (h' : SameOutput m' m'') :
    SameOutput m m'' :=
  ⟨h'.pending.trans h.pending, h'.sink.trans h.sink⟩

end Machine.SameOutput

/-- A run that leaves the output as it is. -/
def Run.Quiet {α : Type} (x : Run α) : Prop :=
  ∀ (s : Scene) (m : Machine), (x s m).Ends m.SameOutput

namespace Run.Quiet

variable {α β : Type}

theorem bind {x : Run α} {f : α → Run β} (hx : Quiet x) (hf : ∀ a, Quiet (f a)) :
    Quiet (x >>= f) := by
  intro s m
  have h := hx s m
  rw [bind_apply]
  cases hxs : x s m with
  | done a m' =>
    rw [hxs] at h
    exact (hf a s m').imp fun m'' h' => Machine.SameOutput.trans h h'
  | failed f m' =>
    rw [hxs] at h
    exact h
  | unfinished => trivial

theorem give (a : α) : Quiet (Run.give a) := fun _ m => .refl m

theorem fail (f : Fault) : Quiet (Run.fail f : Run α) := fun _ m => .refl m

/-- A run that changes the machine elsewhere. -/
theorem change {f : Machine → Machine} (hf : ∀ m, Machine.SameOutput m (f m)) :
    Quiet (Run.change f) :=
  fun _ m => hf m

theorem pop : Quiet Run.pop := by
  intro s m
  rw [Run.pop]
  split <;> exact ⟨rfl, rfl⟩

/-- What plain functions are made of does not touch the output. -/
theorem plain : Run.Plain @Run.Quiet :=
  Run.Basic.plain
    { give := give
      bind := bind
      fail := fail
      scene := fun _ m => .refl m
      bindings := fun _ m => .refl m
      variablesOf := fun _ _ m => .refl m
      setBinding := fun _ _ => change fun _ => ⟨rfl, rfl⟩
      setVariables := fun _ _ => change fun _ => ⟨rfl, rfl⟩
      push := fun _ => change fun _ => ⟨rfl, rfl⟩
      pop := pop
      report := fun _ => change fun _ => ⟨rfl, rfl⟩ }

theorem stack : Quiet Run.stack :=
  bind (fun _ _ => ⟨rfl, rfl⟩) fun _ => change fun _ => ⟨rfl, rfl⟩

end Run.Quiet

/-! ## Watching -/

/-- What is watched in runs with the options `o` that stay within a vocabulary. -/
structure Watch (V : Vocabulary) (o : Options) (J : List Event → Machine → Prop)
    (K : Machine → Prop) : Prop where
  /-- At a moment at which the output is as it was after the events so far. -/
  moment : ∀ {log : List Event} {m m' : Machine}, J log m → m.SameOutput m' → m'.Within V → K m'
  /-- After an event that leaves the output as it is. -/
  quiet : ∀ {log : List Event} {b? : Option Builtin} {m m' : Machine},
    (∀ b, b? = some b → b ≠ .newline ∧ b ≠ .write) → J log m → m.SameOutput m' →
    J (log ++ [⟨b?, m, m'⟩]) m'
  /-- After a text was written. -/
  write : ∀ {log : List Event} {m : Machine} {v : Value} {vs : List Value} {t : Text},
    J log m → m.stack = v :: vs → v.text? = some t →
    J (log ++ [⟨some .write, m, { m with stack := vs, pending := t :: m.pending }⟩])
      { m with stack := vs, pending := t :: m.pending }
  /-- After a line was finished. -/
  newline : ∀ {log : List Event} {s : Scene} {m m' : Machine}, s.options = o → J log m →
    Run.newline s m = .done () m' → J (log ++ [⟨some .newline, m, m'⟩]) m'
  /-- After a line could not be finished. -/
  refused : ∀ {log : List Event} {s : Scene} {m m' : Machine} {f : Fault}, s.options = o →
    J log m → m'.Within V → Run.newline s m = .failed f m' → K m'

/-- The outcome of events, with `J` said of it if all went well, and `K` also if not. -/
def Outcome.Watched {α : Type} (J : List Event → Machine → Prop) (K : Machine → Prop)
    (log : List Event) : Outcome α → Prop
  | .done _ m => J log m
  | .failed _ m => K m
  | .unfinished => True

/-- A tale that goes as is watched. -/
def Tale.Watched (V : Vocabulary) (o : Options) (J : List Event → Machine → Prop)
    (K : Machine → Prop) {α : Type} (t : Tale α) : Prop :=
  ∀ (log : List Event) (s : Scene) (m : Machine), s.Within V → s.options = o → m.Within V →
    J log m → (∀ e ∈ t.history s m, K e.before ∧ K e.after) ∧
      (t.run s m).Watched J K (log ++ t.history s m)

namespace Watch

variable {V : Vocabulary} {o : Options} {J : List Event → Machine → Prop} {K : Machine → Prop}

/-! ### Tales -/

section

variable (w : Watch V o J K)
include w

/-- One event, of which `J` is said if all went well and `K` also if not. -/
theorem once {α : Type} {Q : α → Prop} {b? : Option Builtin} {x : Run α} (hkeeps : x.Keeps V Q)
    (hx : ∀ (log : List Event) (s : Scene) (m : Machine), s.options = o → J log m →
      match x s m with
      | .done _ m' => J (log ++ [⟨b?, m, m'⟩]) m'
      | .failed _ m' => m'.Within V → K m'
      | .unfinished => True) : (Tale.once b? x).Watched V o J K := by
  intro log s m hs ho hm hJ
  have hfits := hkeeps s m hs hm
  have hJ' := hx log s m ho hJ
  have hbefore : K m := w.moment hJ (.refl m) hm
  simp only [Tale.once]
  cases hxs : x s m with
  | done a m' =>
    rw [hxs] at hfits hJ'
    exact ⟨List.forall_mem_singleton.2 ⟨hbefore, w.moment hJ' (.refl m') hfits.1⟩, hJ'⟩
  | failed f m' =>
    rw [hxs] at hfits hJ'
    exact ⟨List.forall_mem_singleton.2 ⟨hbefore, hJ' hfits.1⟩, hJ' hfits.1⟩
  | unfinished => exact ⟨List.forall_mem_nil _, trivial⟩

/-- One event that leaves the output as it is. -/
theorem once_quiet {α : Type} {Q : α → Prop} {b? : Option Builtin} {x : Run α}
    (hb : ∀ b, b? = some b → b ≠ .newline ∧ b ≠ .write) (hkeeps : x.Keeps V Q) (hquiet : x.Quiet) :
    (Tale.once b? x).Watched V o J K := by
  refine w.once hkeeps fun log s m _ hJ => ?_
  have hends := hquiet s m
  cases hxs : x s m with
  | done a m' =>
    rw [hxs] at hends
    exact w.quiet hb hJ hends
  | failed f m' =>
    rw [hxs] at hends
    exact w.moment hJ hends
  | unfinished => trivial

theorem once_newline (hV : V.Closed) :
    (Tale.once (some .newline) Run.newline).Watched V o J K := by
  refine w.once (Run.Keeps.newline hV) fun log s m ho hJ => ?_
  cases hline : Run.newline s m with
  | done u m' => exact w.newline ho hJ hline
  | failed f m' => exact fun hm' => w.refused ho hJ hm' hline
  | unfinished => trivial

theorem once_write (hV : V.Closed) :
    (Tale.once (some .write) (Run.popString >>= Run.write)).Watched V o J K := by
  have hkeeps : (Run.popString >>= Run.write).Keeps V Anything :=
    Run.Keeps.bind (Run.Keeps.popString hV) fun _ ht => Run.Keeps.write ht
  refine w.once hkeeps fun log s m _ hJ => ?_
  -- what is written is what lies at the top, if it counts as a text
  cases hstack : m.stack with
  | nil =>
    simp only [Run.popString, Run.pop, Run.bind_apply, hstack]
    exact w.moment hJ (.refl m)
  | cons v vs =>
    simp only [Run.popString, Run.pop, Run.bind_apply, hstack]
    cases v with
    | string t => exact w.write hJ hstack rfl
    | missing field => exact w.write (t := []) hJ hstack rfl
    | integer _ | function _ | reference _ => exact w.moment hJ ⟨rfl, rfl⟩

end

theorem andThen {α β : Type} {Q : α → Prop} {t : Tale α} {f : α → Tale β}
    (ht : t.Watched V o J K) (hkeeps : t.run.Keeps V Q) (hf : ∀ a, Q a → (f a).Watched V o J K) :
    (t.andThen f).Watched V o J K := by
  intro log s m hs ho hm hJ
  have hfits := hkeeps s m hs hm
  obtain ⟨hevents, hends⟩ := ht log s m hs ho hm hJ
  simp only [Tale.andThen, Run.bind_apply]
  cases hrun : t.run s m with
  | done a m' =>
    rw [hrun] at hfits hends
    -- the second tale is watched behind the events of the first
    obtain ⟨hevents', hends'⟩ := hf a hfits.2 _ s m' hs ho hfits.1 hends
    rw [List.append_assoc] at hends'
    exact ⟨List.forall_mem_append.2 ⟨hevents, hevents'⟩, hends'⟩
  | failed e m' =>
    rw [hrun] at hends
    exact ⟨by simpa using hevents, hends⟩
  | unfinished => exact ⟨by simpa using hevents, trivial⟩

/-- What is watched passes from events to tales. -/
theorem closed (w : Watch V o J K) (hV : V.Closed) : Tale.Closed V (Tale.Watched V o J K) where
  andThen := andThen
  unfinished _ _ _ _ _ _ _ := ⟨List.forall_mem_nil _, trivial⟩
  running b _ ht log s m hs ho hm hJ :=
    ht log { s with active := some b } m ⟨hs.key, hs.kind, hs.handler, hs.field, hs.preamble⟩ ho
      hm hJ
  calling name t ht log s m hs ho hm hJ := by
    simp only [Tale.calling, Run.calling_apply]
    split
    · exact ⟨List.forall_mem_nil _, w.moment hJ (.refl m) hm⟩
    · exact ht log { s with depth := s.depth + 1 } m
        ⟨hs.key, hs.kind, hs.handler, hs.field, hs.preamble⟩ ho hm hJ
  plain hb hkeeps hplain := by
    refine w.once_quiet (fun b hb' => ?_) hkeeps (hplain _ Run.Quiet.plain)
    have := hb b hb'
    constructor <;> rintro rfl <;> cases this
  stack _ := by
    refine w.once_quiet ?_ (Run.Keeps.bind Run.Keeps.takeStack fun _ _ => Run.Keeps.report _)
      Run.Quiet.stack
    rintro b ⟨⟩
    exact ⟨by decide, by decide⟩
  newline _ := w.once_newline hV
  write _ := w.once_write hV

end Watch

/-! ### Commands -/

namespace Interpreter

/-- Declaring names leaves the options and the output as they are. -/
theorem sameOutput_of_withDeclared (i : Interpreter) (rows : List (Binding × List Text)) :
    (i.withDeclared rows).2.options = i.options ∧
      i.machine.SameOutput (i.withDeclared rows).2.machine := by
  rw [withDeclared]
  obtain ⟨bindings, fault?⟩ := declareAll rows i.machine.bindings
  cases fault? <;> exact ⟨rfl, rfl, rfl⟩

variable {fuel : Nat} {i : Interpreter} {q : Except Fault Unit × Interpreter}

theorem options_of_runFunction {current : Option Text} {name : Text}
    (hrun : i.runFunction fuel current name = some q) : q.2.options = i.options := by
  rw [runFunction] at hrun
  split at hrun <;> cases hrun <;> rfl

theorem options_of_iterate {word : String} {span : SourceSpan} {name : Text} {keys : List Text}
    (hrun : i.iterate fuel word span name keys = some q) : q.2.options = i.options := by
  refine iterate_induction (I := fun j => j.options = i.options)
    (E := fun x => ∀ q, x = some q → q.2.options = i.options) ?_
    (fun j j' key _ hj hfunction => (options_of_runFunction hfunction).trans hj)
    ?_ (fun _ _ _ _ _ _ h => nomatch h) rfl q hrun
  · rintro j hj q ⟨⟩
    exact hj
  · rintro j j' key f - hj hfunction q ⟨⟩
    exact (options_of_runFunction hfunction).trans hj

theorem options_of_iterateCommand {word : String} {span : SourceSpan} {name : Text}
    {keys : List Text} (hrun : i.iterateCommand fuel word span name keys = some q) :
    q.2.options = i.options := by
  rw [iterateCommand_eq] at hrun
  split at hrun
  · cases hrun
    rfl
  · split at hrun
    · cases hrun
      rfl
    · exact options_of_iterate hrun

end Interpreter

/-- How the events of commands end, with `J` said of them if all went well, and `K` of the machine
also if not. -/
def EndsWatched (J : List Event → Machine → Prop) (K : Machine → Prop)
    (log : List Event) : Option (Except Fault Unit × Interpreter) → Prop
  | some (.ok _, i) => J log i.machine
  | some (.error _, i) => K i.machine
  | none => True

/-- Events, and the end to which they lead, that are as is watched behind earlier events. -/
structure Passes (J : List Event → Machine → Prop) (K : Machine → Prop)
    (log events : List Event) (end? : Option (Except Fault Unit × Interpreter)) : Prop where
  moments : ∀ e ∈ events, K e.before ∧ K e.after
  ends : EndsWatched J K (log ++ events) end?

namespace Watch

variable {V : Vocabulary} {o : Options} {J : List Event → Machine → Prop} {K : Machine → Prop}
variable {bibFiles : List Text} {log : List Event} {i : Interpreter}
variable (w : Watch V o J K) (hV : V.Closed)
include w hV

theorem runFunction {p : Program} (h : i.Confined V bibFiles p) (ho : i.options = o)
    (hJ : J log i.machine) (fuel : Nat) {current : Option Text}
    (hcurrent : ∀ c, current = some c → c ∈ i.citations) {name : Text} (hname : V.name name) :
    Passes J K log (i.functionEvents fuel current name) (i.runFunction fuel current name) := by
  obtain ⟨hevents, hends⟩ := ((w.closed hV).ofName hV fuel hname).property log (i.scene current)
    i.machine (h.scene hV hcurrent) ho h.machine hJ
  rw [Tale.run_ofName] at hends
  rw [Interpreter.runFunction]
  refine ⟨hevents, ?_⟩
  cases hrun : runName fuel name (i.scene current) i.machine with
  | done u m =>
    rw [hrun] at hends
    exact hends
  | failed f m =>
    rw [hrun] at hends
    exact hends
  | unfinished => trivial

theorem iterate {p : Program} (h : i.Confined V bibFiles p) (ho : i.options = o)
    (hJ : J log i.machine) (fuel : Nat) (word : String) (span : SourceSpan) {name : Text}
    (hname : V.name name) {keys : List Text} (hkeys : keys ⊆ i.citations) :
    Passes J K log (Interpreter.iterateEvents fuel name keys i)
      (i.iterate fuel word span name keys) := by
  induction keys generalizing i log with
  | nil =>
    refine ⟨List.forall_mem_nil _, ?_⟩
    simpa [Interpreter.iterateEvents, Interpreter.iterate_nil, EndsWatched] using hJ
  | cons key keys ih =>
    obtain ⟨hkey, hkeys⟩ := List.cons_subset.1 hkeys
    have hcurrent : ∀ c, some key = some c → c ∈ i.citations := by
      rintro c ⟨⟩
      exact hkey
    have hfirst := w.runFunction hV h ho hJ fuel hcurrent hname
    rw [Interpreter.iterateEvents, Interpreter.iterate_cons]
    cases hrun : i.runFunction fuel (some key) name with
    | none => exact ⟨by simpa using hfirst.moments, trivial⟩
    | some q =>
      rw [hrun] at hfirst
      obtain ⟨r, i'⟩ := q
      cases r with
      | error b => exact ⟨by simpa using hfirst.moments, hfirst.ends⟩
      | ok u =>
        obtain ⟨hconfined, hcitations⟩ := h.runFunction hV hcurrent hname hrun
        have hrest := ih hconfined ((Interpreter.options_of_runFunction hrun).trans ho) hfirst.ends
          (hcitations ▸ hkeys)
        refine ⟨List.forall_mem_append.2 ⟨hfirst.moments, hrest.moments⟩, ?_⟩
        have hends := hrest.ends
        rw [List.append_assoc] at hends
        exact hends

theorem iterateCommand {p : Program} (h : i.Confined V bibFiles p) (ho : i.options = o)
    (hJ : J log i.machine) (fuel : Nat) (word : String) (span : SourceSpan) {name : Text}
    (hname : V.name name) {keys : List Text} (hkeys : keys ⊆ i.citations) :
    Passes J K log (i.iterateCommandEvents fuel name keys)
      (i.iterateCommand fuel word span name keys) := by
  have hmoment : K i.machine := w.moment hJ (.refl _) h.machine
  rw [Interpreter.iterateCommandEvents, Interpreter.iterateCommand_eq]
  split
  · exact ⟨List.forall_mem_nil _, hmoment⟩
  · split
    · exact ⟨List.forall_mem_nil _, hmoment⟩
    · exact w.iterate hV h ho hJ fuel word span hname hkeys

omit hV in
/-- A command that runs no function is one event that leaves the output as it is. -/
theorem other {p : Program} (hm : i.machine.Within V) (hJ : J log i.machine)
    {q : Except Fault Unit × Interpreter} (hq : EndsConfined V bibFiles p q)
    (hsame : i.machine.SameOutput q.2.machine) :
    Passes J K log [⟨none, i.machine, q.2.machine⟩] (some q) := by
  have hJ' : J (log ++ [⟨none, i.machine, q.2.machine⟩]) q.2.machine :=
    w.quiet (fun _ hb => nomatch hb) hJ hsame
  have hafter : K q.2.machine := w.moment hJ hsame hq.machine
  refine ⟨List.forall_mem_singleton.2 ⟨w.moment hJ (.refl _) hm, hafter⟩, ?_⟩
  obtain ⟨r, i'⟩ := q
  cases r with
  | ok u => exact hJ'
  | error b => exact hafter

theorem runCommand {c : LocatedCommand} {cs : Program} (h : i.Confined V bibFiles (c :: cs))
    (ho : i.options = o) (hJ : J log i.machine) (fuel : Nat) :
    Passes J K log (i.commandEvents fuel bibFiles c) (i.runCommand fuel bibFiles c) ∧
      ∀ q, i.runCommand fuel bibFiles c = some q → q.2.options = o := by
  have hwithin : c.command.Within V := h.program c List.mem_cons_self
  have hother : ∀ q, i.runCommand fuel bibFiles c = some q → q.2.options = i.options →
      i.machine.SameOutput q.2.machine →
      Passes J K log [⟨none, i.machine, q.2.machine⟩] (some q) ∧
        ∀ q', some q = some q' → q'.2.options = o := by
    intro q hq hoptions hsame
    refine ⟨w.other h.machine hJ (h.runCommand hV hq) hsame, ?_⟩
    rintro q' ⟨⟩
    exact hoptions.trans ho
  refine Interpreter.command_cases
    (P := fun events end? => Passes J K log events end? ∧ ∀ q, end? = some q → q.2.options = o)
    (fun name hc => ?_) (fun name keys hvisits => ?_) (fun entrySeen rows q hq _ => ?_)
    fun q hq _ hrun => hother q hrun hq.options ⟨hq.pending, hq.sink⟩
  · have hname : V.name name := by
      rw [hc] at hwithin
      exact hwithin
    have htail := h.tail (by rw [Program.abbreviationsAtRead, hc])
    exact ⟨w.runFunction hV htail ho hJ fuel (fun _ hkey => by cases hkey) hname,
      fun q hq => (Interpreter.options_of_runFunction hq).trans ho⟩
  · have hkeys : keys ⊆ i.citations :=
      fun _ hkey => Interpreter.mem_citations_of_visits hvisits hkey
    have htail := h.tail (Interpreter.abbreviationsAtRead_of_visits hvisits _ _)
    exact ⟨w.iterateCommand hV htail ho hJ fuel _ _ (hwithin.name_of_visits hvisits) hkeys,
      fun q hq => (Interpreter.options_of_iterateCommand hq).trans ho⟩
  · obtain ⟨hoptions, hsame⟩ :=
      ({ i with entrySeen := entrySeen } : Interpreter).sameOutput_of_withDeclared rows
    rw [hq] at hoptions hsame
    exact fun hrun => hother q hrun hoptions hsame

/-- **What is watched is seen in every command.** -/
theorem runCommands {p : Program} (h : i.Confined V bibFiles p) (ho : i.options = o)
    (hJ : J log i.machine) (fuel : Nat) :
    Passes J K log (Interpreter.commandsEvents fuel bibFiles p i)
        (Interpreter.runCommands fuel bibFiles p i) ∧
      ∀ i', Interpreter.runCommands fuel bibFiles p i = some (.ok (), i') → i'.options = o := by
  induction p generalizing i log with
  | nil =>
    refine ⟨⟨List.forall_mem_nil _, ?_⟩, ?_⟩
    · simpa [Interpreter.commandsEvents, Interpreter.runCommands_nil, EndsWatched] using hJ
    · rintro i' ⟨⟩
      exact ho
  | cons c cs ih =>
    obtain ⟨hfirst, ho'⟩ := w.runCommand hV h ho hJ fuel
    rw [Interpreter.commandsEvents, Interpreter.runCommands_cons]
    cases hrun : i.runCommand fuel bibFiles c with
    | none => exact ⟨⟨by simpa using hfirst.moments, trivial⟩, fun _ hi => by cases hi⟩
    | some q =>
      rw [hrun] at hfirst
      obtain ⟨r, i'⟩ := q
      cases r with
      | error b => exact ⟨⟨by simpa using hfirst.moments, hfirst.ends⟩, fun _ hi => by cases hi⟩
      | ok u =>
        -- what is left of the style is watched behind the events of this command
        obtain ⟨hrest, ho''⟩ := ih (h.runCommand hV hrun) (ho' _ hrun) hfirst.ends
        refine ⟨⟨List.forall_mem_append.2 ⟨hfirst.moments, hrest.moments⟩, ?_⟩, ho''⟩
        have hends := hrest.ends
        rw [List.append_assoc] at hends
        exact hends

end Watch

/-! ## Vocabularies at every moment -/

/-- The machine is watched for what it says. -/
theorem watch_within (V : Vocabulary) (o : Options) : Watch V o (fun _ _ => True) (·.Within V) where
  moment _ _ hm := hm
  quiet _ _ _ := trivial
  write _ _ _ := trivial
  newline _ _ _ := trivial
  refused _ _ hm _ := hm

/-- **A style that says nothing outside a vocabulary leaves it at no moment.** -/
theorem Interpreter.Confined.history {V : Vocabulary} (hV : V.Closed) {i : Interpreter}
    {p : Program} {citations bibFiles : List Text}
    (h : ({ i with citations := citations } : Interpreter).Confined V bibFiles p) (fuel : Nat) :
    ∀ e ∈ i.history fuel p citations bibFiles, e.before.Within V ∧ e.after.Within V := by
  have hpasses : Passes (fun _ _ => True) (·.Within V) []
      (Interpreter.commandsEvents fuel bibFiles p { i with citations := citations })
      (Interpreter.runCommands fuel bibFiles p { i with citations := citations }) :=
    ((watch_within V i.options).runCommands hV h rfl trivial fuel).1
  have hcommands := hpasses.moments
  rw [Interpreter.history]
  cases hrun : Interpreter.runCommands fuel bibFiles p { i with citations := citations } with
  | none => simpa using hcommands
  | some q =>
    have hends := h.runCommands hV hrun
    obtain ⟨r, i'⟩ := q
    cases r with
    | error e => simpa using hcommands
    | ok u =>
      have hflush := Interpreter.Confined.flush hV hends
      exact List.forall_mem_append.2
        ⟨hcommands, List.forall_mem_singleton.2 ⟨hends.machine, hflush.machine⟩⟩

/-! ## Histories of styles have no gaps -/

namespace Interpreter

/-- The events lead from a machine to that of the end, if there is one. -/
def LeadsFrom (m : Machine) (events : List Event)
    (end? : Option (Except Fault Unit × Interpreter)) : Prop :=
  ∃ m', Tale.Linked m events m' ∧ ∀ q, end? = some q → q.2.machine = m'

theorem leadsFrom_of_linked {m : Machine} {events : List Event}
    {q : Except Fault Unit × Interpreter} (h : Tale.Linked m events q.2.machine) :
    LeadsFrom m events (some q) := by
  refine ⟨q.2.machine, h, fun q' hq => ?_⟩
  rw [Option.some.inj hq]

section Steps

variable {m : Machine} {events rest : List Event} {i : Interpreter} {r r' : Except Fault Unit}

/-- Nothing leads on from a step that does not end. -/
theorem LeadsFrom.unfinished (h : LeadsFrom m events none) : LeadsFrom m (events ++ []) none := by
  rw [List.append_nil]
  exact h

/-- A step can be the last one, whatever its fault tells of. -/
theorem LeadsFrom.last (h : LeadsFrom m events (some (r, i))) :
    LeadsFrom m (events ++ []) (some (r', i)) := by
  obtain ⟨m', hlinked, hends⟩ := h
  obtain rfl := hends _ rfl
  rw [List.append_nil]
  exact leadsFrom_of_linked hlinked

theorem LeadsFrom.append {end? : Option (Except Fault Unit × Interpreter)}
    (h : LeadsFrom m events (some (r, i))) (h' : LeadsFrom i.machine rest end?) :
    LeadsFrom m (events ++ rest) end? := by
  obtain ⟨m', hlinked, hends⟩ := h
  obtain rfl := hends _ rfl
  obtain ⟨m'', hlinked', hends'⟩ := h'
  exact ⟨m'', hlinked.append hlinked', hends'⟩

end Steps

theorem leadsFrom_functionEvents (fuel : Nat) (i : Interpreter) (current : Option Text)
    (name : Text) : LeadsFrom i.machine (i.functionEvents fuel current name)
      (i.runFunction fuel current name) := by
  obtain ⟨m', hlinked, hends⟩ := Tale.leads_ofName fuel name (i.scene current) i.machine
  refine ⟨m', hlinked, fun q hq => ?_⟩
  rw [Tale.run_ofName] at hends
  rw [runFunction] at hq
  split at hq
  · cases hq
  · next f m hfailed =>
    rw [hfailed] at hends
    cases hq
    exact hends
  · next m hdone =>
    rw [hdone] at hends
    cases hq
    exact hends

theorem leadsFrom_iterateEvents (fuel : Nat) (word : String) (span : SourceSpan) (name : Text)
    (keys : List Text) (i : Interpreter) :
    LeadsFrom i.machine (iterateEvents fuel name keys i) (i.iterate fuel word span name keys) := by
  induction keys generalizing i with
  | nil => exact leadsFrom_of_linked rfl
  | cons key keys ih =>
    have hfirst := leadsFrom_functionEvents fuel i (some key) name
    rw [iterateEvents, iterate_cons]
    cases hfunction : i.runFunction fuel (some key) name with
    | none => exact (hfunction ▸ hfirst).unfinished
    | some q =>
      obtain ⟨r, i'⟩ := q
      rw [hfunction] at hfirst
      cases r with
      | error f => exact hfirst.last
      | ok u => exact hfirst.append (ih i')

theorem leadsFrom_iterateCommandEvents (fuel : Nat) (i : Interpreter) (word : String)
    (span : SourceSpan) (name : Text) (keys : List Text) :
    LeadsFrom i.machine (i.iterateCommandEvents fuel name keys)
      (i.iterateCommand fuel word span name keys) := by
  rw [iterateCommandEvents, iterateCommand_eq]
  split
  · exact leadsFrom_of_linked rfl
  · split
    · exact leadsFrom_of_linked rfl
    · exact leadsFrom_iterateEvents fuel word span name keys i

theorem leadsFrom_commandEvents (fuel : Nat) (bibFiles : List Text) (i : Interpreter)
    (c : LocatedCommand) : LeadsFrom i.machine (i.commandEvents fuel bibFiles c)
      (i.runCommand fuel bibFiles c) :=
  command_cases (fun name _ => leadsFrom_functionEvents fuel i none name)
    (fun name keys _ => leadsFrom_iterateCommandEvents fuel i _ _ name keys)
    (fun _ _ _ _ _ _ => leadsFrom_of_linked ⟨rfl, rfl⟩)
    fun _ _ _ _ => leadsFrom_of_linked ⟨rfl, rfl⟩

theorem leadsFrom_commandsEvents (fuel : Nat) (bibFiles : List Text) (p : Program)
    (i : Interpreter) : LeadsFrom i.machine (commandsEvents fuel bibFiles p i)
      (runCommands fuel bibFiles p i) := by
  induction p generalizing i with
  | nil => exact leadsFrom_of_linked rfl
  | cons c cs ih =>
    have hfirst := leadsFrom_commandEvents fuel bibFiles i c
    rw [commandsEvents, runCommands_cons]
    cases hcommand : i.runCommand fuel bibFiles c with
    | none => exact (hcommand ▸ hfirst).unfinished
    | some q =>
      obtain ⟨r, i'⟩ := q
      rw [hcommand] at hfirst
      cases r with
      | error b => exact hfirst.last
      | ok u => exact hfirst.append (ih i')

/-- **The history of a style leads from the machine at its start to that at its end**, each event
being one on the machine that the event before it left. -/
theorem leadsFrom_history (fuel : Nat) (i : Interpreter) (p : Program)
    (citations bibFiles : List Text) :
    LeadsFrom i.machine (i.history fuel p citations bibFiles)
      (i.run fuel p citations bibFiles) := by
  have hcommands := leadsFrom_commandsEvents fuel bibFiles p { i with citations := citations }
  rw [history, run]
  cases hrun : runCommands fuel bibFiles p { i with citations := citations } with
  | none => exact (hrun ▸ hcommands).unfinished
  | some q =>
    obtain ⟨r, i'⟩ := q
    rw [hrun] at hcommands
    cases r with
    | error e => exact hcommands.last
    | ok u =>
      have hflush : Tale.Linked i'.machine [i'.flushEvent] i'.flush.2.machine := ⟨rfl, rfl⟩
      exact hcommands.append (leadsFrom_of_linked hflush)

end Interpreter

end Bibliography.Style
