import Bibliography.Proofs.Run.Blame
import Bibliography.Proofs.Run.Changes

set_option autoImplicit false

/-! # Well-ordered styles

Commands are refused when they stand at the wrong place or declare a name that is there already.
Whether that happens is seen in the text of a style (`Program.WellOrdered`), although it is checked
while the style runs, against two flags and a table that functions can get at.

The flags and the names of the table are told by the commands that succeeded
(`Interpreter.Behind`): functions give the variables other values, but declare nothing and refuse no
command (`failsWith_runName_inOrder`). So a command that succeeds behind others fits behind them
(`Command.FitsBehind`), and one that fits is not refused (`runCommand_behind`). Commands that fit
one behind the other are a well-ordered style (`wellOrdered_concat_iff`).

Main statement: `order_checked_by_text`.
-/

namespace Bibliography.Style

/-! ## Order in a style -/

def Command.isEntry : Command → Bool
  | .entry _ _ _ => true
  | _ => false

def Command.isAbbreviation : Command → Bool
  | .abbreviation _ _ => true
  | _ => false

def Command.isRead : Command → Bool
  | .read => true
  | _ => false

def Command.goesThroughEntries : Command → Bool
  | .iterate _ | .reverse _ | .sort => true
  | _ => false

/-- The names that a command declares. What entries have includes a cross reference, said or not. -/
def Command.declares : Command → List Text
  | .entry fields ints texts =>
    fields ++ (if fields.contains "crossref".toList then [] else ["crossref".toList]) ++
      ints ++ texts
  | .integers names | .strings names => names
  | .function name _ => [name]
  | _ => []

namespace Program

def declares (p : Program) : List Text := p.flatMap (·.command.declares)

/-- The database is read by one of the commands. -/
def reads (p : Program) : Bool := p.any (·.command.isRead)

/-- No command of the style is at a wrong place, and no name is declared twice or again. -/
structure WellOrdered (p : Program) : Prop where
  entry_once : p.countP (·.command.isEntry) ≤ 1
  read_once : p.countP (·.command.isRead) ≤ 1
  before_read : ∀ (before : Program) c (after : Program), p = before ++ c :: after →
    c.command.isEntry = true ∨ c.command.isAbbreviation = true → before.reads = false
  after_read : ∀ (before : Program) c (after : Program), p = before ++ c :: after →
    c.command.goesThroughEntries = true → before.reads = true
  distinct : p.declares.Nodup
  builtin : ∀ name ∈ p.declares, ∀ b : Builtin, name ≠ b.name.toList
  given : ∀ name ∈ p.declares,
    name ≠ "global.max$".toList ∧ name ≠ "entry.max$".toList ∧ name ≠ "sort.key$".toList

end Program

/-- A command can stand behind others. -/
structure Command.FitsBehind (before : Program) (c : Command) : Prop where
  entry : c.isEntry = true → before.any (·.command.isEntry) = false
  read : c.isRead = true → before.reads = false
  before_read : c.isEntry = true ∨ c.isAbbreviation = true → before.reads = false
  after_read : c.goesThroughEntries = true → before.reads = true
  names : (initialBindings.names ++ (before.declares ++ c.declares)).Nodup

/-! ## Names that are there from the start -/

theorem mem_names_initialBindings_iff {name : Text} :
    name ∈ initialBindings.names ↔ (∃ b : Builtin, name = b.name.toList) ∨
      name = "global.max$".toList ∨ name = "entry.max$".toList ∨ name = "sort.key$".toList := by
  have hnames : initialBindings.names = Builtin.all.map (·.name.toList) ++
      ["global.max$".toList, "entry.max$".toList, "sort.key$".toList] := by
    rw [initialBindings, Table.names, List.map_append, List.map_map]
    rfl
  rw [hnames, List.mem_append, List.mem_map]
  simp only [Builtin.mem_all, true_and, List.mem_cons, List.not_mem_nil, or_false, eq_comm]

/-- Names are new and different if the table has no name twice when they are behind the others. -/
theorem nodup_append_initialBindings_iff {names : List Text} :
    (initialBindings.names ++ names).Nodup ↔ names.Nodup ∧
      (∀ name ∈ names, ∀ b : Builtin, name ≠ b.name.toList) ∧
      ∀ name ∈ names,
        name ≠ "global.max$".toList ∧ name ≠ "entry.max$".toList ∧ name ≠ "sort.key$".toList := by
  rw [List.nodup_append]
  constructor
  · rintro ⟨-, hdistinct, hnew⟩
    have hnot : ∀ name ∈ names, name ∉ initialBindings.names := fun name hname hold =>
      hnew name hold name hname rfl
    simp only [mem_names_initialBindings_iff, not_or, not_exists] at hnot
    exact ⟨hdistinct, fun name hname => (hnot name hname).1, fun name hname => (hnot name hname).2⟩
  · rintro ⟨hdistinct, hbuiltin, hgiven⟩
    refine ⟨nodup_names_initialBindings, hdistinct, ?_⟩
    rintro name hold _ hname rfl
    rcases mem_names_initialBindings_iff.1 hold with ⟨b, hb⟩ | hold
    · exact hbuiltin name hname b hb
    · obtain ⟨hglobal, hentry, hsort⟩ := hgiven name hname
      rcases hold with hold | hold | hold
      · exact hglobal hold
      · exact hentry hold
      · exact hsort hold

/-! ## Commands that fit one behind the other -/

namespace Program

theorem declares_append (p q : Program) : (p ++ q : Program).declares = p.declares ++ q.declares :=
  List.flatMap_append

theorem reads_append (p q : Program) : (p ++ q : Program).reads = (p.reads || q.reads) :=
  List.any_append

theorem WellOrdered.nil : WellOrdered [] := by
  have hsplit : ∀ (before : Program) c (after : Program), [] ≠ before ++ c :: after := by simp
  exact ⟨Nat.zero_le 1, Nat.zero_le 1, fun before c after h => absurd h (hsplit before c after),
    fun before c after h => absurd h (hsplit before c after), List.nodup_nil,
    List.forall_mem_nil _, List.forall_mem_nil _⟩

/-- The commands in front are well-ordered without those behind them. -/
theorem WellOrdered.of_append {p q : Program} (h : WellOrdered (p ++ q)) : p.WellOrdered := by
  have hsub : ∀ name ∈ p.declares, name ∈ (p ++ q : Program).declares := by
    intro name hname
    rw [declares_append]
    exact List.mem_append_left _ hname
  constructor
  case entry_once => exact Nat.le_trans (List.sublist_append_left p q).countP_le h.entry_once
  case read_once => exact Nat.le_trans (List.sublist_append_left p q).countP_le h.read_once
  case before_read =>
    rintro before c after rfl
    exact h.before_read before c (after ++ q) (by simp)
  case after_read =>
    rintro before c after rfl
    exact h.after_read before c (after ++ q) (by simp)
  case distinct =>
    have hdistinct := h.distinct
    rw [declares_append] at hdistinct
    exact (List.nodup_append.1 hdistinct).1
  case builtin => exact fun name hname => h.builtin name (hsub name hname)
  case given => exact fun name hname => h.given name (hsub name hname)

theorem WellOrdered.nodup {p : Program} (h : p.WellOrdered) :
    (initialBindings.names ++ p.declares).Nodup :=
  nodup_append_initialBindings_iff.2 ⟨h.distinct, h.builtin, h.given⟩

/-- The last command of a row, or one in front of it. -/
theorem concat_eq_split {p before after : Program} {c d : LocatedCommand}
    (h : p ++ [c] = before ++ d :: after) :
    (before = p ∧ d = c) ∨ ∃ more, p = before ++ d :: more := by
  rcases List.eq_nil_or_concat after with rfl | ⟨more, last, rfl⟩
  · obtain ⟨hp, hc⟩ := List.append_inj' h rfl
    exact Or.inl ⟨hp.symm, (List.cons.inj hc).1.symm⟩
  · rw [List.concat_eq_append, ← List.cons_append, ← List.append_assoc] at h
    exact Or.inr ⟨more, (List.append_inj' h rfl).1⟩

theorem countP_concat_le {p : Program} {c : LocatedCommand} {kind : Command → Bool} :
    (p ++ [c]).countP (fun d => kind d.command) ≤ 1 ↔
      p.countP (fun d => kind d.command) ≤ 1 ∧
        (kind c.command = true → p.any (fun d => kind d.command) = false) := by
  have hany : p.any (fun d => kind d.command) = false ↔ p.countP (fun d => kind d.command) = 0 := by
    rw [List.any_eq_false, List.countP_eq_zero]
  rw [List.countP_append, hany]
  by_cases hc : kind c.command = true
  · simp only [List.countP_cons_of_pos (p := fun d : LocatedCommand => kind d.command) hc,
      List.countP_nil, hc, true_implies]
    omega
  · simp only [List.countP_cons_of_neg (p := fun d : LocatedCommand => kind d.command) hc,
      List.countP_nil, hc]
    simp

/-- **A command more leaves a style well-ordered exactly if it fits behind the others.** -/
theorem wellOrdered_concat_iff {before : Program} {c : LocatedCommand} :
    WellOrdered (before ++ [c]) ↔ before.WellOrdered ∧ c.command.FitsBehind before := by
  have hdeclares : (before ++ [c] : Program).declares = before.declares ++ c.command.declares := by
    rw [declares_append]
    exact congrArg _ (List.flatMap_singleton _ _)
  constructor
  · intro h
    have hnames := h.nodup
    rw [hdeclares] at hnames
    exact ⟨h.of_append, (countP_concat_le.1 h.entry_once).2, (countP_concat_le.1 h.read_once).2,
      h.before_read before c [] rfl, h.after_read before c [] rfl, hnames⟩
  · rintro ⟨h, hfits⟩
    have hnames := hfits.names
    rw [← hdeclares] at hnames
    obtain ⟨hdistinct, hbuiltin, hgiven⟩ := nodup_append_initialBindings_iff.1 hnames
    -- a place in the longer style is its last one, or a place of the style in front
    refine ⟨countP_concat_le.2 ⟨h.entry_once, hfits.entry⟩,
      countP_concat_le.2 ⟨h.read_once, hfits.read⟩, fun first d after hsplit => ?_,
      fun first d after hsplit => ?_, hdistinct, hbuiltin, hgiven⟩
    · rcases concat_eq_split hsplit with ⟨rfl, rfl⟩ | ⟨more, rfl⟩
      · exact hfits.before_read
      · exact h.before_read first d more rfl
    · rcases concat_eq_split hsplit with ⟨rfl, rfl⟩ | ⟨more, rfl⟩
      · exact hfits.after_read
      · exact h.after_read first d more rfl

end Program

/-! ## Declarations -/

namespace Interpreter

/-- Names are declared up to the first that is there, so all of them exactly if they are new and
different. -/
theorem declare_eq_none_iff {binding : Binding} {names : List Text} {t : Table Binding}
    (ht : t.names.Nodup) :
    (declare binding names t).2 = none ↔ (t.names ++ names).Nodup := by
  induction names generalizing t with
  | nil =>
    rw [List.append_nil]
    exact ⟨fun _ => ht, fun _ => rfl⟩
  | cons name names ih =>
    rw [declare]
    split
    · next hold =>
      rw [Table.contains_iff_mem_names] at hold
      refine ⟨fun h => ?_, fun h => ?_⟩
      · cases h
      · exact absurd rfl ((List.nodup_append.1 h).2.2 name hold name List.mem_cons_self)
    · next hnew =>
      rw [Table.contains_iff_mem_names] at hnew
      rw [ih (Table.nodup_names_set ht name binding), Table.names_set, if_neg hnew,
        List.append_assoc, List.singleton_append]

theorem names_declare {binding : Binding} {names : List Text} {t : Table Binding}
    (h : (declare binding names t).2 = none) :
    (declare binding names t).1.names = t.names ++ names := by
  induction names generalizing t with
  | nil => exact (List.append_nil _).symm
  | cons name names ih =>
    rw [declare] at h ⊢
    split
    · next hold =>
      rw [if_pos hold] at h
      cases h
    · next hnew =>
      rw [if_neg hnew] at h
      rw [Table.contains_iff_mem_names] at hnew
      rw [ih h, Table.names_set, if_neg hnew, List.append_assoc, List.singleton_append]

theorem declareAll_cons_of_none {row : Binding × List Text} {rows : List (Binding × List Text)}
    {t : Table Binding} (h : (declare row.1 row.2 t).2 = none) :
    declareAll (row :: rows) t = declareAll rows (declare row.1 row.2 t).1 := by
  rw [declareAll]
  generalize declare row.1 row.2 t = declared at h ⊢
  obtain ⟨t', fault?⟩ := declared
  cases h
  rfl

theorem declareAll_cons_ne_none {row : Binding × List Text} {rows : List (Binding × List Text)}
    {t : Table Binding} (h : (declare row.1 row.2 t).2 ≠ none) :
    (declareAll (row :: rows) t).2 ≠ none := by
  rw [declareAll]
  generalize declare row.1 row.2 t = declared at h ⊢
  obtain ⟨t', _ | f⟩ := declared
  · exact absurd rfl h
  · rintro ⟨⟩

/-- Rows of names are declared exactly if all names are new and different, and then all of them. -/
theorem declareAll_spec {rows : List (Binding × List Text)} {t : Table Binding}
    (ht : t.names.Nodup) :
    ((declareAll rows t).2 = none ↔ (t.names ++ rows.flatMap Prod.snd).Nodup) ∧
      ((declareAll rows t).2 = none →
        (declareAll rows t).1.names = t.names ++ rows.flatMap Prod.snd) := by
  induction rows generalizing t with
  | nil =>
    rw [List.flatMap_nil, List.append_nil]
    exact ⟨⟨fun _ => ht, fun _ => rfl⟩, fun _ => rfl⟩
  | cons row rows ih =>
    rw [List.flatMap_cons, ← List.append_assoc]
    -- the other rows are reached only if the names of the first one are new
    by_cases hrow : (declare row.1 row.2 t).2 = none
    · have hnames := names_declare hrow
      have hdistinct : (t.names ++ row.2).Nodup := (declare_eq_none_iff ht).1 hrow
      rw [declareAll_cons_of_none hrow, ← hnames]
      exact ih (hnames ▸ hdistinct)
    · have hrows : (declareAll (row :: rows) t).2 ≠ none := declareAll_cons_ne_none hrow
      refine ⟨⟨fun h => absurd h hrows, fun h => ?_⟩, fun h => absurd h hrows⟩
      exact absurd ((declare_eq_none_iff ht).2 (List.nodup_append.1 h).1) hrow

/-! ## What is checked while a style runs -/

/-- The checks of a command would let it pass. -/
structure Accepts (i : Interpreter) (c : Command) : Prop where
  entry : c.isEntry = true → i.entrySeen = false
  read : c.isRead = true → i.readSeen = false
  before_read : c.isEntry = true ∨ c.isAbbreviation = true → i.readSeen = false
  after_read : c.goesThroughEntries = true → i.readSeen = true
  names : (i.machine.bindings.names ++ c.declares).Nodup

/-- What the checks look at is that of `i` and the command behind it. -/
structure Notes (i : Interpreter) (c : Command) (i' : Interpreter) : Prop where
  entrySeen : i'.entrySeen = (i.entrySeen || c.isEntry)
  readSeen : i'.readSeen = (i.readSeen || c.isRead)
  names : i'.machine.bindings.names = i.machine.bindings.names ++ c.declares

end Interpreter

/-- Whether a fault is that a command is at a wrong place, or declares a name again. -/
def Fault.isOfOrder (f : Fault) : Bool :=
  match f.root with
  | .outOfOrder _ _ _ | .duplicateDeclaration _ => true
  | _ => false

namespace Interpreter

/-- A command that succeeds passed the checks, and is noted. One that fails for its place or for a
name did not pass them. -/
def Judged (i : Interpreter) (c : Command) : Except Fault Unit × Interpreter → Prop
  | (.ok _, i') => i.Accepts c ∧ i.Notes c i'
  | (.error f, _) => f.isOfOrder = true → ¬ i.Accepts c

end Interpreter

/-! ### Functions -/

theorem Fault.isOfOrder_of_isOrdinary {f : Fault} (h : f.isOrdinary = true) :
    f.isOfOrder = false := by
  cases f with
  | outOfOrder _ _ _ | duplicateDeclaration _ | inCommand _ _ _ _ => cases h
  | _ => rfl

theorem Fault.isOfOrder_within (command : String) (key : Option Text) (span : SourceSpan)
    (f : Fault) : (f.within command key span).isOfOrder = f.isOfOrder := by
  rw [isOfOrder, isOfOrder, root_within]

theorem Fault.ne_of_isOfOrder {f : Fault} (h : f.isOfOrder = false) :
    (∀ word why span, f.root ≠ .outOfOrder word why span) ∧
      ∀ name, f.root ≠ .duplicateDeclaration name := by
  rw [isOfOrder] at h
  constructor
  · intro word why span hf
    rw [hf] at h
    cases h
  · intro name hf
    rw [hf] at h
    cases h

/-- The last line is refused for what it says. -/
theorem Fault.OfLine.isOfOrder {f : Fault} (h : f.OfLine) : f.isOfOrder = false := by
  cases h <;> rfl

/-- A run that refuses no command. -/
abbrev Run.InOrder {α : Type} (x : Run α) : Prop :=
  x.FailsWith (fun _ => True) fun f => f.isOfOrder = false

namespace Run.InOrder

theorem currentKey (function : Text) : (Run.currentKey function).InOrder := by
  refine FailsWith.bind (fun _ _ _ _ _ h => by cases h) fun key? => ?_
  cases key? with
  | none => exact FailsWith.fail rfl
  | some key => exact FailsWith.give key

theorem currentEntry (function : Text) : (Run.currentEntry function).InOrder := by
  refine FailsWith.bind (fun _ _ _ _ _ h => by cases h) fun s => ?_
  split
  · exact FailsWith.give _
  · exact FailsWith.fail rfl

theorem closed : Run.Closed @Run.InOrder :=
  FailsWith.closed (fun _ => Fault.isOfOrder_of_isOrdinary) (fun _ => rfl) currentEntry currentKey
    fun _ _ _ => trivial

end Run.InOrder

/-- **A function refuses no command.** -/
theorem failsWith_runName_inOrder (fuel : Nat) (name : Text) : (runName fuel name).InOrder :=
  Run.InOrder.closed.runName fuel name

namespace Interpreter

/-- What the checks look at is the same. -/
structure Unnoted (i i' : Interpreter) : Prop where
  entrySeen : i'.entrySeen = i.entrySeen
  readSeen : i'.readSeen = i.readSeen
  names : i'.machine.bindings.names = i.machine.bindings.names

theorem Unnoted.trans {i i' i'' : Interpreter} (h : i.Unnoted i') (h' : i'.Unnoted i'') :
    i.Unnoted i'' :=
  ⟨h'.entrySeen.trans h.entrySeen, h'.readSeen.trans h.readSeen, h'.names.trans h.names⟩

variable {fuel : Nat} {bibFiles : List Text} {i i' : Interpreter} {r : Except Fault Unit}

/-- A function that runs leaves the flags and the names as they are, and refuses nothing. -/
theorem runFunction_unnoted {current : Option Text} {name : Text}
    (h : i.runFunction fuel current name = some (r, i')) :
    i.Unnoted i' ∧ ∀ f, r = .error f → f.isOfOrder = false := by
  obtain ⟨m, hsteps, rfl⟩ := exists_reaches_of_runFunction h
  refine ⟨⟨rfl, rfl, (Machine.Reaches.frame hsteps).names⟩, ?_⟩
  rintro f rfl
  obtain ⟨m', hfailed, -⟩ := of_runFunction_eq_error h
  exact failsWith_runName_inOrder fuel name _ _ _ _ trivial hfailed

theorem iterate_unnoted {word : String} {span : SourceSpan} {name : Text} {keys : List Text}
    (h : i.iterate fuel word span name keys = some (r, i')) :
    i.Unnoted i' ∧ ∀ f, r = .error f → f.isOfOrder = false := by
  refine iterate_induction (I := i.Unnoted)
    (E := fun end? => ∀ r i', end? = some (r, i') →
      i.Unnoted i' ∧ ∀ f, r = .error f → f.isOfOrder = false)
    ?done ?next ?failed ?unfinished ⟨rfl, rfl, rfl⟩ r i' h
  case done =>
    rintro j hj r i' ⟨⟩
    refine ⟨hj, ?_⟩
    rintro f ⟨⟩
  case next => exact fun j j' key _ hj hrun => hj.trans (runFunction_unnoted hrun).1
  case failed =>
    rintro j j' key f _ hj hrun r i' ⟨⟩
    obtain ⟨hsame, hfault⟩ := runFunction_unnoted hrun
    refine ⟨hj.trans hsame, ?_⟩
    rintro g ⟨⟩
    rw [Fault.isOfOrder_within]
    exact hfault f rfl
  case unfinished =>
    rintro j key _ _ _ r i' ⟨⟩

/-! ### Commands -/

/-- Of a command that may stand anywhere, or anywhere behind the reading, only the names that it
declares are checked. -/
theorem Accepts.of_free {c : Command} (hentry : c.isEntry = false)
    (habbreviation : c.isAbbreviation = false) (hread : c.isRead = false)
    (hafter : c.goesThroughEntries = true → i.readSeen = true)
    (hnames : (i.machine.bindings.names ++ c.declares).Nodup) : i.Accepts c := by
  refine ⟨?_, ?_, ?_, hafter, hnames⟩
  · simp [hentry]
  · simp [hread]
  · simp [hentry, habbreviation]

/-- A command that declares nothing and is not counted leaves no note. -/
theorem judged_of_unnoted {c : Command} (hdistinct : i.machine.bindings.names.Nodup)
    (hentry : c.isEntry = false) (habbreviation : c.isAbbreviation = false)
    (hread : c.isRead = false) (hdeclares : c.declares = [])
    (hafter : c.goesThroughEntries = true → i.readSeen = true) (hsame : i.Unnoted i')
    (hfault : ∀ f, r = .error f → f.isOfOrder = false) : i.Judged c (r, i') := by
  cases r with
  | error b =>
    intro horder
    rw [hfault b rfl] at horder
    cases horder
  | ok u =>
    refine ⟨.of_free hentry habbreviation hread hafter ?_, ?_, ?_, ?_⟩
    · rw [hdeclares, List.append_nil]
      exact hdistinct
    · rw [hentry, Bool.or_false, hsame.entrySeen]
    · rw [hread, Bool.or_false, hsame.readSeen]
    · rw [hdeclares, List.append_nil, hsame.names]

/-- A command that declares names passes if it is at its place and the names are new. -/
theorem judged_withDeclared {c : Command} {i₁ : Interpreter} {rows : List (Binding × List Text)}
    (hdistinct : i.machine.bindings.names.Nodup) (hrows : rows.flatMap Prod.snd = c.declares)
    (hentry : i₁.entrySeen = (i.entrySeen || c.isEntry))
    (hread : i₁.readSeen = (i.readSeen || c.isRead)) (hmachine : i₁.machine = i.machine)
    (hplace : (i.machine.bindings.names ++ c.declares).Nodup → i.Accepts c) :
    i.Judged c (i₁.withDeclared rows) := by
  obtain ⟨hiff, hnames⟩ := @declareAll_spec rows i.machine.bindings hdistinct
  rw [hrows] at hiff hnames
  rw [withDeclared, hmachine]
  generalize declareAll rows i.machine.bindings = declared at hiff hnames
  obtain ⟨bindings, _ | f⟩ := declared
  -- the declaration checks the names itself, so its success says that they are new
  · exact ⟨hplace (hiff.1 rfl), hentry, hread, hnames rfl⟩
  · intro _ haccepts
    cases hiff.2 haccepts.names

theorem judged_iterateCommand {c : Command} {name : Text} {keys : List Text}
    (hdistinct : i.machine.bindings.names.Nodup) (hvisits : i.visits? c = some (name, keys))
    {span : SourceSpan}
    (h : i.iterateCommand fuel c.word span name keys = some (r, i')) : i.Judged c (r, i') := by
  -- the commands that visit entries are neither counted nor declare a name
  have hkind : c.isEntry = false ∧ c.isAbbreviation = false ∧ c.isRead = false ∧
      c.declares = [] ∧ c.goesThroughEntries = true := by
    cases c with
    | iterate _ | reverse _ => exact ⟨rfl, rfl, rfl, rfl, rfl⟩
    | _ => cases hvisits
  obtain ⟨hentry, habbreviation, hread, hdeclares, hgoes⟩ := hkind
  rw [iterateCommand_eq] at h
  split at h
  · next hunread =>
    cases h
    intro _ haccepts
    rw [haccepts.after_read hgoes] at hunread
    cases hunread
  · next hseen =>
    have hafter : c.goesThroughEntries = true → i.readSeen = true := fun _ => by simpa using hseen
    split at h
    · cases h
      intro horder
      cases horder
    · obtain ⟨hsame, hfault⟩ := iterate_unnoted h
      -- the functions that run for the entries cannot get at the flags
      exact judged_of_unnoted hdistinct hentry habbreviation hread hdeclares hafter hsame hfault

theorem judged_read (hdistinct : i.machine.bindings.names.Nodup) (bibFiles : List Text)
    (span : SourceSpan) : i.Judged .read (i.read bibFiles span) := by
  rw [read]
  split
  · next hseen =>
    intro _ haccepts
    rw [haccepts.read rfl] at hseen
    cases hseen
  · next hunread =>
    rw [Bool.not_eq_true] at hunread
    dsimp only
    split
    · intro horder
      cases horder
    · refine ⟨⟨?_, fun _ => hunread, fun _ => hunread, ?_, ?_⟩, ?_, ?_, ?_⟩
      · rintro ⟨⟩
      · rintro ⟨⟩
      · exact (List.append_nil _).symm ▸ hdistinct
      · exact (Bool.or_false _).symm
      · exact (Bool.or_true _).symm
      · exact (List.append_nil _).symm

theorem judged_declareEntries (hdistinct : i.machine.bindings.names.Nodup) (span : SourceSpan)
    (fields ints texts : List Text) :
    i.Judged (.entry fields ints texts) (i.declareEntries span fields ints texts) := by
  rw [declareEntries]
  split
  · next hseen =>
    intro _ haccepts
    rw [haccepts.before_read (Or.inl rfl)] at hseen
    cases hseen
  · next hunread =>
    rw [Bool.not_eq_true] at hunread
    split
    · next hseen =>
      intro _ haccepts
      rw [haccepts.entry rfl] at hseen
      cases hseen
    · next hfirst =>
      rw [Bool.not_eq_true] at hfirst
      refine judged_withDeclared hdistinct ?_ (Bool.or_true _).symm (Bool.or_false _).symm rfl
        fun hnames => ⟨fun _ => hfirst, by rintro ⟨⟩, fun _ => hunread, by rintro ⟨⟩, hnames⟩
      simp only [Command.declares, List.flatMap_cons, List.flatMap_nil, List.append_nil,
        List.append_assoc]

theorem judged_abbreviate (hdistinct : i.machine.bindings.names.Nodup) (span : SourceSpan)
    (name value : Text) : i.Judged (.abbreviation name value) (i.abbreviate span name value) := by
  rw [abbreviate]
  split
  · next hseen =>
    intro _ haccepts
    rw [haccepts.before_read (Or.inr rfl)] at hseen
    cases hseen
  · next hunread =>
    rw [Bool.not_eq_true] at hunread
    refine ⟨⟨?_, ?_, fun _ => hunread, ?_, ?_⟩, ?_, ?_, ?_⟩
    · rintro ⟨⟩
    · rintro ⟨⟩
    · rintro ⟨⟩
    · exact (List.append_nil _).symm ▸ hdistinct
    · exact (Bool.or_false _).symm
    · exact (Bool.or_false _).symm
    · exact (List.append_nil _).symm

/-- **A command passes its checks if it succeeds, and is refused only if it does not pass.** -/
theorem judged_runCommand {c : LocatedCommand} (hdistinct : i.machine.bindings.names.Nodup)
    (h : i.runCommand fuel bibFiles c = some (r, i')) : i.Judged c.command (r, i') := by
  obtain ⟨command, span⟩ := c
  cases command with
  | entry fields ints texts =>
    rw [← Option.some.inj h]
    exact judged_declareEntries hdistinct span fields ints texts
  | integers names | strings names | function name body =>
    rw [runCommand_eq] at h
    rw [← Option.some.inj h]
    exact judged_withDeclared hdistinct (List.flatMap_singleton _ _) (Bool.or_false _).symm
      (Bool.or_false _).symm rfl (.of_free rfl rfl rfl fun h => by cases h)
  | abbreviation name value =>
    rw [← Option.some.inj h]
    exact judged_abbreviate hdistinct span name value
  | read =>
    rw [← Option.some.inj h]
    exact judged_read hdistinct bibFiles span
  | execute name =>
    obtain ⟨hsame, hfault⟩ := runFunction_unnoted h
    exact judged_of_unnoted hdistinct rfl rfl rfl rfl (fun h => by cases h) hsame hfault
  | iterate name => exact judged_iterateCommand hdistinct rfl h
  | reverse name => exact judged_iterateCommand hdistinct rfl h
  | sort =>
    obtain ⟨rfl, hread, rfl⟩ | ⟨rfl, hunread, rfl⟩ := runCommand_sort h
    · refine judged_of_unnoted hdistinct rfl rfl rfl rfl (fun _ => hread) ⟨rfl, rfl, rfl⟩ ?_
      rintro f ⟨⟩
    · intro _ haccepts
      rw [haccepts.after_read rfl] at hunread
      cases hunread

/-! ## Rows of commands -/

/-- The flags and the names of an interpreter are those of the commands behind it. -/
structure Behind (before : Program) (i : Interpreter) : Prop where
  entrySeen : i.entrySeen = before.any (·.command.isEntry)
  readSeen : i.readSeen = before.reads
  names : i.machine.bindings.names = initialBindings.names ++ before.declares

namespace Behind

variable {before : Program} {c : LocatedCommand}

/-- The checks while a style runs are those of its text. -/
theorem accepts_iff (h : i.Behind before) :
    i.Accepts c.command ↔ c.command.FitsBehind before := by
  constructor
  · rintro ⟨hentry, hread, hbefore, hafter, hnames⟩
    rw [h.entrySeen] at hentry
    rw [h.readSeen] at hread hbefore hafter
    rw [h.names, List.append_assoc] at hnames
    exact ⟨hentry, hread, hbefore, hafter, hnames⟩
  · rintro ⟨hentry, hread, hbefore, hafter, hnames⟩
    rw [← h.entrySeen] at hentry
    rw [← h.readSeen] at hread hbefore hafter
    rw [← List.append_assoc, ← h.names] at hnames
    exact ⟨hentry, hread, hbefore, hafter, hnames⟩

theorem concat (h : i.Behind before) (hnotes : i.Notes c.command i') :
    i'.Behind (before ++ [c]) := by
  constructor
  · rw [hnotes.entrySeen, h.entrySeen, List.any_append]
    simp
  · rw [hnotes.readSeen, h.readSeen, Program.reads_append]
    simp [Program.reads]
  · rw [hnotes.names, h.names, Program.declares_append, List.append_assoc]
    simp [Program.declares]

end Behind

/-- Commands that succeed behind a well-ordered style go on with it. -/
theorem behind_of_runCommands {before p : Program} {i i' : Interpreter} (h : i.Behind before)
    (hbefore : before.WellOrdered) (hrun : runCommands fuel bibFiles p i = some (.ok (), i')) :
    i'.Behind (before ++ p) ∧ (before ++ p : Program).WellOrdered := by
  induction p generalizing i before with
  | nil =>
    cases hrun
    rw [List.append_nil]
    exact ⟨h, hbefore⟩
  | cons c p ih =>
    rw [runCommands_cons] at hrun
    split at hrun
    · cases hrun
    · cases hrun
    · next j hfirst =>
      obtain ⟨haccepts, hnotes⟩ := judged_runCommand (h.names ▸ hbefore.nodup) hfirst
      have hconcat := Program.wellOrdered_concat_iff.2 ⟨hbefore, h.accepts_iff.1 haccepts⟩
      have hrest := ih (h.concat hnotes) hconcat hrun
      rwa [List.append_assoc, List.singleton_append] at hrest

end Interpreter

open Interpreter in
/-- **The order of commands is checked by the text of a style.** A style that succeeds is
well-ordered, and one that is well-ordered does not fail because a command is at a wrong place or a
name is declared again, whatever the database and the requested keys are. -/
theorem order_checked_by_text {fuel : Nat} {options : Options} {source : Source}
    {answers : SinkAnswers} {p : Program} {citations bibFiles : List Text}
    {r : Except Fault Unit} {i' : Interpreter}
    (h : (fresh options source answers).run fuel p citations bibFiles = some (r, i')) :
    (r = .ok () → p.WellOrdered) ∧
      (p.WellOrdered → ∀ f, r = .error f →
        (∀ word why span, f.root ≠ .outOfOrder word why span) ∧
          ∀ name, f.root ≠ .duplicateDeclaration name) := by
  have hstart : ({ fresh options source answers with citations := citations } : Interpreter).Behind
      [] := ⟨rfl, rfl, (List.append_nil _).symm⟩
  rw [run] at h
  split at h
  · next j hcommands =>
    obtain ⟨-, hordered⟩ := behind_of_runCommands hstart Program.WellOrdered.nil hcommands
    refine ⟨fun _ => hordered, fun _ f hf => ?_⟩
    have hflush : j.flush = (.error f, i') := (Option.some.inj h).trans (by rw [hf])
    exact Fault.ne_of_isOfOrder (ofLine_of_flush_eq_error hflush).isOfOrder
  · next hends =>
    refine ⟨fun hr => absurd (hr ▸ h) (hends i'), fun hordered f hf => ?_⟩
    rw [hf] at h
    obtain ⟨before, c, after, j, g, rfl, hbefore, hfailed, rfl⟩ :=
      exists_of_runCommands_eq_error h
    -- the commands in front succeeded, so the checks of the one that failed are those of its text
    obtain ⟨hbehind, hfront⟩ := behind_of_runCommands hstart Program.WellOrdered.nil hbefore
    rw [List.nil_append] at hbehind hfront
    have hfits : c.command.FitsBehind before := by
      rw [← List.singleton_append, ← List.append_assoc] at hordered
      exact (Program.wellOrdered_concat_iff.1 hordered.of_append).2
    have hjudged := judged_runCommand (hbehind.names ▸ hfront.nodup) hfailed
    have hfault : g.isOfOrder = false := by
      by_contra horder
      exact hjudged (by simpa using horder) (hbehind.accepts_iff.2 hfits)
    exact Fault.ne_of_isOfOrder (g.isOfOrder_within _ _ _ ▸ hfault)

/-- A style that declares a variable, reads the database and goes through its entries. -/
def Program.inOrder : Program :=
  [⟨.integers ["n".toList], ⟨0, .bare 0, .bare 12⟩⟩, ⟨.read, ⟨0, .bare 13, .bare 17⟩⟩,
    ⟨.iterate "skip$".toList, ⟨0, .bare 18, .bare 32⟩⟩]

open Interpreter in
theorem order_checked_by_text_inOrder :
    ∃ i', (fresh { crossrefOrder := .firstReference } (.memory sampleDatabase) .willing).run 1
        Program.inOrder ["CHILD".toList] [] = some (.ok (), i') ∧ Program.inOrder.WellOrdered := by
  have hrun : (fresh { crossrefOrder := .firstReference } (.memory sampleDatabase) .willing).run 1
      Program.inOrder ["CHILD".toList] [] = some (.ok (), _) := rfl
  exact ⟨_, hrun, (order_checked_by_text hrun).1 rfl⟩

end Bibliography.Style
