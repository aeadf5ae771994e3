import Bibliography.Proofs.Run.Chronicle
import Bibliography.Proofs.Run.Locality
import Bibliography.Proofs.Run.Scope

set_option autoImplicit false

/-! # References that hold

A reference lies on the stack until it is used, perhaps in another function, after other commands or
after a run that failed. This file shows that it never leads nowhere: between functions names are
declared, but none is ever lost, not even by a declaration that fails half-way. So a machine that is
well-scoped (`Machine.WellScoped`) stays so from command to command and from run to run
(`Ran.wellScoped`), and the scope only grows.

If a name is found undefined, it is one that a style says, in the body of a function or in a command
that runs one (`Program.Mentions`).

Main statement: `references_hold`.
-/

namespace Bibliography.Style

/-! ## What styles mention -/

def Command.Mentions (name : Text) : Command → Prop
  | .function _ body => Token.AnyMentions body name
  | .execute n | .iterate n | .reverse n => n = name
  | .entry _ _ _ | .integers _ | .strings _ | .abbreviation _ _ | .read | .sort => False

def Program.Mentions (name : Text) (p : Program) : Prop := ∃ c ∈ p, c.command.Mentions name

def MentionedIn (ps : List Program) (name : Text) : Prop := ∃ p ∈ ps, Program.Mentions name p

theorem MentionedIn.cons {ps : List Program} {name : Text} (h : MentionedIn ps name)
    (p : Program) : MentionedIn (p :: ps) name := by
  obtain ⟨q, hq, hmentions⟩ := h
  exact ⟨q, List.mem_cons_of_mem _ hq, hmentions⟩

theorem Program.within_mentionedIn {ps : List Program} {p : Program} (hp : p ∈ ps) :
    p.Within (.ofNames (MentionedIn ps)) := by
  intro c hc
  have hmentions : ∀ name, c.command.Mentions name → MentionedIn ps name :=
    fun name h => ⟨p, hp, c, hc, h⟩
  cases hcommand : c.command with
  | function _ body =>
    rw [hcommand] at hmentions
    exact allWithin_of_mentions (fun _ => trivial) hmentions
  | execute name | iterate name | reverse name =>
    rw [hcommand] at hmentions
    exact hmentions name rfl
  | entry _ _ _ | integers _ | strings _ | abbreviation _ _ | read | sort => trivial

theorem Token.allWithin_any (ts : List Token) : Token.AllWithin (.ofNames fun _ => True) ts :=
  allWithin_of_mentions (fun _ => trivial) fun _ _ => trivial

theorem Token.AllWithin.mono {said said' : Text → Prop} (h : ∀ name, said name → said' name)
    {ts : List Token} (hts : Token.AllWithin (.ofNames said) ts) :
    Token.AllWithin (.ofNames said') ts := by
  intro t ht
  have hwithin := hts t ht
  cases t with
  | name n | quoted n => exact h n hwithin
  | integer _ | string _ | block _ => trivial

/-! ## Machines that are well-scoped -/

def Machine.scope (said : Text → Prop) (m : Machine) : Scope := ⟨m.bindings.names, said⟩

/-- A machine whose references are to names that it binds, and whose functions say only certain
names. -/
def Machine.WellScoped (said : Text → Prop) (m : Machine) : Prop := m.Scoped (m.scope said)

variable {said said' : Text → Prop}

namespace Machine

variable {m m' : Machine}

/-- The scope in which a machine is well-scoped is that of its names. -/
theorem Scoped.scope_eq {Γ : Scope} (h : m.Scoped Γ) : m.scope Γ.said = Γ := by
  rw [scope, h.names]

theorem Scoped.wellScoped {Γ : Scope} (h : m.Scoped Γ) : m.WellScoped Γ.said := by
  rw [WellScoped, h.scope_eq]
  exact h

/-- A machine with more names and functions is as well-scoped as the one before. -/
theorem WellScoped.grow (h : m.WellScoped said) (hsaid : ∀ name, said name → said' name)
    (hstack : m'.stack = m.stack) (hnames : m.bindings.names ⊆ m'.bindings.names)
    (hbodies : ∀ name body, m'.bindings.get? name = some (.function body) →
      Token.AllWithin (.ofNames said') body) : m'.WellScoped said' := by
  refine ⟨rfl, ?_, hbodies⟩
  rw [hstack]
  intro v hv
  have hscoped := h.stack v hv
  cases v with
  | reference name => exact hnames hscoped
  | function body => exact hscoped.mono hsaid
  | integer _ | string _ | missing _ => trivial

theorem WellScoped.mono (h : m.WellScoped said) (hsaid : ∀ name, said name → said' name) :
    m.WellScoped said' :=
  h.grow hsaid rfl (List.Subset.refl _) fun name body hbody =>
    (h.bodies name body hbody).mono hsaid

theorem WellScoped.of_spares {i j : Interpreter} (h : i.machine.WellScoped said)
    (hspares : i.Spares j) : j.machine.WellScoped said := by
  refine h.grow (fun _ hname => hname) hspares.stack ?_ ?_
  · rw [hspares.bindings]
    exact List.Subset.refl _
  · rw [hspares.bindings]
    exact h.bodies

end Machine

/-- The machines before and after an event are well-scoped. -/
structure Event.WellScoped (said : Text → Prop) (e : Event) : Prop where
  before : e.before.WellScoped said
  after : e.after.WellScoped said

namespace Interpreter

def EndsWellScoped (said : Text → Prop) : Except Fault Unit × Interpreter → Prop
  | (r, i) => i.machine.WellScoped said ∧ ∀ f, r = .error f → f.Scoped (i.machine.scope said)

variable {fuel : Nat} {bibFiles : List Text} {i : Interpreter}

/-- At the start nothing lies on the stack and no function is defined. -/
theorem wellScoped_fresh (said : Text → Prop) (options : Options) (source : Source)
    (answers : SinkAnswers) : (fresh options source answers).machine.WellScoped said := by
  refine ⟨rfl, List.forall_mem_nil _, fun name body hbody => ?_⟩
  obtain ⟨c, -, hb⟩ | ⟨n, hb⟩ | hb := eq_of_initialBindings hbody <;> cases hb

theorem ends_ok (h : i.machine.WellScoped said) : EndsWellScoped said (.ok (), i) := by
  refine ⟨h, ?_⟩
  rintro _ ⟨⟩

theorem ends_error {f : Fault} (h : i.machine.WellScoped said)
    (hf : f.Scoped (i.machine.scope said)) : EndsWellScoped said (.error f, i) := by
  refine ⟨h, ?_⟩
  rintro _ ⟨⟩
  exact hf

/-- A command that fails for another reason than an undefined name. -/
theorem ends_error_other {f : Fault} (h : i.machine.WellScoped said)
    (hf : f.isUndefinedName = false) : EndsWellScoped said (.error f, i) :=
  ends_error h (.of_isUndefinedName hf)

/-- A fault finds the same name undefined, whatever command and entry it tells of. -/
theorem ends_within {f : Fault} (h : EndsWellScoped said (.error f, i)) (command : String)
    (key : Option Text) (span : SourceSpan) :
    EndsWellScoped said (.error (f.within command key span), i) := by
  refine ends_error h.1 fun name hname => ?_
  rw [Fault.root_within] at hname
  exact h.2 f rfl name hname

/-! ### Declarations -/

/-- Declaring names loses none, even if it fails. -/
theorem subset_names_declare (binding : Binding) (names : List Text) (t : Table Binding) :
    t.names ⊆ (declare binding names t).1.names := by
  induction names generalizing t with
  | nil => exact List.Subset.refl _
  | cons name names ih =>
    rw [declare]
    split
    · exact List.Subset.refl _
    · refine List.Subset.trans ?_ (ih _)
      rw [Table.names_set]
      split
      · exact List.Subset.refl _
      · exact List.subset_append_left _ _

theorem subset_names_declareAll (rows : List (Binding × List Text)) (t : Table Binding) :
    t.names ⊆ (declareAll rows t).1.names := by
  induction rows generalizing t with
  | nil => exact List.Subset.refl _
  | cons row rows ih =>
    obtain ⟨binding, names⟩ := row
    have hnames := subset_names_declare binding names t
    rw [declareAll]
    split
    · next heq =>
      rw [heq] at hnames
      exact hnames
    · next heq =>
      rw [heq] at hnames
      exact List.Subset.trans hnames (ih _)

/-- Declaring functions that say only certain names keeps machines well-scoped. -/
theorem ends_withDeclared (h : i.machine.WellScoped said)
    {rows : List (Binding × List Text)}
    (hrows : ∀ row ∈ rows, ∀ body, row.1 = .function body → Token.AllWithin (.ofNames said) body) :
    EndsWellScoped said (i.withDeclared rows) := by
  -- the names before the first that is there are declared even if the declaration fails
  have hbodies := bindings_of_declareAll
    (P := fun _ b => ∀ body, b = .function body → Token.AllWithin (.ofNames said) body)
    (fun row hrow _ _ => hrows row hrow)
    (fun name b hb body hbody => h.bodies name body (hbody ▸ hb))
  have hnames := subset_names_declareAll rows i.machine.bindings
  rw [withDeclared]
  cases hdeclared : declareAll rows i.machine.bindings with
  | mk bindings fault? =>
    rw [hdeclared] at hbodies hnames
    have hmachine : ({ i.machine with bindings := bindings } : Machine).WellScoped said :=
      h.grow (fun _ hname => hname) rfl hnames fun name body hbody => hbodies name _ hbody body rfl
    cases fault? with
    | none => exact ends_ok hmachine
    | some f =>
      obtain ⟨name, rfl⟩ := fault_of_declareAll (congrArg Prod.snd hdeclared)
      exact ends_error_other hmachine rfl

/-! ### Functions -/

/-- A function that runs keeps the machine well-scoped at every moment. -/
theorem wellScoped_function (h : i.machine.WellScoped said) (current : Option Text) {name : Text}
    (hname : said name) :
    (∀ e ∈ i.functionEvents fuel current name, e.WellScoped said) ∧
      ∀ q, i.runFunction fuel current name = some q → EndsWellScoped said q := by
  have htale : (Tale.ofName fuel name).Scoped (i.machine.scope said) Anything :=
    Tale.Scoped.judgement.ofName fuel (Or.inr hname)
  obtain ⟨hevents, hends⟩ := htale (i.scene current) i.machine h
  rw [Tale.run_ofName] at hends
  refine ⟨fun e he => ⟨(hevents e he).before.wellScoped, (hevents e he).after.wellScoped⟩,
    fun q hq => ?_⟩
  rw [runFunction] at hq
  split at hq
  · cases hq
  · next f m hfailed =>
    rw [hfailed] at hends
    cases hq
    exact ends_error hends.1.wellScoped (hends.1.scope_eq ▸ hends.2)
  · next m hdone =>
    rw [hdone] at hends
    cases hq
    exact ends_ok hends.1.wellScoped

theorem wellScoped_iterate (h : i.machine.WellScoped said) (word : String) (span : SourceSpan)
    {name : Text} (hname : said name) (keys : List Text) :
    (∀ e ∈ iterateEvents fuel name keys i, e.WellScoped said) ∧
      ∀ q, i.iterate fuel word span name keys = some q → EndsWellScoped said q := by
  refine along_iterate (I := fun j => j.machine.WellScoped said) (fun _ hj => ends_ok hj)
    (fun j key _ hj => ?_) h
  obtain ⟨hevents, hends⟩ : (∀ e ∈ j.functionEvents fuel (some key) name, e.WellScoped said) ∧ _ :=
    wellScoped_function hj (some key) hname
  exact ⟨hevents, fun _ hrun => (hends _ hrun).1, fun _ _ hrun => ends_within (hends _ hrun) _ _ _⟩

/-- The name of an iteration is looked up before there is any entry for which to run it. -/
theorem wellScoped_iterateCommand (h : i.machine.WellScoped said) (word : String)
    (span : SourceSpan) {name : Text} (hname : said name) (keys : List Text) :
    (∀ e ∈ i.iterateCommandEvents fuel name keys, e.WellScoped said) ∧
      ∀ q, i.iterateCommand fuel word span name keys = some q → EndsWellScoped said q := by
  rw [iterateCommandEvents, iterateCommand_eq]
  split
  · refine ⟨List.forall_mem_nil _, ?_⟩
    rintro q ⟨⟩
    exact ends_error_other h rfl
  · split
    · next hunbound =>
      refine ⟨List.forall_mem_nil _, ?_⟩
      rintro q ⟨⟩
      refine ends_error h ?_
      rintro _ ⟨⟩
      refine ⟨hname, fun hbound => ?_⟩
      rw [(Table.contains_iff_mem_names _ _).2 hbound] at hunbound
      cases hunbound
    · exact wellScoped_iterate h word span hname keys

/-! ### Commands -/

/-- **A command keeps the machine well-scoped at every moment.** -/
theorem wellScoped_command (h : i.machine.WellScoped said) {c : LocatedCommand}
    (hc : c.command.Within (.ofNames said)) :
    (∀ e ∈ i.commandEvents fuel bibFiles c, e.WellScoped said) ∧
      ∀ q, i.runCommand fuel bibFiles c = some q → EndsWellScoped said q := by
  have one : ∀ q : Except Fault Unit × Interpreter, EndsWellScoped said q →
      (∀ e ∈ [⟨none, i.machine, q.2.machine⟩], Event.WellScoped said e) ∧
        ∀ q', some q = some q' → EndsWellScoped said q' := by
    intro q hends
    refine ⟨List.forall_mem_singleton.2 ⟨h, hends.1⟩, ?_⟩
    rintro q' ⟨⟩
    exact hends
  refine command_cases (P := fun events end? => (∀ e ∈ events, Event.WellScoped said e) ∧
      ∀ q, end? = some q → EndsWellScoped said q)
    (fun name hname => wellScoped_function h none ?_)
    (fun name keys hvisits => wellScoped_iterateCommand h _ _ (hc.name_of_visits hvisits) keys)
    (fun entrySeen rows q hq hrows _ => one q ?_) fun q hq hend _ => one q ?_
  · rw [hname] at hc
    exact hc
  · have hseen : ({ i with entrySeen := entrySeen } : Interpreter).machine.WellScoped said := h
    rw [← hq]
    refine ends_withDeclared hseen fun row hrow body hbody => ?_
    obtain ⟨name, hname⟩ := hrows row hrow body hbody
    rw [hname] at hc
    exact hc
  · obtain ⟨r, j⟩ := q
    have hj : j.machine.WellScoped said := h.of_spares hq
    cases hend with
    | done => exact ends_ok hj
    | misplaced _ | unread _ => exact ends_error_other hj rfl

theorem wellScoped_commands (h : i.machine.WellScoped said) {p : Program}
    (hp : p.Within (.ofNames said)) (fuel : Nat) (bibFiles : List Text) :
    (∀ e ∈ commandsEvents fuel bibFiles p i, e.WellScoped said) ∧
      ∀ q, runCommands fuel bibFiles p i = some q → EndsWellScoped said q := by
  -- what is left of the style says only these names too
  refine along_commands
    (I := fun p j => j.machine.WellScoped said ∧ Program.Within (.ofNames said) p)
    (fun _ hj => ends_ok hj.1) ?_ ⟨h, hp⟩
  rintro c cs j ⟨hj, hcs⟩
  obtain ⟨hc, hcs⟩ := List.forall_mem_cons.1 hcs
  obtain ⟨hevents, hends⟩ := wellScoped_command hj hc
  exact ⟨hevents, fun j' hrun => ⟨(hends _ hrun).1, hcs⟩,
    fun _ _ hrun => ends_within (hends _ hrun) _ _ _⟩

/-- Finishing the last line looks up no name. -/
theorem wellScoped_flush (h : i.machine.WellScoped said) :
    EndsWellScoped said i.flush := by
  have hline := Run.Scoped.newline (i.scene none) i.machine h
  rw [flush]
  split
  · exact ends_ok h
  · split
    · next m hdone =>
      rw [hdone] at hline
      exact ends_ok hline.1.wellScoped
    · next f m hfailed =>
      rw [hfailed] at hline
      exact ends_error hline.1.wellScoped (hline.1.scope_eq ▸ hline.2)
    · exact ends_ok h

/-- **A style keeps the machine well-scoped at every moment and at its end.** -/
theorem wellScoped_run (h : i.machine.WellScoped said) {p : Program} (hp : p.Within (.ofNames said))
    (fuel : Nat) (citations bibFiles : List Text) :
    (∀ e ∈ i.history fuel p citations bibFiles, e.WellScoped said) ∧
      ∀ q, i.run fuel p citations bibFiles = some q →
        EndsWellScoped said q := by
  have hstart : ({ i with citations := citations } : Interpreter).machine.WellScoped said := h
  refine along_run (wellScoped_commands hstart hp fuel bibFiles) fun j hj => ?_
  have hflush := wellScoped_flush hj.1
  exact ⟨⟨hj.1, hflush.1⟩, hflush⟩

end Interpreter

/-! ## What can be relied on -/

def Machine.RefersToBound (m : Machine) : Prop :=
  ∀ name, .reference name ∈ m.stack → m.bindings.contains name = true

/-- The references on the stack, and those that functions put there, lead somewhere. -/
structure Machine.Reliable (m : Machine) : Prop where
  bound : m.RefersToBound
  /-- Whatever function without a name runs, at every moment references are to bound names. -/
  literal : ∀ fuel body s, ∀ e ∈ (runTokens (Tale.ofName fuel) body).history s m,
    e.before.RefersToBound ∧ e.after.RefersToBound
  /-- The name to assign to is taken from the stack, and it is not found undefined. -/
  assign : ∀ s name m', Run.assign s m ≠ .failed (.undefinedName name) m'
  /-- A reference may be taken from the stack and run at a later moment of a function. -/
  call : ∀ name, .reference name ∈ m.stack → ∀ current m', Machine.Reaches current m m' →
    m'.RefersToBound → ∀ fuel s m'',
      runValue (runName fuel) (.reference name) s m' ≠
        .failed (.undefinedName name) m''

namespace Machine

variable {m m' : Machine}

/-- Where functions may say every name, nothing is asked of them. -/
theorem wellScoped_all_iff : m.WellScoped (fun _ => True) ↔ m.RefersToBound := by
  constructor
  · intro h name hname
    exact (Table.contains_iff_mem_names _ _).2 (h.stack _ hname)
  · intro h
    -- functions may say every name, so only the references are left
    refine ⟨rfl, fun v hv => ?_, fun _ body _ => Token.allWithin_any body⟩
    cases v with
    | reference name => exact (Table.contains_iff_mem_names _ _).1 (h name hv)
    | function body => exact Token.allWithin_any body
    | integer _ | string _ | missing _ => trivial

theorem WellScoped.refersToBound (h : m.WellScoped said) : m.RefersToBound :=
  wellScoped_all_iff.1 (h.mono fun _ _ => trivial)

namespace RefersToBound

variable (h : m.RefersToBound)
include h

theorem literal (fuel : Nat) (body : List Token) (s : Scene) :
    ∀ e ∈ (runTokens (Tale.ofName fuel) body).history s m,
      e.before.RefersToBound ∧ e.after.RefersToBound := by
  have htale : (runTokens (Tale.ofName fuel) body).Scoped (m.scope fun _ => True) Anything :=
    Tale.Scoped.judgement.ofTokens (fun _ => Tale.Scoped.judgement.ofName fuel)
      (Token.allWithin_any body)
  intro e he
  have hevent := (htale s m (wellScoped_all_iff.2 h)).1 e he
  exact ⟨hevent.before.wellScoped.refersToBound, hevent.after.wellScoped.refersToBound⟩

theorem assign (s : Scene) (name : Text) (m' : Machine) :
    Run.assign s m ≠ .failed (.undefinedName name) m' := by
  intro hfailed
  simp only [Run.assign, Run.bind_apply, Run.pop] at hfailed
  cases hstack : m.stack with
  | nil =>
    rw [hstack] at hfailed
    cases hfailed
  | cons target rest =>
    rw [hstack] at hfailed
    cases rest with
    | nil => cases hfailed
    | cons v rest =>
      cases target with
      | reference other =>
        have hbound := h other (hstack ▸ List.mem_cons_self)
        obtain ⟨b, hb⟩ := Option.isSome_iff_exists.1 hbound
        have hset := Run.Scoped.setVariable_of_get? (v := v) (s := s)
          (m := { m with stack := rest }) hb
        obtain ⟨m'', hdone, -⟩ | ⟨f, hother, hf⟩ := hset
        · cases hdone.symm.trans hfailed
        · cases hother.symm.trans hfailed
          cases hf
      | integer _ | string _ | missing _ | function _ => cases hfailed

/-- A name that is bound is not found undefined when it is run. -/
theorem run {name : Text} (hname : m.bindings.contains name = true) (fuel : Nat) (s : Scene)
    (m' : Machine) : runName fuel name s m ≠ .failed (.undefinedName name) m' := by
  intro hfailed
  rw [Table.contains_iff_mem_names] at hname
  have htale : (Tale.ofName fuel name).Scoped (m.scope fun _ => True) Anything :=
    Tale.Scoped.judgement.ofName fuel (Or.inl hname)
  have hends := (htale s m (wellScoped_all_iff.2 h)).2
  rw [Tale.run_ofName, hfailed] at hends
  exact (hends.2 name rfl).2 hname

theorem reliable : m.Reliable where
  bound := h
  literal := h.literal
  assign := h.assign
  call name hname current m' hsteps hm' fuel s m'' := by
    have hbound := h name hname
    -- the steps to the later moment bind the same names
    rw [Table.contains_iff_mem_names, ← (Machine.Reaches.frame hsteps).names,
      ← Table.contains_iff_mem_names] at hbound
    exact run hm' hbound fuel s m''

end RefersToBound

end Machine

/-! ## Run after run -/

/-- The interpreters to which runs of styles lead, one after the other and whatever comes of them.
The style that ran last is the first. -/
inductive Interpreter.Ran (i₀ : Interpreter) : List Program → Interpreter → Prop where
  | start : Ran i₀ [] i₀
  | run {ps : List Program} {i i' : Interpreter} {fuel : Nat} {p : Program}
      {citations bibFiles : List Text} {r : Except Fault Unit} (before : Ran i₀ ps i)
      (h : i.run fuel p citations bibFiles = some (r, i')) : Ran i₀ (p :: ps) i'

open Interpreter

/-- Runs that follow each other leave the machine well-scoped, also those that fail. -/
theorem Interpreter.Ran.wellScoped {options : Options} {source : Source} {answers : SinkAnswers}
    {ps : List Program} {i : Interpreter} (h : (fresh options source answers).Ran ps i) :
    i.machine.WellScoped (MentionedIn ps) := by
  induction h with
  | start => exact wellScoped_fresh _ options source answers
  | @run ps i i' fuel p citations bibFiles r before hrun ih =>
    have hstart := ih.mono fun _ hname => hname.cons p
    have hp : p.Within (.ofNames (MentionedIn (p :: ps))) :=
      Program.within_mentionedIn List.mem_cons_self
    -- the end of a run is well-scoped whether the run succeeded or not
    exact ((wellScoped_run hstart hp fuel citations bibFiles).2 _ hrun).1

/-- **References always lead to names that are bound.** Whatever styles ran on an interpreter and
whatever came of them, and at every moment of one that runs now: the references on the stack are
reliable. If this style finds a name undefined, then it or one of the others mentions that name,
which is not bound at that moment. -/
theorem references_hold {options : Options} {source : Source} {answers : SinkAnswers}
    {ps : List Program} {i : Interpreter} (h : (fresh options source answers).Ran ps i) (fuel : Nat)
    (p : Program) (citations bibFiles : List Text) :
    i.machine.Reliable ∧
      (∀ e ∈ i.history fuel p citations bibFiles, e.before.Reliable ∧ e.after.Reliable) ∧
      ∀ e name i', i.run fuel p citations bibFiles = some (.error e, i') →
        e.root = .undefinedName name →
          MentionedIn (p :: ps) name ∧ i'.machine.bindings.contains name = false := by
  have hstart := h.wellScoped.mono fun _ hname => hname.cons p
  obtain ⟨hevents, hends⟩ :=
    wellScoped_run hstart (Program.within_mentionedIn List.mem_cons_self) fuel citations bibFiles
  refine ⟨hstart.refersToBound.reliable, fun e he => ?_, fun e name i' hrun hfault => ?_⟩
  · have hevent := hevents e he
    exact ⟨hevent.before.refersToBound.reliable, hevent.after.refersToBound.reliable⟩
  · obtain ⟨hmentions, hunbound⟩ := (hends _ hrun).2 e rfl name hfault
    refine ⟨hmentions, ?_⟩
    rw [Bool.eq_false_iff, Ne, Table.contains_iff_mem_names]
    exact hunbound

def Program.failsMidway : Program :=
  [⟨.function "f".toList [.quoted "global.max$".toList, .name "lost".toList],
      ⟨0, .bare 0, .bare 34⟩⟩,
    ⟨.execute "f".toList, ⟨0, .bare 35, .bare 46⟩⟩]

/-- The reference is there after the failure, and the next style can rely on it. -/
theorem references_hold_failsMidway :
    ∃ e i, (fresh {} (.memory .empty) .willing).run 2 Program.failsMidway [] [] =
        some (.error e, i) ∧ e.root = .undefinedName "lost".toList ∧
      i.machine.stack = [.reference "global.max$".toList] ∧ i.machine.Reliable := by
  have hrun : (fresh {} (.memory .empty) .willing).run 2 Program.failsMidway [] [] =
      some (.error (.inCommand "EXECUTE" none ⟨0, .bare 35, .bare 46⟩
        (.undefinedName "lost".toList)), _) := rfl
  exact ⟨_, _, hrun, rfl, rfl, (references_hold (.run .start hrun) 0 [] [] []).1⟩

end Bibliography.Style
