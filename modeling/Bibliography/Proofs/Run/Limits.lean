import Bibliography.Proofs.Run.Assignment
import Bibliography.Proofs.Run.References

set_option autoImplicit false

/-! # The predefined limits

`global.max$` and `entry.max$` are integer variables like any other, only that they are there from
the start. So they are no constants: a style that quotes one of them can assign to it, and what it
assigned stays for the styles that run after it (`not_limits_constant`). This file says how far they
can be relied on. At every moment they put an integer on the stack. It changes only where `:=` takes
a reference to the limit and an integer from the stack. As long as no style quotes the limit it does
not change at all, however often styles use it.

Main statement: `limits_hold`.
-/

namespace Bibliography.Style

/-! ## What styles quote -/

/-- A token that is no block quotes a name. -/
def Token.Quotes (name : Text) : Token → Prop
  | .quoted n => n = name
  | .integer _ | .string _ | .name _ | .block _ => False

instance (name : Text) : DecidablePred (Token.Quotes name)
  | .quoted n => inferInstanceAs (Decidable (n = name))
  | .integer _ | .string _ | .name _ | .block _ => .isFalse id

/-- A command quotes a name, in the body of a function or in a block there. -/
def Command.Quotes (name : Text) : Command → Prop
  | .function _ body => ∃ t ∈ Token.leavesAll body, t.Quotes name
  | .entry _ _ _ | .integers _ | .strings _ | .abbreviation _ _ | .read | .sort | .execute _
  | .iterate _ | .reverse _ => False

instance (name : Text) : DecidablePred (Command.Quotes name)
  | .function _ body => inferInstanceAs (Decidable (∃ t ∈ Token.leavesAll body, t.Quotes name))
  | .entry _ _ _ | .integers _ | .strings _ | .abbreviation _ _ | .read | .sort | .execute _
  | .iterate _ | .reverse _ => .isFalse id

def Program.Quotes (name : Text) (p : Program) : Prop := ∃ c ∈ p, c.command.Quotes name

/-- A name that one of the styles quotes. -/
def QuotedIn (ps : List Program) (name : Text) : Prop := ∃ p ∈ ps, Program.Quotes name p

instance (ps : List Program) (name : Text) : Decidable (QuotedIn ps name) :=
  inferInstanceAs (Decidable (∃ p ∈ ps, ∃ c ∈ p, c.command.Quotes name))

theorem QuotedIn.cons {ps : List Program} {name : Text} (h : QuotedIn ps name) (p : Program) :
    QuotedIn (p :: ps) name := by
  obtain ⟨p', hp', hquotes⟩ := h
  exact ⟨p', List.mem_cons_of_mem _ hp', hquotes⟩

def Program.Refers (q : Text → Prop) (p : Program) : Prop :=
  ∀ c ∈ p, ∀ name body, c.command = .function name body → Token.AllRefer q body

theorem Program.refers_quotedIn {ps : List Program} {p : Program} (hp : p ∈ ps) :
    p.Refers (QuotedIn ps) := by
  intro c hc name body hcommand t ht
  cases t with
  | quoted other =>
    refine ⟨p, hp, c, hc, ?_⟩
    rw [hcommand]
    exact ⟨_, ht, rfl⟩
  | integer _ | string _ | name _ | block _ => trivial

namespace Interpreter

variable {q q' : Text → Prop} {x : Text} {n : Int}
variable {fuel : Nat} {bibFiles : List Text} {i : Interpreter}

def EndsGuarded {ε : Type} (q : Text → Prop) (x : Text) (n : Int)
    (end? : Option (Except ε Unit × Interpreter)) : Prop :=
  ∀ r, end? = some r → r.2.machine.Guarded q x n

/-! ## Declarations -/

/-- Declarations leave names alone that are bound. -/
theorem get?_declare {name : Text} {b : Binding} (binding : Binding) (names : List Text)
    {t : Table Binding} (h : t.get? name = some b) :
    (declare binding names t).1.get? name = some b := by
  induction names generalizing t with
  | nil => exact h
  | cons other names ih =>
    rw [declare]
    split
    · exact h
    · next hother =>
      refine ih ?_
      rw [Table.get?_set, if_neg, h]
      rintro rfl
      rw [Table.contains_iff_mem_names] at hother
      exact hother (Table.mem_names_of_get?_eq_some h)

theorem get?_declareAll {name : Text} {b : Binding} (rows : List (Binding × List Text))
    {t : Table Binding} (h : t.get? name = some b) :
    (declareAll rows t).1.get? name = some b := by
  induction rows generalizing t with
  | nil => exact h
  | cons row rows ih =>
    obtain ⟨binding, names⟩ := row
    have hfirst := get?_declare binding names h
    rw [declareAll]
    split
    · next heq =>
      rw [heq] at hfirst
      exact hfirst
    · next heq =>
      rw [heq] at hfirst
      exact ih hfirst

theorem machine_withDeclared (i : Interpreter) (rows : List (Binding × List Text)) :
    (i.withDeclared rows).2.machine =
      { i.machine with bindings := (declareAll rows i.machine.bindings).1 } := by
  rw [withDeclared]
  obtain ⟨bindings, fault?⟩ := declareAll rows i.machine.bindings
  cases fault? <;> rfl

theorem guarded_withDeclared (h : i.machine.Guarded q x n) {rows : List (Binding × List Text)}
    (hrows : ∀ row ∈ rows, ∀ body, row.1 = .function body → Token.AllRefer q body) :
    Event.Guarded q x n ⟨none, i.machine, (i.withDeclared rows).2.machine⟩ := by
  rw [machine_withDeclared]
  obtain ⟨k, hk, hvalue⟩ := h.value
  have hafter := get?_declareAll rows hk
  have hbodies := bindings_of_declareAll
    (P := fun _ b => ∀ body, b = .function body → Token.AllRefer q body)
    (fun row hrow _ _ => hrows row hrow)
    (fun name b hb body hbody => h.bodies name body (hbody ▸ hb))
  refine ⟨h, ⟨h.stack, fun name body hbody => hbodies name _ hbody body rfl, k, hafter, hvalue⟩,
    ?_, fun _ => hafter.trans hk.symm⟩
  rintro _ ⟨⟨⟩, -⟩

/-! ## Functions -/

theorem guarded_function (h : i.machine.Guarded q x n) (current : Option Text) (name : Text) :
    (∀ e ∈ i.functionEvents fuel current name, e.Guarded q x n) ∧
      EndsGuarded q x n (i.runFunction fuel current name) := by
  obtain ⟨hevents, hends⟩ :=
    (Tale.Guarded.judgement.ofName fuel trivial) (i.scene current) i.machine h
  rw [Tale.run_ofName] at hends
  refine ⟨hevents, ?_⟩
  rw [runFunction]
  cases hrun : runName fuel name (i.scene current) i.machine with
  | done u m =>
    rw [hrun] at hends
    rintro r ⟨⟩
    exact hends.1
  | failed f m =>
    rw [hrun] at hends
    rintro r ⟨⟩
    exact hends.1
  | unfinished => rintro r ⟨⟩

theorem guarded_iterate (h : i.machine.Guarded q x n) (word : String) (span : SourceSpan)
    (name : Text) (keys : List Text) :
    (∀ e ∈ iterateEvents fuel name keys i, e.Guarded q x n) ∧
      EndsGuarded q x n (i.iterate fuel word span name keys) := by
  refine along_iterate (I := fun j => j.machine.Guarded q x n) (fun _ => id)
    (fun j key _ hj => ?_) h
  obtain ⟨hevents, hends⟩ : (∀ e ∈ j.functionEvents fuel (some key) name, e.Guarded q x n) ∧ _ :=
    guarded_function hj (some key) name
  exact ⟨hevents, fun _ hrun => hends _ hrun, fun f j' hrun => hends (.error f, j') hrun⟩

theorem guarded_iterateCommand (h : i.machine.Guarded q x n) (word : String) (span : SourceSpan)
    (name : Text) (keys : List Text) :
    (∀ e ∈ i.iterateCommandEvents fuel name keys, e.Guarded q x n) ∧
      EndsGuarded q x n (i.iterateCommand fuel word span name keys) := by
  rw [iterateCommandEvents, iterateCommand_eq]
  split
  · refine ⟨List.forall_mem_nil _, ?_⟩
    rintro r ⟨⟩
    exact h
  · split
    · refine ⟨List.forall_mem_nil _, ?_⟩
      rintro r ⟨⟩
      exact h
    · exact guarded_iterate h word span name keys

/-! ## Commands -/

theorem guarded_command (h : i.machine.Guarded q x n) {c : LocatedCommand}
    (hc : ∀ name body, c.command = .function name body → Token.AllRefer q body) :
    (∀ e ∈ i.commandEvents fuel bibFiles c, e.Guarded q x n) ∧
      EndsGuarded q x n (i.runCommand fuel bibFiles c) := by
  have one : ∀ r : Except Fault Unit × Interpreter,
      Event.Guarded q x n ⟨none, i.machine, r.2.machine⟩ →
      (∀ e ∈ [⟨none, i.machine, r.2.machine⟩], Event.Guarded q x n e) ∧
        EndsGuarded q x n (some r) := by
    intro r hevent
    refine ⟨List.forall_mem_singleton.2 hevent, ?_⟩
    rintro r' ⟨⟩
    exact hevent.after
  refine command_cases
    (P := fun events end? => (∀ e ∈ events, e.Guarded q x n) ∧ EndsGuarded q x n end?)
    (fun name _ => guarded_function h none name)
    (fun name keys _ => guarded_iterateCommand h _ _ name keys)
    (fun entrySeen rows r hr hrows _ => one r ?_)
    fun r hr _ _ => one r (.elsewhere h hr.stack hr.bindings)
  have hseen : ({ i with entrySeen := entrySeen } : Interpreter).machine.Guarded q x n := h
  rw [← hr]
  refine guarded_withDeclared hseen fun row hrow body hbody => ?_
  obtain ⟨name, hname⟩ := hrows row hrow body hbody
  exact hc name body hname

theorem guarded_commands (h : i.machine.Guarded q x n) {p : Program} (hp : p.Refers q) (fuel : Nat)
    (bibFiles : List Text) :
    (∀ e ∈ commandsEvents fuel bibFiles p i, e.Guarded q x n) ∧
      EndsGuarded q x n (runCommands fuel bibFiles p i) := by
  -- what is left of the style refers only to these names too
  refine along_commands (I := fun p j => j.machine.Guarded q x n ∧ Program.Refers q p)
    (fun _ hj => hj.1) ?_ ⟨h, hp⟩
  rintro c cs j ⟨hj, hcs⟩
  obtain ⟨hc, hcs⟩ := List.forall_mem_cons.1 hcs
  obtain ⟨hevents, hends⟩ := guarded_command hj hc
  exact ⟨hevents, fun _ hrun => ⟨hends _ hrun, hcs⟩, fun f j' hrun => hends (.error f, j') hrun⟩

theorem guarded_flush (h : i.machine.Guarded q x n) : i.flushEvent.Guarded q x n := by
  have hline := Run.Carries.newline (i.scene none) i.machine h.stack
  have hnone : (none : Option Builtin) ≠ some .assign := nofun
  rw [flushEvent, flush]
  split
  · exact .elsewhere h rfl rfl
  · cases hnewline : Run.newline (i.scene none) i.machine with
    | done u m =>
      rw [hnewline] at hline
      exact .of_bindings hnone h hline.1.1 hline.1.2
    | failed f m =>
      rw [hnewline] at hline
      exact .of_bindings hnone h hline.1.1 hline.1.2
    | unfinished => exact .elsewhere h rfl rfl

/-- **A style guards a variable at every moment and at its end.** -/
theorem guarded_run (h : i.machine.Guarded q x n) {p : Program} (hp : p.Refers q) (fuel : Nat)
    (citations bibFiles : List Text) :
    (∀ e ∈ i.history fuel p citations bibFiles, e.Guarded q x n) ∧
      EndsGuarded q x n (i.run fuel p citations bibFiles) := by
  have hstart : ({ i with citations := citations } : Interpreter).machine.Guarded q x n := h
  refine along_run (guarded_commands hstart hp fuel bibFiles) fun j hj => ?_
  have hflush := guarded_flush hj
  exact ⟨hflush, hflush.after⟩

end Interpreter

/-! ## What can be relied on -/

/-- The names of the predefined limits. -/
def limits : List Text := ["global.max$".toList, "entry.max$".toList]

/-- A name puts an integer on the stack, whatever the scene, and does nothing else. -/
def Machine.Gives (m : Machine) (name : Text) (n : Int) : Prop :=
  ∀ fuel s, runName (fuel + 1) name s m = .done () { m with stack := .integer n :: m.stack }

namespace Machine.Gives

variable {m : Machine} {name : Text} {n k : Int}

theorem of_get? (h : m.bindings.get? name = some (.integer n)) : m.Gives name n :=
  fun fuel s => runName_of_get? h fuel s

/-- A name gives one integer. -/
theorem unique (hn : m.Gives name n) (hk : m.Gives name k) : n = k := by
  simpa using (hn 0 {}).symm.trans (hk 0 {})

end Machine.Gives

open Interpreter

theorem guarded_fresh {limit : Text} (hlimit : limit ∈ limits) (q : Text → Prop)
    (options : Options) (source : Source) (answers : SinkAnswers) :
    (fresh options source answers).machine.Guarded q limit 10000 := by
  refine ⟨List.forall_mem_nil _, fun name body hbody => ?_, 10000, ?_, Or.inl rfl⟩
  · obtain ⟨c, -, hb⟩ | ⟨k, hb⟩ | hb := eq_of_initialBindings hbody <;> cases hb
  · obtain rfl | hlimit := List.mem_cons.1 hlimit
    · rfl
    · obtain rfl := List.mem_singleton.1 hlimit
      rfl

/-- Runs that follow each other guard the limits, also those that fail. -/
theorem Interpreter.Ran.guarded {options : Options} {source : Source} {answers : SinkAnswers}
    {ps : List Program} {i : Interpreter} (h : (fresh options source answers).Ran ps i)
    {limit : Text} (hlimit : limit ∈ limits) : i.machine.Guarded (QuotedIn ps) limit 10000 := by
  induction h with
  | start => exact guarded_fresh hlimit _ options source answers
  | @run ps i i' fuel p citations bibFiles r before hrun ih =>
    have hstart := ih.mono fun _ hname => hname.cons p
    have hp : p.Refers (QuotedIn (p :: ps)) := Program.refers_quotedIn List.mem_cons_self
    exact (guarded_run hstart hp fuel citations bibFiles).2 _ hrun

/-- A name gives an integer before an event and after it, and another one only if that is assigned
to it. -/
def Event.Respects (name : Text) (e : Event) : Prop :=
  ∃ old new, e.before.Gives name old ∧ e.after.Gives name new ∧
    (∀ k, e.Assigns name k → new = k) ∧ ((∀ k, ¬ e.Assigns name k) → new = old)

theorem Event.Guarded.respects {q : Text → Prop} {x : Text} {n : Int} {e : Event}
    (h : e.Guarded q x n) : e.Respects x := by
  obtain ⟨old, hold, -⟩ := h.before.value
  obtain ⟨new, hnew, -⟩ := h.after.value
  refine ⟨old, new, .of_get? hold, .of_get? hnew, fun k hk => ?_, fun hnone => ?_⟩
  · cases hnew.symm.trans (h.assigned k hk)
    rfl
  · cases hnew.symm.trans ((h.kept hnone).trans hold)
    rfl

/-- A variable that is not quoted has the value that it had at first. -/
theorem Machine.Guarded.gives_of_not {q : Text → Prop} {x : Text} {n : Int} {m : Machine}
    (h : m.Guarded q x n) (hx : ¬ q x) : m.Gives x n := by
  obtain ⟨k, hk, hvalue⟩ := h.value
  obtain rfl := hvalue.resolve_right hx
  exact .of_get? hk

/-- **How far the limits can be relied on.** A limit gives an integer, 10000 at first. Whatever
styles ran on an interpreter and whatever came of them, it gives one still, and at every moment of a
style that runs now. It changes where `:=` takes a reference to it and an integer from the stack,
which it then gives, and nowhere else. If no style quotes it, then it gives 10000 all along. -/
theorem limits_hold {options : Options} {source : Source} {answers : SinkAnswers}
    {ps : List Program} {i : Interpreter} (h : (fresh options source answers).Ran ps i)
    {limit : Text} (hlimit : limit ∈ limits) (fuel : Nat) (p : Program)
    (citations bibFiles : List Text) :
    (fresh options source answers).machine.Gives limit 10000 ∧
      (∃ n, i.machine.Gives limit n) ∧
      (∀ e ∈ i.history fuel p citations bibFiles, e.Respects limit) ∧
      (¬ QuotedIn ps limit → i.machine.Gives limit 10000) ∧
      (¬ QuotedIn (p :: ps) limit → ∀ e ∈ i.history fuel p citations bibFiles,
        e.before.Gives limit 10000 ∧ e.after.Gives limit 10000) := by
  have hran := h.guarded hlimit
  obtain ⟨n, hn, -⟩ := hran.value
  have hstart := hran.mono fun _ hname => hname.cons p
  have hp : p.Refers (QuotedIn (p :: ps)) := Program.refers_quotedIn List.mem_cons_self
  have hevents := (guarded_run hstart hp fuel citations bibFiles).1
  have hfresh := guarded_fresh hlimit (fun _ => False) options source answers
  exact ⟨hfresh.gives_of_not id, ⟨n, .of_get? hn⟩, fun e he => (hevents e he).respects,
    hran.gives_of_not, fun hquoted e he =>
      ⟨(hevents e he).before.gives_of_not hquoted, (hevents e he).after.gives_of_not hquoted⟩⟩

def Program.readsLimit : Program :=
  [⟨.integers ["n".toList], ⟨0, .bare 0, .bare 12⟩⟩,
    ⟨.function "f".toList
        [.name "global.max$".toList, .quoted "n".toList, .name ":=".toList],
      ⟨0, .bare 13, .bare 46⟩⟩,
    ⟨.execute "f".toList, ⟨0, .bare 47, .bare 58⟩⟩]

/-- It does not quote the limit, which is what it was before. -/
theorem limits_hold_readsLimit :
    ∃ i, (fresh {} (.memory .empty) .willing).run 5 Program.readsLimit [] [] = some (.ok (), i) ∧
      i.machine.Gives "n".toList 10000 ∧ i.machine.Gives "global.max$".toList 10000 := by
  have hrun : (fresh {} (.memory .empty) .willing).run 5 Program.readsLimit [] [] =
      some (.ok (), _) := rfl
  have hlimit : "global.max$".toList ∈ limits := by decide
  have hquoted : ¬ QuotedIn [Program.readsLimit] "global.max$".toList := by decide
  obtain ⟨-, -, -, hgives, -⟩ := limits_hold (.run .start hrun) hlimit 0 [] [] []
  exact ⟨_, hrun, .of_get? rfl, hgives hquoted⟩

def Program.setsLimit : Program :=
  [⟨.function "f".toList
        [.integer 5, .quoted "global.max$".toList, .name ":=".toList],
      ⟨0, .bare 0, .bare 34⟩⟩,
    ⟨.execute "f".toList, ⟨0, .bare 35, .bare 46⟩⟩]

/-- **The limits are no constants.** After this style the limit is another one. -/
theorem not_limits_constant :
    ¬ ∀ (options : Options) (source : Source) (answers : SinkAnswers) (ps : List Program)
        (i : Interpreter), (fresh options source answers).Ran ps i → ∀ limit ∈ limits, ∀ n,
          (fresh options source answers).machine.Gives limit n → i.machine.Gives limit n := by
  intro h
  have hrun : (fresh {} (.memory .empty) .willing).run 4 Program.setsLimit [] [] =
      some (.ok (), _) := rfl
  have hfirst : (fresh {} (.memory .empty) .willing).machine.Gives "global.max$".toList 10000 :=
    .of_get? rfl
  have hconstant := h _ _ _ _ _ (.run .start hrun) "global.max$".toList (by decide) 10000 hfirst
  have hset := hconstant.unique (k := 5) (.of_get? rfl)
  exact absurd hset (by decide)

end Bibliography.Style
