import Bibliography.Proofs.Person.NameList
import Bibliography.Proofs.Run.Limits
import Bibliography.Proofs.Run.References

set_option autoImplicit false

/-! # Names printed by a style

A machine keeps the formats of the patterns that it has read, over whole runs and from one run to
the next. A kept format is the one that its pattern describes (`FormatCache`), so it makes no
difference which are kept: `format.name$` does to a name what is done to it anywhere
(`formatName`). That the name `format.name$` still stands for the function is seen from the history:
no event unbinds a built-in function, be it of a function that runs, of a declaration or of a
command that fails.

Main statement: `names_printed`.
-/

namespace Bibliography.Style

/-! ## Events keep the frame -/

namespace Tale

variable {α : Type}

/-- Every event of the tale keeps the frame. -/
def Framed (t : Tale α) : Prop :=
  ∀ s m, ∀ e ∈ t.history s m, Machine.Frame s.current e.before e.after

theorem framed_once {x : Run α} (hx : x.Steps) (b? : Option Builtin) : (once b? x).Framed := by
  intro s m e he
  have hframe := hx.frame s m
  simp only [once] at he
  cases hrun : x s m with
  | done a m' =>
    rw [hrun] at he hframe
    obtain rfl := List.mem_singleton.1 he
    exact hframe
  | failed f m' =>
    rw [hrun] at he hframe
    obtain rfl := List.mem_singleton.1 he
    exact hframe
  | unfinished =>
    rw [hrun] at he
    cases he

theorem Framed.andThen {β : Type} {Q : α → Prop} {t : Tale α} {f : α → Tale β} (ht : t.Framed)
    (hkeeps : t.run.Keeps .all Q) (hf : ∀ a, Q a → (f a).Framed) : (t.andThen f).Framed := by
  intro s m e he
  have hfits := hkeeps s m s.within_all m.within_all
  simp only [Tale.andThen] at he
  rcases List.mem_append.1 he with he | he
  · exact ht s m e he
  · cases hrun : t.run s m with
    | done a m' =>
      rw [hrun] at he hfits
      exact hf a hfits.2 s m' e he
    | failed _ _ | unfinished =>
      rw [hrun] at he
      cases he

theorem Framed.calling {t : Tale Unit} (ht : t.Framed) (name : Text) :
    (calling name t).Framed := by
  intro s m e he
  simp only [Tale.calling] at he
  split at he
  · cases he
  · exact ht { s with depth := s.depth + 1 } m e he

theorem closed_framed : Closed .all @Framed where
  andThen := Framed.andThen
  unfinished _ _ _ he := by cases he
  running b _ ht s m := ht { s with active := some b } m
  calling name _ ht := ht.calling name
  plain _ _ hplain := framed_once (hplain _ Run.Steps.closed.toPlain) _
  stack _ := framed_once Run.Steps.closed.stack _
  newline _ := framed_once Run.Steps.closed.newline _
  write _ := framed_once
    (Run.Steps.bind Run.Steps.closed.popString fun t => Run.Steps.closed.write t) _

theorem framed_ofName (fuel : Nat) (name : Text) : (ofName fuel name).Framed :=
  (closed_framed.ofName Vocabulary.closed_all fuel trivial).property

end Tale

/-! ## Built-in functions keep their names -/

/-- The event leaves the built-in functions bound as they are. -/
def Event.KeepsBuiltins (e : Event) : Prop :=
  ∀ name b, e.before.bindings.get? name = some (.builtin b) →
    e.after.bindings.get? name = some (.builtin b)

theorem Event.KeepsBuiltins.of_frame {e : Event} {current : Option Text}
    (h : Machine.Frame current e.before e.after) : e.KeepsBuiltins := by
  intro name b hb
  obtain ⟨b', hb', halike⟩ := h.bindings name _ hb
  cases halike
  exact hb'

theorem Event.KeepsBuiltins.of_bindings {e : Event} (h : e.after.bindings = e.before.bindings) :
    e.KeepsBuiltins := by
  intro name b hb
  rw [h, hb]

namespace Interpreter

variable {fuel : Nat} {bibFiles : List Text} {i : Interpreter}

theorem keepsBuiltins_functionEvents (i : Interpreter) (current : Option Text) (name : Text) :
    ∀ e ∈ i.functionEvents fuel current name, e.KeepsBuiltins :=
  fun e he => .of_frame (Tale.framed_ofName fuel name (i.scene current) i.machine e he)

theorem keepsBuiltins_iterateEvents (i : Interpreter) (name : Text) (keys : List Text) :
    ∀ e ∈ iterateEvents fuel name keys i, e.KeepsBuiltins := by
  induction keys generalizing i with
  | nil => exact List.forall_mem_nil _
  | cons key keys ih =>
    refine List.forall_mem_append.2 ⟨keepsBuiltins_functionEvents i (some key) name, ?_⟩
    split
    · exact ih _
    · exact List.forall_mem_nil _

theorem keepsBuiltins_iterateCommandEvents (i : Interpreter) (name : Text) (keys : List Text) :
    ∀ e ∈ i.iterateCommandEvents fuel name keys, e.KeepsBuiltins := by
  rw [iterateCommandEvents]
  split
  · exact List.forall_mem_nil _
  · split
    · exact List.forall_mem_nil _
    · exact keepsBuiltins_iterateEvents i name keys

theorem keepsBuiltins_withDeclared (i : Interpreter) (rows : List (Binding × List Text)) :
    Event.KeepsBuiltins ⟨none, i.machine, (i.withDeclared rows).2.machine⟩ := by
  intro name b hb
  rw [machine_withDeclared]
  exact get?_declareAll rows hb

theorem keepsBuiltins_commandEvents (i : Interpreter) (c : LocatedCommand) :
    ∀ e ∈ i.commandEvents fuel bibFiles c, e.KeepsBuiltins := by
  refine command_cases (P := fun events _ => ∀ e ∈ events, e.KeepsBuiltins)
    (fun name _ => keepsBuiltins_functionEvents i none name)
    (fun name keys _ => keepsBuiltins_iterateCommandEvents i name keys)
    (fun entrySeen rows q hq _ _ => List.forall_mem_singleton.2 ?_)
    fun q hq _ _ => List.forall_mem_singleton.2 (.of_bindings hq.bindings)
  rw [← hq]
  exact keepsBuiltins_withDeclared { i with entrySeen := entrySeen } rows

theorem keepsBuiltins_flushEvent (i : Interpreter) : i.flushEvent.KeepsBuiltins := by
  have hline := Run.Steps.closed.newline.frame (i.scene none) i.machine
  rw [flushEvent, flush]
  split
  · exact .of_bindings rfl
  · cases hnewline : Run.newline (i.scene none) i.machine with
    | done u m =>
      rw [hnewline] at hline
      exact .of_frame hline
    | failed f m =>
      rw [hnewline] at hline
      exact .of_frame hline
    | unfinished => exact .of_bindings rfl

theorem keepsBuiltins_history (i : Interpreter) (p : Program) (citations : List Text) :
    ∀ e ∈ i.history fuel p citations bibFiles, e.KeepsBuiltins := by
  have hcommands : ∀ e ∈ commandsEvents fuel bibFiles p { i with citations := citations },
      e.KeepsBuiltins :=
    (along_commands (I := fun _ _ => True) (F := fun _ => True) (fun _ _ => trivial)
      (fun c _ j _ => ⟨keepsBuiltins_commandEvents j c, fun _ _ => trivial,
        fun _ _ _ => trivial⟩) trivial).1
  exact (along_run (F := fun _ => True) ⟨hcommands, fun _ _ => trivial⟩
    fun j _ => ⟨keepsBuiltins_flushEvent j, trivial⟩).1

end Interpreter

def Machine.HasBuiltins (m : Machine) : Prop :=
  ∀ b : Builtin, m.bindings.get? b.name.toList = some (.builtin b)

open Interpreter

theorem hasBuiltins_fresh (options : Options) (source : Source) (answers : SinkAnswers) :
    (fresh options source answers).machine.HasBuiltins :=
  get?_initialBindings

/-- **A style leaves the built-in functions bound to their names at every moment and at its
end.** -/
theorem Interpreter.hasBuiltins_run {i : Interpreter} (h : i.machine.HasBuiltins) (fuel : Nat)
    (p : Program) (citations bibFiles : List Text) :
    (∀ e ∈ i.history fuel p citations bibFiles, e.before.HasBuiltins ∧ e.after.HasBuiltins) ∧
      ∀ q, i.run fuel p citations bibFiles = some q → q.2.machine.HasBuiltins := by
  obtain ⟨m', hlinked, hends⟩ := leadsFrom_history fuel i p citations bibFiles
  have hkeeps : ∀ e ∈ i.history fuel p citations bibFiles,
      e.before.HasBuiltins → e.after.HasBuiltins :=
    fun e he hbefore b => keepsBuiltins_history i p citations e he _ b (hbefore b)
  obtain ⟨hmoments, hend⟩ := hlinked.moments hkeeps h
  exact ⟨hmoments, fun q hq => hends q hq ▸ hend⟩

theorem Interpreter.Ran.hasBuiltins {options : Options} {source : Source} {answers : SinkAnswers}
    {ps : List Program} {i : Interpreter} (h : (fresh options source answers).Ran ps i) :
    i.machine.HasBuiltins := by
  induction h with
  | start => exact hasBuiltins_fresh options source answers
  | run _ hrun ih => exact (hasBuiltins_run ih _ _ _ _).2 _ hrun

/-! ## Names -/

/-- The machine with other values on the stack, which keeps certain formats. -/
def Machine.keeping (m : Machine) (known : FormatCache) (values : List Value) : Machine :=
  { m with stack := values, formats := Squash.mk known }

/-- The outcome of printing a name by a pattern, where `after` are the machines with certain values
on the stack above what was there. -/
structure Outcome.PrintsName (name pattern : Text) (after : List Value → Machine)
    (o : Outcome Unit) : Prop where
  invalidName : Person.ofText? name = none →
    o = .failed (.database (.invalidName name.trim)) (after [])
  invalidFormat : ∀ p fault, Person.ofText? name = some p →
    NameFormat.ofPattern pattern = .error fault →
    o = .failed (.invalidNameFormat pattern fault) (after [])
  printed : ∀ p f, Person.ofText? name = some p → NameFormat.ofPattern pattern = .ok f →
    ∃ printed, formatName name pattern = .ok printed ∧ o = .done () (after [.string printed])

/-- What becomes of a name list, a number and a pattern on the stack of a machine, below which there
may be other values, whatever formats it keeps. -/
structure Machine.PrintsNames (m : Machine) : Prop where
  count : ∀ known fuel s names below,
    runName (fuel + 1) "num.names$".toList s (m.keeping known (.string names :: below)) =
      .done () (m.keeping known (.integer (Tex.splitNameList names).length :: below))
  outside : ∀ known fuel s names index pattern below,
    index < 1 ∨ ((Tex.splitNameList names).length : Int) < index →
    runName (fuel + 1) "format.name$".toList s
        (m.keeping known (.string pattern :: .integer index :: .string names :: below)) =
      .failed (.invalidArgument "format.name$".toList
        (.noSuchName index names (Tex.splitNameList names).length)) (m.keeping known below)
  inside : ∀ known fuel s names index pattern below,
    1 ≤ index → index ≤ ((Tex.splitNameList names).length : Int) →
    ∃ name, (Tex.splitNameList names)[(index - 1).toNat]? = some name ∧
      (runName (fuel + 1) "format.name$".toList s (m.keeping known
        (.string pattern :: .integer index :: .string names :: below))).PrintsName name pattern
          fun values => m.keeping known (values ++ below)

namespace Run

variable {names : List Text} {index : Int}

theorem nameAt?_eq_none (h : index < 1 ∨ (names.length : Int) < index) :
    nameAt? names index = none := by
  rw [nameAt?]
  split
  · rw [List.getElem?_eq_none_iff]
    omega
  · rfl

theorem exists_nameAt? (hfirst : 1 ≤ index) (hlast : index ≤ (names.length : Int)) :
    ∃ name, names[(index - 1).toNat]? = some name ∧ nameAt? names index = some name := by
  have hlt : (index - 1).toNat < names.length := by omega
  refine ⟨names[(index - 1).toNat], List.getElem?_eq_getElem hlt, ?_⟩
  rw [nameAt?, if_pos hfirst, List.getElem?_eq_getElem hlt]

end Run

/-- Printing a name at its place is printing it. -/
theorem Outcome.printsName_of_formatName {name pattern : Text} {after : List Value → Machine}
    {o : Outcome Unit} (ho : o = match formatName name pattern with
      | .ok printed => .done () (after [.string printed])
      | .error fault => .failed fault (after [])) : o.PrintsName name pattern after where
  invalidName hname := by
    rw [ho, formatName, Person.read, hname]
    rfl
  invalidFormat p fault hname hpattern := by
    rw [ho, formatName_of_ofText? hname, hpattern]
  printed p f hname hpattern := by
    rw [formatName_of_ofText? hname, hpattern] at ho ⊢
    exact ⟨_, rfl, ho⟩

namespace Machine.HasBuiltins

variable {m : Machine} (h : m.HasBuiltins)
include h

theorem run_formatName (known : FormatCache) (fuel : Nat) (s : Scene) (names : Text) (index : Int)
    (pattern : Text) (below : List Value) :
    runName (fuel + 1) "format.name$".toList s
        (m.keeping known (.string pattern :: .integer index :: .string names :: below)) =
      match Run.nameAt? (Tex.splitNameList names) index with
      | none => .failed (.invalidArgument "format.name$".toList
          (.noSuchName index names (Tex.splitNameList names).length)) (m.keeping known below)
      | some name =>
        match formatName name pattern with
        | .ok printed => .done () (m.keeping known (.string printed :: below))
        | .error fault => .failed fault (m.keeping known below) := by
  have hbound : (m.keeping known (.string pattern :: .integer index :: .string names ::
      below)).bindings.get? "format.name$".toList = some (.builtin .formatName) := h .formatName
  rw [runName_of_get? hbound, runBinding, Run.running_eq, Run.running_apply]
  exact run_formatName_eq _ _ _ rfl

/-- **A machine with the built-in functions prints names as they are printed anywhere.** -/
theorem printsNames : m.PrintsNames where
  count known fuel s names below := by
    have hbound : (m.keeping known (.string names :: below)).bindings.get? "num.names$".toList =
        some (.builtin .numNames) := h .numNames
    rw [runName_of_get? hbound, runBinding, Run.running_eq, Run.running_apply]
    exact run_numNames _ _ _ rfl
  outside known fuel s names index pattern below hindex := by
    rw [h.run_formatName, Run.nameAt?_eq_none hindex]
  inside known fuel s names index pattern below hfirst hlast := by
    obtain ⟨name, hname, hat⟩ := Run.exists_nameAt? hfirst hlast
    refine ⟨name, hname, Outcome.printsName_of_formatName ?_⟩
    rw [h.run_formatName, hat]
    rfl

end Machine.HasBuiltins

/-- **A style prints names as they are printed anywhere.** A cache of formats gives a pattern the
format that it describes, whatever is kept. Whatever styles ran on an interpreter and whatever came
of them, and at every moment of one that runs now: `format.name$` has a fault if the list has no
name with the number, else one of the name, else one of the pattern, and prints the name
otherwise. -/
theorem names_printed {options : Options} {source : Source} {answers : SinkAnswers}
    {ps : List Program} {i : Interpreter} (h : (fresh options source answers).Ran ps i) (fuel : Nat)
    (p : Program) (citations bibFiles : List Text) :
    (∀ (known : FormatCache) (pattern : Text),
        (known.format pattern).1 = NameFormat.ofPattern pattern) ∧
      i.machine.PrintsNames ∧
      ∀ e ∈ i.history fuel p citations bibFiles, e.before.PrintsNames ∧ e.after.PrintsNames := by
  refine ⟨FormatCache.fst_format, h.hasBuiltins.printsNames, fun e he => ?_⟩
  have hmoments := (hasBuiltins_run h.hasBuiltins fuel p citations bibFiles).1 e he
  exact ⟨hmoments.1.printsNames, hmoments.2.printsNames⟩

def Program.printsMidway : Program :=
  [⟨.function "f".toList [.string "Donald Knuth".toList, .integer 1,
      .string "\x7bll\x7d, \x7bf.\x7d".toList, .name "format.name$".toList,
      .name "lost".toList], ⟨0, .bare 0, .bare 62⟩⟩,
    ⟨.execute "f".toList, ⟨0, .bare 63, .bare 74⟩⟩]

/-- After that style the pattern prints another name, whether or not its format was kept. There is
no second name in a list of one, and what is no name is not printed. -/
theorem names_printed_printsMidway :
    ∃ e i, (fresh {} (.memory .empty) .willing).run 3 Program.printsMidway [] [] =
        some (.error e, i) ∧
      i.machine.stack.head?.bind Value.text? = some "Knuth, D.".toList ∧
      ∀ known : FormatCache,
        runName 1 "format.name$".toList {} (i.machine.keeping known
            [.string "\x7bll\x7d, \x7bf.\x7d".toList, .integer 1, .string "Ada King".toList]) =
          .done () (i.machine.keeping known [.string "King, A.".toList]) ∧
        runName 1 "format.name$".toList {} (i.machine.keeping known
            [.string "\x7bll\x7d".toList, .integer 2, .string "Knuth".toList]) =
          .failed (.invalidArgument "format.name$".toList (.noSuchName 2 "Knuth".toList 1))
            (i.machine.keeping known []) ∧
        runName 1 "format.name$".toList {} (i.machine.keeping known
            [.string "\x7bll".toList, .integer 1, .string "a, b, c, d".toList]) =
          .failed (.database (.invalidName "a, b, c, d".toList)) (i.machine.keeping known []) := by
  obtain ⟨⟨r, i⟩, hrun, hends⟩ := Option.any_eq_true _ _ |>.1
    (show ((fresh {} (.memory .empty) .willing).run 3 Program.printsMidway [] []).any
      (fun q => !q.1.isOk &&
        decide (q.2.machine.stack.head?.bind Value.text? = some "Knuth, D.".toList)) = true by
        decide +kernel)
  have hprints := (names_printed (.run .start hrun) 0 [] [] []).2.1
  cases r with
  | ok u => cases hends
  | error e =>
  refine ⟨e, i, hrun, of_decide_eq_true hends, fun known => ⟨?_, ?_, ?_⟩⟩
  · obtain ⟨name, hname, hprinted⟩ := hprints.inside known 0 {} "Ada King".toList 1
      "\x7bll\x7d, \x7bf.\x7d".toList [] (by decide) (by decide)
    have hlist : (Tex.splitNameList "Ada King".toList)[((1 : Int) - 1).toNat]? =
        some "Ada King".toList := by decide
    obtain rfl := Option.some.inj (hlist.symm.trans hname)
    obtain ⟨ada, hada⟩ : ∃ p, Person.ofText? "Ada King".toList = some p := ⟨_, rfl⟩
    have hking : (formatName "Ada King".toList "\x7bll\x7d, \x7bf.\x7d".toList).toOption =
        some "King, A.".toList := by decide +kernel
    cases hformat : NameFormat.ofPattern "\x7bll\x7d, \x7bf.\x7d".toList with
    | error fault =>
      rw [formatName_of_ofText? hada, hformat] at hking
      cases hking
    | ok format =>
      obtain ⟨printed, hprints, hdone⟩ := hprinted.printed ada format hada hformat
      rw [hprints] at hking
      obtain rfl := Option.some.inj hking
      exact hdone
  · exact hprints.outside known 0 {} "Knuth".toList 2 "\x7bll\x7d".toList [] (Or.inr (by decide))
  · obtain ⟨name, hname, hprinted⟩ := hprints.inside known 0 {} "a, b, c, d".toList 1
      "\x7bll".toList [] (by decide) (by decide)
    have hlist : (Tex.splitNameList "a, b, c, d".toList)[((1 : Int) - 1).toNat]? =
        some "a, b, c, d".toList := by decide
    obtain rfl := Option.some.inj (hlist.symm.trans hname)
    exact hprinted.invalidName (by decide)

end Bibliography.Style
