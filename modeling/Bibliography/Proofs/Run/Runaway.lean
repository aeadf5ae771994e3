import Bibliography.Proofs.Run.Confinement
import Bibliography.Proofs.Run.Nesting

set_option autoImplicit false

/-! # Styles that end

A style keeps order if each `if$` in it stands directly behind its two branches, blocks or quoted
names, and there are no loops. Such a style ends, well or with a fault: calls of functions that nest
without an end are cut off by `maxDepth`, and between two calls runs nest no deeper than blocks do
in the text. The fuel that is enough does not depend on the database or on what is cited.

The order matters. What `if$` takes from the stack may be a block that contains the very `if$`, and
such a block runs for ever without a single call of a function (`not_ends_selfSample`).

Main statement: `ends_of_isOrderly`.
-/

namespace Bibliography.Style

/-! ## Orderly styles -/

/-- A command that keeps order. -/
def Command.isOrderly : Command → Bool
  | .function _ body => Token.areOrderly 0 body
  | .execute name | .iterate name | .reverse name => decide (IsUnguarded name)
  | .entry _ _ _ | .integers _ | .strings _ | .abbreviation _ _ | .read | .sort => true

def Command.height : Command → Nat
  | .function _ body => Token.heights body
  | _ => 0

/-- A style that keeps order. -/
def Program.isOrderly (p : Program) : Bool := p.all (·.command.isOrderly)

def Program.height : Program → Nat
  | [] => 0
  | c :: cs => max c.command.height (height cs)

/-- No type of an entry leads to a built-in function that runs others. -/
def DirectKinds (d : Database) : Prop := ∀ row ∈ d.entries, IsDirect row.2.kind

instance (d : Database) : Decidable (DirectKinds d) :=
  inferInstanceAs (Decidable (∀ row ∈ d.entries, IsDirect row.2.kind))

namespace Interpreter

/-- An interpreter on which the style `p` and all functions that are declared already end. -/
structure Ready (h : Nat) (bibFiles : List Text) (p : Program) (i : Interpreter) : Prop where
  machine : i.machine.Orderly h
  kinds : DirectKinds i.data
  orderly : p.isOrderly = true
  height : p.height ≤ h
  loads : i.readSeen = false → ∀ d,
    (i.source.load bibFiles (p.abbreviationsAtRead i.abbreviations)).1 = .ok d → DirectKinds d

/-- What is run before the style `p` has an end, and `p` can follow if it ended well. -/
def EndsReady (h : Nat) (bibFiles : List Text) (p : Program) :
    Option (Except Fault Unit × Interpreter) → Prop
  | some (.ok _, i) => i.Ready h bibFiles p
  | some (.error _, _) => True
  | none => False

namespace Ready

variable {h : Nat} {bibFiles : List Text} {p : Program} {i : Interpreter}

theorem scene_permits (hi : i.Ready h bibFiles p) (current : Option Text) :
    (i.scene current).Permits maxDepth where
  depth := Nat.le_add_left _ _
  kind e he := by
    obtain ⟨c, -, he⟩ := Option.bind_eq_some_iff.1 he
    exact hi.kinds (c.fold, e) (Table.mem_of_get?_eq_some he)

theorem with_machine (hi : i.Ready h bibFiles p) {m : Machine} (hm : m.Orderly h) :
    ({ i with machine := m } : Interpreter).Ready h bibFiles p :=
  { hi with machine := hm }

theorem command {c : LocatedCommand} {cs : Program} (hi : i.Ready h bibFiles (c :: cs)) :
    c.command.isOrderly = true ∧ c.command.height ≤ h := by
  have horderly := hi.orderly
  rw [Program.isOrderly, List.all_cons, Bool.and_eq_true] at horderly
  exact ⟨horderly.1, Nat.le_trans (Nat.le_max_left _ _) hi.height⟩

theorem commands {c : LocatedCommand} {cs : Program} (hi : i.Ready h bibFiles (c :: cs)) :
    cs.isOrderly = true ∧ cs.height ≤ h := by
  have horderly := hi.orderly
  rw [Program.isOrderly, List.all_cons, Bool.and_eq_true] at horderly
  exact ⟨horderly.2, Nat.le_trans (Nat.le_max_right _ _) hi.height⟩

/-- A style goes on with what is ready, unless a command changes the abbreviations or reads. -/
theorem tail {c : LocatedCommand} {cs : Program} (hi : i.Ready h bibFiles (c :: cs))
    (hc : Program.abbreviationsAtRead i.abbreviations (c :: cs) =
      Program.abbreviationsAtRead i.abbreviations cs) : i.Ready h bibFiles cs where
  machine := hi.machine
  kinds := hi.kinds
  orderly := hi.commands.1
  height := hi.commands.2
  loads hseen := hc ▸ hi.loads hseen

/-! ## Functions -/

section

variable {fuel : Nat} (hfuel : fuelOf h maxDepth + 2 ≤ fuel) {name : Text}
variable (hname : IsUnguarded name)
include hfuel hname

theorem runFunction (hi : i.Ready h bibFiles p) (current : Option Text) :
    EndsReady h bibFiles p (i.runFunction fuel current name) := by
  have hhalts := halts_runName (hi.scene_permits current) hi.machine hfuel hname
  rw [Run.HaltsAt] at hhalts
  rw [Interpreter.runFunction]
  cases hrun : runName fuel name (i.scene current) i.machine with
  | done u m => exact hi.with_machine (hi.machine.of_done (steps_runName fuel name) hrun)
  | failed f m => trivial
  | unfinished =>
    rw [hrun] at hhalts
    cases hhalts

theorem iterate (hi : i.Ready h bibFiles p) (word : String) (span : SourceSpan)
    (keys : List Text) : EndsReady h bibFiles p (i.iterate fuel word span name keys) := by
  have hends : ∀ (j : Interpreter) (key : Text), j.Ready h bibFiles p →
      EndsReady h bibFiles p (j.runFunction fuel (some key) name) :=
    fun j key hj => runFunction hfuel hname hj (some key)
  refine iterate_induction (I := fun j => j.Ready h bibFiles p) (fun _ hj => hj)
    (fun j j' key _ hj hrun => ?_) (fun _ _ _ _ _ _ _ => trivial)
    (fun j key _ hj hrun => ?_) hi
  all_goals
    have hfunction := hends j key hj
    rw [hrun] at hfunction
    exact hfunction

theorem iterateCommand (hi : i.Ready h bibFiles p) (word : String) (span : SourceSpan)
    (keys : List Text) :
    EndsReady h bibFiles p (i.iterateCommand fuel word span name keys) := by
  rw [iterateCommand_eq]
  split
  · trivial
  · split
    · trivial
    · exact iterate hfuel hname hi word span keys

end

/-! ## Commands -/

theorem withDeclared (hi : i.Ready h bibFiles p) {rows : List (Binding × List Text)}
    (hrows : ∀ row ∈ rows, ∀ name ∈ row.2, row.1.IsOrderly h name) :
    EndsReady h bibFiles p (some (i.withDeclared rows)) := by
  have hbindings := bindings_of_declareAll (P := fun name b => b.IsOrderly h name) hrows hi.machine
  rw [Interpreter.withDeclared]
  cases hdeclared : declareAll rows i.machine.bindings with
  | mk bindings fault? =>
    rw [hdeclared] at hbindings
    cases fault? with
    | none => exact hi.with_machine hbindings
    | some f => trivial

theorem read {c : LocatedCommand} {cs : Program} (hi : i.Ready h bibFiles (c :: cs))
    (hc : c.command = .read) (span : SourceSpan) :
    EndsReady h bibFiles cs (some (i.read bibFiles span)) := by
  by_cases hseen : i.readSeen = true
  · rw [Interpreter.read, if_pos hseen]
    trivial
  · rw [Bool.not_eq_true] at hseen
    have hloads := hi.loads hseen
    rw [Program.abbreviationsAtRead, hc] at hloads
    cases hload : (i.source.load bibFiles i.abbreviations).1 with
    | error e =>
      rw [Interpreter.read, if_neg (by simp [hseen])]
      simp only [hload]
      trivial
    | ok d =>
      rw [read_of_load hseen hload]
      exact ⟨hi.machine, hloads d hload, hi.commands.1, hi.commands.2,
        fun hunread => by cases hunread⟩

/-- **A command that keeps order ends.** -/
theorem runCommand {c : LocatedCommand} {cs : Program} (hi : i.Ready h bibFiles (c :: cs))
    {fuel : Nat} (hfuel : fuelOf h maxDepth + 2 ≤ fuel) :
    EndsReady h bibFiles cs (i.runCommand fuel bibFiles c) := by
  obtain ⟨horderly, hheight⟩ := hi.command
  obtain ⟨command, span⟩ := c
  rw [runCommand_eq]
  cases command with
  | entry fields integers strings =>
    dsimp only
    rw [declareEntries]
    split
    · trivial
    · split
      · trivial
      · have htail := hi.tail rfl
        have hseen : ({ i with entrySeen := true } : Interpreter).Ready h bibFiles cs :=
          ⟨htail.machine, htail.kinds, htail.orderly, htail.height, htail.loads⟩
        refine hseen.withDeclared fun row hrow name _ => ?_
        simp only [List.mem_cons, List.not_mem_nil, or_false] at hrow
        obtain rfl | rfl | rfl | rfl := hrow <;> trivial
  | integers names | strings names =>
    refine (hi.tail rfl).withDeclared fun row hrow name _ => ?_
    obtain rfl := List.mem_singleton.1 hrow
    trivial
  | function name body =>
    refine (hi.tail rfl).withDeclared fun row hrow name _ => ?_
    obtain rfl := List.mem_singleton.1 hrow
    exact ⟨horderly, hheight⟩
  | abbreviation name value =>
    dsimp only
    rw [abbreviate]
    split
    · trivial
    · exact ⟨hi.machine, hi.kinds, hi.commands.1, hi.commands.2, hi.loads⟩
  | read => exact hi.read rfl span
  | execute name => exact (hi.tail rfl).runFunction hfuel (of_decide_eq_true horderly) none
  | iterate name =>
    exact (hi.tail rfl).iterateCommand hfuel (of_decide_eq_true horderly) "ITERATE" span _
  | reverse name =>
    exact (hi.tail rfl).iterateCommand hfuel (of_decide_eq_true horderly) "REVERSE" span _
  | sort =>
    dsimp only
    rw [Interpreter.sort]
    split
    · have htail := hi.tail rfl
      exact ⟨htail.machine, htail.kinds, htail.orderly, htail.height, htail.loads⟩
    · trivial

theorem runCommands (hi : i.Ready h bibFiles p) {fuel : Nat}
    (hfuel : fuelOf h maxDepth + 2 ≤ fuel) :
    EndsReady h bibFiles [] (Interpreter.runCommands fuel bibFiles p i) := by
  refine runCommands_induction (I := fun p i => i.Ready h bibFiles p)
    (E := EndsReady h bibFiles []) (fun _ hj => hj) (fun c cs j j' hj hrun => ?_)
    (fun _ _ _ _ _ _ _ => trivial) (fun c cs j hj hrun => ?_) hi
  all_goals
    have hends := hj.runCommand hfuel
    rw [hrun] at hends
    exact hends

end Ready

end Interpreter

/-! ## Styles -/

theorem orderly_initialBindings (h : Nat) (sink : Sink) :
    Machine.Orderly h { bindings := initialBindings, sink := sink } := by
  intro name b hb
  rcases eq_of_initialBindings hb with ⟨c, rfl, rfl⟩ | ⟨n, rfl⟩ | rfl
  · exact rfl
  · trivial
  · trivial

/-- **A style that keeps order ends.** No type of an entry leads to a built-in function that runs
others. How often functions may call each other and how many blocks stand one inside the other
bound the fuel that is enough, whatever is cited and whatever the database holds. -/
theorem ends_of_isOrderly (o : Options) (source : Source) (answers : SinkAnswers) (p : Program)
    (citations bibFiles : List Text) (hp : p.isOrderly = true)
    (hdata : ∀ d, (source.load bibFiles (p.abbreviationsAtRead .months)).1 = .ok d → DirectKinds d)
    (fuel : Nat) (hfuel : maxDepth * (p.height + 3) + 2 ≤ fuel) :
    ∃ r i', (Interpreter.fresh o source answers).run fuel p citations bibFiles = some (r, i') := by
  have hready : ({ Interpreter.fresh o source answers with citations := citations } :
      Interpreter).Ready p.height bibFiles p :=
    ⟨orderly_initialBindings p.height _, List.forall_mem_nil _, hp, Nat.le_refl _,
      fun _ d hd => hdata d hd⟩
  have hends := hready.runCommands hfuel
  rw [Interpreter.run]
  cases hrun : Interpreter.runCommands fuel bibFiles p
      { Interpreter.fresh o source answers with citations := citations } with
  | none =>
    rw [hrun] at hends
    cases hends
  | some q =>
    obtain ⟨r, i'⟩ := q
    cases r with
    | error e => exact ⟨.error e, i', rfl⟩
    | ok u => exact ⟨i'.flush.1, i'.flush.2, rfl⟩

def Program.callsItselfSample : Program :=
  [⟨.function "f".toList [.integer 1, .block [.name "f".toList], .quoted "skip$".toList,
      .name "if$".toList], ⟨0, .bare 0, .bare 0⟩⟩,
    ⟨.execute "f".toList, ⟨0, .bare 0, .bare 0⟩⟩]

def cutOffAt? : Except Fault Unit → Option Text
  | .error (.inCommand _ _ _ (.recursionLimit function)) => some function
  | _ => none

theorem exists_of_cutOffAt? {r : Except Fault Unit} {function : Text}
    (h : cutOffAt? r = some function) : ∃ command key span,
      r = .error (.inCommand command key span (.recursionLimit function)) := by
  unfold cutOffAt? at h
  split at h
  · next command key span f =>
    cases h
    exact ⟨command, key, span, rfl⟩
  · cases h

/-- It is cut off. -/
theorem ends_callsItselfSample : ∃ command key span i',
    (Interpreter.fresh {} (.memory .empty) .willing).run 2002 Program.callsItselfSample [] [] =
      some (.error (.inCommand command key span (.recursionLimit "f".toList)), i') := by
  have hempty : ∀ d, (Source.load (.memory .empty) []
      (Program.callsItselfSample.abbreviationsAtRead .months)).1 = .ok d → DirectKinds d := by
    rintro d ⟨⟩
    exact List.forall_mem_nil _
  obtain ⟨r, i', hrun⟩ := ends_of_isOrderly {} (.memory .empty) .willing
    Program.callsItselfSample [] [] (by decide) hempty 2002 (by decide)
  have hcut : ((Interpreter.fresh {} (.memory .empty) .willing).run 2002 Program.callsItselfSample
      [] []).any (cutOffAt? ·.1 == some "f".toList) = true := by decide +kernel
  rw [hrun] at hcut
  obtain ⟨command, key, span, rfl⟩ := exists_of_cutOffAt? (eq_of_beq hcut)
  exact ⟨command, key, span, i', hrun⟩

/-! ## A block that runs itself -/

/-- A block that takes a block from the stack and runs it, and leaves a copy of it below. -/
def selfBody : List Token :=
  [.name "duplicate$".toList, .integer 1, .name "swap$".toList, .quoted "skip$".toList,
    .name "if$".toList]

def Machine.withStack (m : Machine) (vs : List Value) : Machine := { m with stack := vs }

/-- A machine that knows the functions of which the block makes use. -/
structure Machine.KnowsSelfBody (m : Machine) : Prop where
  duplicate : m.bindings.get? "duplicate$".toList = some (.builtin .duplicate)
  swap : m.bindings.get? "swap$".toList = some (.builtin .swap)
  skip : m.bindings.get? "skip$".toList = some (.builtin .skip)
  choice : m.bindings.get? "if$".toList = some (.builtin .ifThenElse)

theorem Machine.KnowsSelfBody.withStack {m : Machine} (hm : m.KnowsSelfBody) (vs : List Value) :
    (m.withStack vs).KnowsSelfBody :=
  ⟨hm.duplicate, hm.swap, hm.skip, hm.choice⟩

/-- Each turn of the block leads to the next one. No function is called, so none is counted. -/
theorem unfinished_selfBody (fuel : Nat) (s : Scene) {m : Machine} (hm : m.KnowsSelfBody)
    (below : List Value) :
    runTokens (runName fuel) selfBody s (m.withStack (.function selfBody :: below)) =
      .unfinished := by
  induction fuel generalizing s below with
  | zero => rfl
  | succ fuel ih =>
    have hduplicate : runName (fuel + 1) "duplicate$".toList s
          (m.withStack (.function selfBody :: below)) =
        .done () (m.withStack (.function selfBody :: .function selfBody :: below)) := by
      rw [runName_of_get? (hm.withStack _).duplicate]
      rfl
    have hswap : runName (fuel + 1) "swap$".toList s
          (m.withStack (.integer 1 :: .function selfBody :: .function selfBody :: below)) =
        .done () (m.withStack
          (.function selfBody :: .integer 1 :: .function selfBody :: below)) := by
      rw [runName_of_get? (hm.withStack _).swap]
      rfl
    have hskip : Run.refer "skip$".toList s
          (m.withStack (.function selfBody :: .integer 1 :: .function selfBody :: below)) =
        .done () (m.withStack (.reference "skip$".toList :: .function selfBody :: .integer 1 ::
          .function selfBody :: below)) := by
      rw [Run.refer, Run.bind_apply, Run.bindings_apply]
      dsimp only
      rw [Table.contains, (hm.withStack _).skip]
      rfl
    -- the branch that is run is the block itself, with a copy of it on the stack again
    have hchoice : runName (fuel + 1) "if$".toList s
          (m.withStack (.reference "skip$".toList :: .function selfBody :: .integer 1 ::
            .function selfBody :: below)) =
        runTokens (runName fuel) selfBody { s with active := some .ifThenElse }
          (m.withStack (.function selfBody :: below)) := by
      rw [runName_of_get? (hm.withStack _).choice]
      rfl
    have hrow : runTokens (runName (fuel + 1)) selfBody = (do
        runName (fuel + 1) "duplicate$".toList
        Run.push (.integer 1)
        runName (fuel + 1) "swap$".toList
        Run.refer "skip$".toList
        runName (fuel + 1) "if$".toList
        Run.give ()) := rfl
    have hpush : Run.push (.integer 1) s
          (m.withStack (.function selfBody :: .function selfBody :: below)) =
        .done () (m.withStack (.integer 1 :: .function selfBody :: .function selfBody :: below)) :=
      rfl
    rw [hrow]
    simp only [Run.bind_apply, hduplicate, hpush, hswap, hskip, hchoice, ih]

def loopless : Vocabulary where
  text _ := True
  name n := n ≠ "while$".toList
  builtin _ := True

instance : DecidablePred loopless.text := fun _ => .isTrue trivial

instance : DecidablePred loopless.name := fun n => inferInstanceAs (Decidable (n ≠ _))

/-- A style without loops and with one call of a function, which runs the block. -/
def Program.selfSample : Program :=
  [⟨.function "f".toList (.block selfBody :: selfBody), ⟨0, .bare 0, .bare 0⟩⟩,
    ⟨.execute "f".toList, ⟨0, .bare 0, .bare 0⟩⟩]

def Interpreter.selfSample : Interpreter :=
  ((Interpreter.fresh {} (.memory .empty) .willing).withDeclared
    [(.function (.block selfBody :: selfBody), ["f".toList])]).2

theorem unfinished_selfSample (fuel : Nat) {s : Scene} (hs : s.depth < maxDepth) :
    runName fuel "f".toList s Interpreter.selfSample.machine = .unfinished := by
  have hbound : Interpreter.selfSample.machine.bindings.get? "f".toList =
      some (.function (.block selfBody :: selfBody)) := rfl
  have hknows : Interpreter.selfSample.machine.KnowsSelfBody := ⟨rfl, rfl, rfl, rfl⟩
  cases fuel with
  | zero => rfl
  | succ fuel =>
    rw [runName_of_get? hbound, runBinding, Run.calling_eq, Run.calling_apply, if_neg (by omega)]
    exact unfinished_selfBody fuel { s with depth := s.depth + 1 } hknows _

/-- **A block that runs itself is not cut off.** No fuel is enough for the style, although there is
no loop in it. -/
theorem not_ends_selfSample : Program.selfSample.Within loopless ∧
    ¬ ∃ fuel r i',
      (Interpreter.fresh {} (.memory .empty) .willing).run fuel Program.selfSample [] [] =
        some (r, i') := by
  refine ⟨by decide, ?_⟩
  rintro ⟨fuel, r, i', hrun⟩
  have hfunction : Interpreter.selfSample.runFunction fuel none "f".toList = none := by
    rw [Interpreter.runFunction, unfinished_selfSample fuel (by decide)]
  have hdeclared : ({ Interpreter.fresh {} (.memory .empty) .willing with citations := [] } :
      Interpreter).runCommand fuel [] ⟨.function "f".toList (.block selfBody :: selfBody),
        ⟨0, .bare 0, .bare 0⟩⟩ = some (.ok (), Interpreter.selfSample) := rfl
  have hnone : Interpreter.runCommands fuel [] Program.selfSample
      { Interpreter.fresh {} (.memory .empty) .willing with citations := [] } = none := by
    rw [Program.selfSample, Interpreter.runCommands_cons, hdeclared]
    dsimp only
    rw [Interpreter.runCommands_cons, Interpreter.runCommand_eq]
    dsimp only
    rw [hfunction]
  rw [Interpreter.run, hnone] at hrun
  cases hrun

end Bibliography.Style
