import Bibliography.Proofs.Citations.Crossrefs
import Bibliography.Proofs.Run.Blame
import Bibliography.Proofs.Run.Changes
import Bibliography.Proofs.Text.Order

set_option autoImplicit false

/-! # The citations from reading on

Reading settles which entries are cited. From then on they only change places, each is in the
database and each has its variables (`CitationsKept`): functions assign to variables of the entry
that is current, which is a citation, and sorting moves the citations and nothing else. So while a
function runs for a citation, there is an entry, and the fault that there is none cannot occur.

Main statement: `citations_kept_from_read`.
-/

namespace Bibliography.Style

open Text (IsStableSort isStableSort_mergeSort)

/-! ## Variables of entries -/

/-- A step gives variables to no entry that has none, if the current entry has some. -/
theorem Machine.Step.names_entryVariables {current : Option Text} {m m' : Machine}
    (h : Machine.Step current m m')
    (hcurrent : ∀ key, current = some key → key.fold ∈ m.entryVariables.names) :
    m'.entryVariables.names = m.entryVariables.names := by
  cases h with
  | entryVariables vars hkey => rw [Table.names_set, if_pos (hcurrent _ hkey)]
  | stack _ | pending _ | report _ _ | emit _ | integer _ _ | string _ _ => rfl

/-- Keys of which no two are spellings of one are set one behind the other. -/
theorem names_foldl_set {keys : List Text} {t : Table EntryVariables}
    (h : (t.names ++ keys.map Text.fold).Nodup) :
    (keys.foldl (fun t key => t.set key.fold {}) t).names = t.names ++ keys.map Text.fold := by
  induction keys generalizing t with
  | nil => simp
  | cons key keys ih =>
    have hnew : key.fold ∉ t.names := by
      intro hmem
      exact (List.nodup_append.1 h).2.2 _ hmem _ (by simp) rfl
    have hset : (t.set key.fold {}).names = t.names ++ [key.fold] := by
      rw [Table.names_set, if_neg hnew]
    rw [List.foldl_cons, ih, hset, List.append_assoc]
    · rfl
    · rw [hset, List.append_assoc]
      exact h

namespace Interpreter

/-! ## What is kept from reading on -/

/-- The interpreter has read a database, and its citations are those of the list `cited`, perhaps in
another order. No two are spellings of one, each has an entry, and the entries that have variables
are the cited ones. -/
structure CitationsKept (cited : List Text) (i : Interpreter) : Prop where
  read : i.readSeen = true
  perm : i.citations.Perm cited
  distinct : (i.citations.map Text.fold).Nodup
  known : ∀ key ∈ i.citations, i.data.contains key = true
  owners : i.machine.entryVariables.names.Perm (i.citations.map Text.fold)

namespace CitationsKept

variable {cited : List Text} {i j : Interpreter}

theorem settled (hread : i.readSeen = true) (d : Database) :
    CitationsKept (i.settled d).citations (i.settled d) := by
  have hdistinct : ((i.settled d).citations.map Text.fold).Nodup :=
    nodup_map_fold_append_addedParents i.options (nodup_map_fold_expandCitations d _)
  have hnames : (i.settled d).machine.entryVariables.names =
      (i.settled d).citations.map Text.fold := names_foldl_set (t := []) hdistinct
  exact
    { read := hread
      perm := List.Perm.refl _
      distinct := hdistinct
      known := contains_of_mem_append_addedParents i.options fun _ =>
        contains_of_mem_expandCitations
      owners := hnames ▸ List.Perm.refl _ }

/-- What reading cites is kept at first. -/
theorem of_read {fuel : Nat} {bibFiles : List Text} {c : LocatedCommand} (hc : c.command = .read)
    (h : i.runCommand fuel bibFiles c = some (.ok (), j)) : CitationsKept j.citations j := by
  obtain ⟨command, span⟩ := c
  subst hc
  have hread : i.read bibFiles span = (.ok (), j) := Option.some.inj h
  rw [Interpreter.read] at hread
  split at hread
  · cases hread
  · dsimp only at hread
    split at hread
    · cases hread
    · cases hread
      exact settled rfl _

theorem sortCitations (h : CitationsKept cited i) : CitationsKept cited i.sortCitations := by
  have hperm : i.sortCitations.citations.Perm i.citations := List.mergeSort_perm _ _
  have hfolded := hperm.map Text.fold
  exact
    { read := h.read
      perm := hperm.trans h.perm
      distinct := hfolded.nodup_iff.2 h.distinct
      known := fun key hkey => h.known key (hperm.mem_iff.1 hkey)
      owners := h.owners.trans hfolded.symm }

/-- Nothing adds or takes away a citation. -/
theorem kept (cited : List Text) : Kept (CitationsKept cited) where
  change i j hchange h := by
    cases hchange with
    | declared _ _ | abbreviations _ => exact { h with }
    | unread _ hread | read _ _ hread => exact absurd h.read (by simp [hread])
    | @step current m hcurrent hstep =>
      -- the current entry is a citation, and citations have variables already
      have hnames := hstep.names_entryVariables fun key hkey => by
        subst hkey
        exact h.owners.mem_iff.2 (List.mem_map_of_mem hcurrent.2)
      exact { h with owners := hnames ▸ h.owners }
  sort _ _ h := h.sortCitations

end CitationsKept

/-! ## The citations between two sortings -/

theorem Change.citations_eq {i j : Interpreter} (h : Change i j) (hread : i.readSeen = true) :
    j.readSeen = true ∧ j.citations = i.citations := by
  cases h with
  | declared _ _ | abbreviations _ | step _ _ => exact ⟨hread, rfl⟩
  | unread _ hunread | read _ _ hunread => exact absurd hread (by simp [hunread])

theorem Changes.citations_eq {i j : Interpreter} (h : Changes i j) (hread : i.readSeen = true) :
    j.readSeen = true ∧ j.citations = i.citations := by
  induction h with
  | refl => exact ⟨hread, rfl⟩
  | tail _ hchange ih =>
    obtain ⟨hread', heq⟩ := ih
    obtain ⟨hread'', heq'⟩ := hchange.citations_eq hread'
    exact ⟨hread'', heq'.trans heq⟩

variable {fuel : Nat} {bibFiles : List Text} {i j k : Interpreter}

/-- Commands among which there is no sorting go by changes. -/
theorem changes_of_runCommands {p : Program} (hp : ∀ c ∈ p, c.command ≠ .sort)
    (h : runCommands fuel bibFiles p i = some (.ok (), j)) : Changes i j := by
  refine runCommands_induction
    (I := fun cs l => (∀ c ∈ cs, c.command ≠ .sort) ∧ Changes i l)
    (E := fun end? => ∀ j, end? = some (.ok (), j) → Changes i j) ?_ ?_ ?_ ?_
    ⟨hp, Relation.ReflTransGen.refl⟩ j h
  · rintro l ⟨-, hl⟩ j ⟨⟩
    exact hl
  · rintro c cs l l' ⟨hcs, hl⟩ hrun
    refine ⟨fun d hd => hcs d (List.mem_cons_of_mem _ hd), hl.trans ?_⟩
    exact changes_of_runCommand (hcs c List.mem_cons_self) hrun
  · intro c cs l l' b _ _ j hj
    cases hj
  · intro c cs l _ _ j hj
    cases hj

/-- Sorting by the same texts again, with no sorting in between, moves nothing. -/
theorem sortCitations_eq_self {p : Program} (hp : ∀ c ∈ p, c.command ≠ .sort)
    (hread : i.readSeen = true)
    (hrun : runCommands fuel bibFiles p i.sortCitations = some (.ok (), j))
    (hkeys : ∀ key ∈ j.citations,
      sortKeyOf j.machine.entryVariables key = sortKeyOf i.machine.entryVariables key) :
    j.sortCitations = j := by
  obtain ⟨-, hcitations⟩ := (changes_of_runCommands hp hrun).citations_eq hread
  have hsorted : j.citations.Pairwise fun a b => (sortKeyOf i.machine.entryVariables a).le
      (sortKeyOf i.machine.entryVariables b) = true := by
    rw [hcitations]
    exact (isStableSort_mergeSort _ i.citations).ascending
  have hmerge : j.citations.mergeSort (fun a b =>
      (sortKeyOf j.machine.entryVariables a).le (sortKeyOf j.machine.entryVariables b)) =
      j.citations := by
    refine List.mergeSort_of_pairwise (hsorted.imp_of_mem ?_)
    intro a b ha hb hab
    rw [hkeys a ha, hkeys b hb]
    exact hab
  rw [sortCitations, hmerge]

/-! ## The entry that is current -/

theorem Rounds.exists_machine {name : Text} {keys : List Text} (h : Rounds fuel name keys i j) :
    ∃ m, j = { i with machine := m } := by
  induction h with
  | nil i => exact ⟨i.machine, rfl⟩
  | cons hfirst _ ih =>
    obtain ⟨m, -, rfl⟩ := exists_reaches_of_runFunction hfirst
    obtain ⟨m', rfl⟩ := ih
    exact ⟨m', rfl⟩

/-- A function that runs for an entry does not fail because there is none. -/
theorem wantsEntry_of_runFunction {key name : Text} {f : Fault}
    (hkey : i.data.contains key = true)
    (h : i.runFunction fuel (some key) name = some (.error f, j)) : f.wantsEntry = false := by
  obtain ⟨m, hfailed, -⟩ := of_runFunction_eq_error h
  exact failsWith_runName fuel name _ _ f m (grounded_scene hkey) hfailed

/-- A command that fails for an entry does not fail because it is not there. -/
theorem CitationsKept.wantsEntry_eq_false {cited : List Text} (h : CitationsKept cited i)
    {c : Command} {key : Text} {f : Fault} (hfails : i.FailsFor fuel c key f j) :
    f.wantsEntry = false := by
  obtain ⟨hvisits, -, -, hbefore, hfailed⟩ := hfails
  obtain ⟨m, rfl⟩ := hbefore.exists_machine
  have hkey : key ∈ i.citations := mem_citations_of_visits hvisits (by simp)
  have hknown : ({ i with machine := m } : Interpreter).data.contains key = true :=
    h.known key hkey
  exact wantsEntry_of_runFunction hknown hfailed

/-! ## Whole runs -/

theorem readSeen_of_runCommand {c : LocatedCommand} (hc : c.command ≠ .read)
    (h : i.runCommand fuel bibFiles c = some (.ok (), j)) : j.readSeen = i.readSeen := by
  cases performs_of_runCommand h with
  | declared _ _ _ | abbreviation _ | sorted _ _ => rfl
  | read _ _ hread _ => exact absurd hread hc
  | executed _ hrun =>
    obtain ⟨m, -, rfl⟩ := exists_reaches_of_runFunction hrun
    rfl
  | iterated _ _ _ hrun =>
    obtain ⟨m, rfl⟩ := (iterate_eq_ok_iff.1 hrun).exists_machine
    rfl

/-- Once a database has been read, there are citations that are kept. -/
theorem exists_citationsKept {p : Program} (hunread : i.readSeen = false)
    (h : runCommands fuel bibFiles p i = some (.ok (), k)) (hread : k.readSeen = true) :
    ∃ cited, CitationsKept cited k := by
  induction p generalizing i with
  | nil =>
    cases h
    cases hread.symm.trans hunread
  | cons c p ih =>
    rw [runCommands_cons] at h
    split at h
    · cases h
    · cases h
    · next j hfirst =>
      by_cases hc : c.command = .read
      · exact ⟨j.citations, (CitationsKept.kept _).runCommands (.of_read hc hfirst) h⟩
      · exact ih ((readSeen_of_runCommand hc hfirst).trans hunread) h

/-- A row of commands that reads a database at `c` goes on behind it as the rest does. -/
theorem kept_of_run {i₀ : Interpreter} {requested : List Text} {I : Interpreter → Prop}
    (hI : Kept I) {before after : Program} {c : LocatedCommand} {r : Except Fault Unit}
    (hbefore : runCommands fuel bibFiles before { i₀ with citations := requested } =
      some (.ok (), i))
    (hc : i.runCommand fuel bibFiles c = some (.ok (), j)) (hj : I j)
    (hrun : i₀.run fuel (before ++ c :: after) requested bibFiles = some (r, k)) : I k := by
  have hall : runCommands fuel bibFiles (before ++ c :: after) { i₀ with citations := requested } =
      runCommands fuel bibFiles after j := by
    rw [runCommands_append, hbefore]
    show runCommands fuel bibFiles (c :: after) i = _
    rw [runCommands_cons, hc]
  rw [run, hall] at hrun
  split at hrun
  · next l hafter =>
    have hflush : l.flush = (r, k) := Option.some.inj hrun
    have hk := hI.flush (hI.runCommands hj hafter)
    rwa [hflush] at hk
  · exact hI.runCommands hj hrun

/-- **From reading on, the citations only change places, and each has its entry.** A fresh
interpreter never blames an entry for not being there. Whatever commands follow the one that reads
the database, and wherever they end, the citations are those that were read, each in the database,
and the entries with variables are just these. Between commands, sorting succeeds and sorts the
citations stably by the texts in their variables, and doing so again without new such texts changes
nothing; an iteration that succeeds has run its function for each citation in order, or in the
reverse order. -/
theorem citations_kept_from_read (fuel : Nat) (options : Options) (source : Source)
    (answers : SinkAnswers) (requested bibFiles : List Text) :
    (∀ p word key span f k, (fresh options source answers).run fuel p requested bibFiles =
        some (.error (.inCommand word (some key) span f), k) →
      ∀ function, f.root ≠ .noCurrentEntry function) ∧
    ∀ before c i j, c.command = .read →
      runCommands fuel bibFiles before
        { fresh options source answers with citations := requested } = some (.ok (), i) →
      i.runCommand fuel bibFiles c = some (.ok (), j) →
      (∀ after r k,
        (fresh options source answers).run fuel (before ++ c :: after) requested bibFiles =
          some (r, k) → CitationsKept j.citations k) ∧
      (∀ p r k, runCommands fuel bibFiles p j = some (r, k) → CitationsKept j.citations k) ∧
      ∀ p k, runCommands fuel bibFiles p j = some (.ok (), k) →
        (∀ span, k.runCommand fuel bibFiles ⟨.sort, span⟩ = some (.ok (), k.sortCitations)) ∧
        IsStableSort (sortKeyOf k.machine.entryVariables) k.citations k.sortCitations.citations ∧
        (∀ q l, (∀ c ∈ q, c.command ≠ .sort) →
          runCommands fuel bibFiles q k.sortCitations = some (.ok (), l) →
          (∀ key ∈ l.citations,
            sortKeyOf l.machine.entryVariables key = sortKeyOf k.machine.entryVariables key) →
          ∀ span, l.runCommand fuel bibFiles ⟨.sort, span⟩ = some (.ok (), l)) ∧
        (∀ name span l, k.runCommand fuel bibFiles ⟨.iterate name, span⟩ = some (.ok (), l) →
          Rounds fuel name k.citations k l) ∧
        ∀ name span l, k.runCommand fuel bibFiles ⟨.reverse name, span⟩ = some (.ok (), l) →
          Rounds fuel name k.citations.reverse k l := by
  refine ⟨?_, fun before c i j hc hbefore hread => ?_⟩
  · rintro p word key span f k hrun function hf
    obtain hrun | ⟨j, -, hflush⟩ := runCommands_or_flush_of_run_eq_error hrun
    · obtain ⟨before, c, after, j, g, rfl, hbefore, hfailed, he⟩ :=
        exists_of_runCommands_eq_error hrun
      obtain ⟨key?, f', hwithin, harises, hblames⟩ := exists_inCommand_of_runCommand hfailed
      cases he.trans hwithin
      -- an entry is to blame only if the database has been read, and then citations are kept
      have hfails := (hblames key).1 rfl
      obtain ⟨cited, hj⟩ := exists_citationsKept rfl hbefore hfails.readSeen
      have hwants := hj.wantsEntry_eq_false hfails
      rw [Fault.root_of_bare harises.bare] at hf
      rw [hf] at hwants
      cases hwants
    · cases ofLine_of_flush_eq_error hflush
  · have hj : CitationsKept j.citations j := .of_read hc hread
    have hkept := CitationsKept.kept j.citations
    have hsort (k : Interpreter) (hk : k.readSeen = true) (span : SourceSpan) :
        k.runCommand fuel bibFiles ⟨.sort, span⟩ = some (.ok (), k.sortCitations) := by
      rw [runCommand_eq, Interpreter.sort, if_pos hk]
    refine ⟨fun after r k hrun => kept_of_run hkept hbefore hread hj hrun,
      fun p r k hrun => hkept.runCommands hj hrun, fun p k hrun => ?_⟩
    have hk := hkept.runCommands hj hrun
    refine ⟨hsort k hk.read, isStableSort_mergeSort _ _, ?_, ?_, ?_⟩
    · intro q l hq hrun' hkeys span
      rw [hsort l (hkept.runCommands hk.sortCitations hrun').read,
        sortCitations_eq_self hq hk.read hrun' hkeys]
    · intro name span l hrun'
      exact (iterateCommand_eq_ok_iff.1 hrun').2.2
    · intro name span l hrun'
      exact (iterateCommand_eq_ok_iff.1 hrun').2.2

def sortByKey : Program :=
  [⟨.function "f".toList [.name "cite$".toList, .quoted sortKey, .name ":=".toList],
      ⟨0, .bare 0, .bare 33⟩⟩, ⟨.read, ⟨0, .bare 34, .bare 38⟩⟩,
    ⟨.iterate "f".toList, ⟨0, .bare 39, .bare 50⟩⟩]

abbrev Descends (k : Interpreter) : Prop :=
  k.citations = ["parent".toList, "CHILD".toList] ∧
    sortKeyOf k.machine.entryVariables "parent".toList = "parent".toList ∧
    sortKeyOf k.machine.entryVariables "CHILD".toList = "CHILD".toList

theorem runs_sortByKey :
    ∃ i j k, runCommands 2 [] (sortByKey.take 1)
        { fresh { crossrefOrder := .firstReference } (.memory sampleDatabase) .willing with
          citations := ["parent".toList, "CHILD".toList] } = some (.ok (), i) ∧
      i.runCommand 2 [] ⟨.read, ⟨0, .bare 34, .bare 38⟩⟩ = some (.ok (), j) ∧
      runCommands 2 [] (sortByKey.drop 2) j = some (.ok (), k) ∧ k.Descends := by
  let iterated (j : Interpreter) : Bool := (runCommands 2 [] (sortByKey.drop 2) j).any fun q =>
    q.1.isOk && decide q.2.Descends
  let read (i : Interpreter) : Bool :=
    (i.runCommand 2 [] ⟨.read, ⟨0, .bare 34, .bare 38⟩⟩).any fun q => q.1.isOk && iterated q.2
  obtain ⟨i, hbefore, hi⟩ := exists_of_any_isOk (P := read)
    (x := runCommands 2 [] (sortByKey.take 1)
      { fresh { crossrefOrder := .firstReference } (.memory sampleDatabase) .willing with
        citations := ["parent".toList, "CHILD".toList] }) (by decide +kernel)
  obtain ⟨j, hread, hj⟩ := exists_of_any_isOk (P := iterated) hi
  obtain ⟨k, hrun, hk⟩ := exists_of_any_isOk (P := fun k => decide k.Descends) hj
  exact ⟨i, j, k, hbefore, hread, hrun, of_decide_eq_true hk⟩

/-- Two citations in descending order change places once. -/
theorem citations_change_places :
    ∃ i j k, runCommands 2 [] (sortByKey.take 1)
        { fresh { crossrefOrder := .firstReference } (.memory sampleDatabase) .willing with
          citations := ["parent".toList, "CHILD".toList] } = some (.ok (), i) ∧
      i.runCommand 2 [] ⟨.read, ⟨0, .bare 34, .bare 38⟩⟩ = some (.ok (), j) ∧
      runCommands 2 [] (sortByKey.drop 2) j = some (.ok (), k) ∧
      CitationsKept j.citations k ∧
      IsStableSort (sortKeyOf k.machine.entryVariables) k.citations k.sortCitations.citations ∧
      k.citations = ["parent".toList, "CHILD".toList] ∧
      k.sortCitations.citations = ["CHILD".toList, "parent".toList] ∧
      k.sortCitations.runCommand 2 [] ⟨.sort, ⟨0, .bare 51, .bare 55⟩⟩ =
        some (.ok (), k.sortCitations) := by
  obtain ⟨i, j, k, hbefore, hread, hrun, hk, hparent, hchild⟩ := runs_sortByKey
  obtain ⟨-, hkept, hnext⟩ := (citations_kept_from_read 2 { crossrefOrder := .firstReference }
    (.memory sampleDatabase) .willing ["parent".toList, "CHILD".toList] []).2 (sortByKey.take 1)
    ⟨.read, ⟨0, .bare 34, .bare 38⟩⟩ i j rfl hbefore hread
  obtain ⟨-, hsorted, hagain, -⟩ := hnext (sortByKey.drop 2) k hrun
  refine ⟨i, j, k, hbefore, hread, hrun, hkept _ _ _ hrun, hsorted, hk, ?_, ?_⟩
  · have hdescending : (sortKeyOf k.machine.entryVariables "parent".toList).le
        (sortKeyOf k.machine.entryVariables "CHILD".toList) = false := by
      rw [hparent, hchild]
      decide
    rw [sortCitations, hk]
    simpa [List.mergeSort, List.cons_merge_cons] using hdescending
  · exact hagain [] _ nofun rfl (fun _ _ => rfl) _

end Interpreter

end Bibliography.Style
