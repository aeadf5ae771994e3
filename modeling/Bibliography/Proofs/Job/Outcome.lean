import Bibliography.Job.Basic
import Bibliography.Proofs.Files.Writing
import Bibliography.Proofs.Run.Blame
import Bibliography.Proofs.Run.Changes

set_option autoImplicit false

/-! # What a job leaves behind

A job can fail at many places: at the aux files, at the style, in any command of the style, and when
the bibliography is written. Wherever it does, one error is reported, behind what was reported up to
then, and no file has changed. Nothing that is reported before is an error: a style can only warn
and inform (`Interpreter.calm_kept`). So the bibliography was written exactly if no error was
reported, and then it is what the style handed to its sink.

Main statement: `written_iff_no_error`.
-/

namespace Bibliography

/-! ## Errors -/

/-- Among some diagnostics there is no error. -/
def Diagnostic.Calm (ds : List Diagnostic) : Prop := ∀ d ∈ ds, d.severity ≠ .error

theorem Diagnostic.Calm.append {ds ds' : List Diagnostic} (h : Calm ds) (h' : Calm ds') :
    Calm (ds ++ ds') :=
  List.forall_mem_append.2 ⟨h, h'⟩

namespace Style

theorem Machine.Step.calm {current : Option Text} {m m' : Machine}
    (h : Machine.Step current m m') (hm : Diagnostic.Calm m.diagnostics) :
    Diagnostic.Calm m'.diagnostics := by
  cases h with
  | report d hd => exact hm.append (List.forall_mem_singleton.2 hd)
  | stack _ | pending _ | emit _ | integer _ _ | string _ _ | entryVariables _ _ => exact hm

/-- What reading a database reports are warnings. -/
theorem Interpreter.calm_settled {i : Interpreter} (h : Diagnostic.Calm i.machine.diagnostics)
    (d : Database) : Diagnostic.Calm (i.settled d).machine.diagnostics := by
  refine h.append (Diagnostic.Calm.append ?_ ?_)
  · intro w hw
    obtain ⟨key, -, rfl⟩ := List.mem_map.1 hw
    exact nofun
  · intro w hw
    obtain ⟨p, -, rfl⟩ := List.mem_map.1 hw
    exact nofun

/-- A style reports no errors: what it fails with is its result. -/
theorem Interpreter.calm_kept :
    Interpreter.Kept fun i => Diagnostic.Calm i.machine.diagnostics where
  change i j hchange h := by
    cases hchange with
    | declared _ _ | abbreviations _ | unread _ _ => exact h
    | read warnings d _ => exact Interpreter.calm_settled h d
    | step _ hstep => exact hstep.calm h
  sort _ _ h := h

end Style

namespace Job

open Style (Interpreter)

/-! ## Jobs in a file tree -/

/-- What reading the databases of a job gave. -/
def texts (j : Job) (aux : AuxContents) (t : FileTree) : List (Path × Except FileError Text) :=
  (aux.databases.map (Source.bibPath j.directory)).map fun p => (p, t.read p)

theorem run_bind {α β : Type} {x : StateM FileTree α} {f : α → StateM FileTree β}
    {t t' : FileTree} {a : α} (h : x.run t = (a, t')) : (x >>= f).run t = (f a).run t' := by
  rw [StateT.run_bind, h]
  rfl

theorem run_readEach (t : FileTree) (ps : List Path) :
    (readEach FileTree.access ps).run t = (ps.map fun p => (p, t.read p), t) := by
  induction ps with
  | nil => rfl
  | cons p ps ih =>
    have hread : (FileTree.access.read p).run t = (t.read p, t) := rfl
    rw [readEach, run_bind hread, run_bind ih]
    rfl

theorem run_find (t : FileTree) (style : Text) (directory : Path) (directories : List Path) :
    (StyleFile.find FileTree.access style directory directories).run t =
      ((StyleFile.candidates style directory directories).find? t.isFile, t) := by
  rw [StyleFile.find]
  induction StyleFile.candidates style directory directories with
  | nil => rfl
  | cons p ps ih =>
    have hfile : (FileTree.access.isFile p).run t = (t.isFile p, t) := rfl
    rw [StyleFile.firstFile, run_bind hfile, List.find?_cons]
    cases t.isFile p with
    | true => rfl
    | false => exact ih

/-- Writing changes the tree if it succeeds. -/
theorem run_write (t : FileTree) (p : Path) (s : Text) :
    (FileTree.access.write p s).run t =
      match t.write p s with
      | .error e => (.error e, t)
      | .ok t' => (.ok (), t') := by
  have hget : (get : StateM FileTree FileTree).run t = (t, t) := rfl
  rw [FileTree.access, run_bind hget]
  cases t.write p s <;> rfl

/-! ## Where the entries come from -/

theorem lookup_map_of_mem {ps : List Path} {p : Path} (f : Path → Except FileError Text)
    (h : p ∈ ps) : (ps.map fun p => (p, f p)).lookup p = some (f p) := by
  induction ps with
  | nil => cases h
  | cons q ps ih =>
    rw [List.map_cons, List.lookup_cons]
    by_cases hpq : p = q
    · subst hpq
      simp
    · rw [beq_eq_false_iff_ne.2 hpq]
      exact ih ((List.mem_cons.1 h).resolve_left hpq)

/-- Only the files that are named matter. -/
theorem loadFiles_congr {directory : Path} {read read' : Path → Except FileError Text}
    {names : List Text}
    (h : ∀ p ∈ names.map (Source.bibPath directory), read p = read' p) (a : Abbreviations)
    (d : Database) :
    Source.loadFiles directory read a names d = Source.loadFiles directory read' a names d := by
  induction names generalizing d with
  | nil => rfl
  | cons name names ih =>
    rw [List.map_cons, List.forall_mem_cons] at h
    simp only [Source.loadFiles, h.1, ih h.2]

/-- The files that a job has read before the style runs give the entries that the tree gives. -/
theorem load_sourceOf (j : Job) (aux : AuxContents) (t : FileTree) (a : Abbreviations) :
    (sourceOf j.directory (j.texts aux t)).load aux.databases a =
      (Source.files j.directory t.read).load aux.databases a := by
  refine loadFiles_congr (fun p hp => ?_) a _
  rw [texts, lookup_map_of_mem t.read hp]
  rfl

/-! ## How a job ends -/

/-- The style that the aux files ask for ended well with the interpreter `i`, for the citations
that they ask for and with entries from the databases in the tree. -/
inductive Completes (fuel : Nat) (j : Job) (t : FileTree) (i : Interpreter) : Prop where
  | intro {aux : AuxContents} {path : Path} {text : Text} {p : Style.Program} {source : Source}
      (asked : AuxContents.read t j.aux = .ok aux)
      (found : (StyleFile.candidates (aux.style.getD []) j.directory j.styleDirectories).find?
        t.isFile = some path)
      (style : t.read path = .ok text)
      (program : Style.Program.ofText text 0 = .ok p)
      (entries : ∀ a, source.load aux.databases a =
        (Source.files j.directory t.read).load aux.databases a)
      (ran : (Interpreter.fresh j.options source .willing).run fuel p aux.citations aux.databases =
        some (.ok (), i))

/-- A job ends with a report and a tree: it fails with one error more than was reported and with
the tree as it was, or completes and writes what its style handed to the sink. -/
inductive Ended (fuel : Nat) (j : Job) (t : FileTree) (r : JobReport) (t' : FileTree) : Prop where
  | failed {before : List Diagnostic} {d : Diagnostic} (written : r.written = false)
      (diagnostics : r.diagnostics = before ++ [d]) (calm : Diagnostic.Calm before)
      (error : d.severity = .error) (tree : t' = t)
  | completed {i : Interpreter} (written : r.written = true) (completes : j.Completes fuel t i)
      (diagnostics : r.diagnostics = i.machine.diagnostics)
      (calm : Diagnostic.Calm i.machine.diagnostics)
      (tree : t.write j.outputPath i.machine.sink.written = .ok t')

/-- A job that starts to report has written nothing and reported nothing. -/
structure Starts (j : Job) (r : JobReport) : Prop where
  outputPath : r.outputPath = j.outputPath
  written : r.written = false
  diagnostics : r.diagnostics = []

variable {fuel : Nat} {j : Job} {aux : AuxContents} {t t' : FileTree} {r r' : JobReport}

theorem Starts.ended_fail (hr : j.Starts r) {d : Diagnostic} (hd : d.severity = .error) :
    j.Ended fuel t (r.fail d) t := by
  refine Ended.failed hr.written ?_ (List.forall_mem_nil _) hd rfl
  rw [JobReport.fail, hr.diagnostics]

theorem ended_runProgram {path : Path} {text : Text} {p : Style.Program} (hr : j.Starts r)
    (asked : AuxContents.read t j.aux = .ok aux)
    (found : (StyleFile.candidates (aux.style.getD []) j.directory j.styleDirectories).find?
      t.isFile = some path)
    (style : t.read path = .ok text) (program : Style.Program.ofText text 0 = .ok p)
    (h : (runProgram FileTree.access fuel j aux r p).run t = (some r', t')) :
    j.Ended fuel t r' t' := by
  have htexts : (readEach FileTree.access (aux.databases.map (Source.bibPath j.directory))).run t =
      (j.texts aux t, t) := run_readEach t _
  rw [runProgram, run_bind htexts] at h
  cases hrun : (Interpreter.fresh j.options (sourceOf j.directory (j.texts aux t)) .willing).run
      fuel p aux.citations aux.databases with
  | none =>
    simp only [hrun] at h
    cases h
  | some q =>
    obtain ⟨result, i⟩ := q
    have hnone : Diagnostic.Calm [] := List.forall_mem_nil _
    have hcalm : Diagnostic.Calm i.machine.diagnostics := Interpreter.calm_kept.run hnone hrun
    simp only [hrun] at h
    cases result with
    | error e =>
      cases h
      exact Ended.failed hr.written rfl hcalm e.severity_diagnostic rfl
    | ok u =>
      cases hwrite : t.write r.outputPath i.machine.sink.written with
      | error e =>
        have hfailed : (FileTree.access.write r.outputPath i.machine.sink.written).run t =
            (.error e, t) := by rw [run_write, hwrite]
        dsimp only at h
        rw [run_bind hfailed] at h
        cases h
        exact Ended.failed hr.written rfl hcalm rfl rfl
      | ok t₁ =>
        have hdone : (FileTree.access.write r.outputPath i.machine.sink.written).run t =
            (.ok (), t₁) := by rw [run_write, hwrite]
        dsimp only at h
        rw [run_bind hdone] at h
        cases h
        rw [hr.outputPath] at hwrite
        exact Ended.completed rfl ⟨asked, found, style, program, load_sourceOf j aux t, hrun⟩ rfl
          hcalm hwrite

theorem ended_runStyle (hr : j.Starts r) (asked : AuxContents.read t j.aux = .ok aux)
    (h : (runStyle FileTree.access fuel j aux r).run t = (some r', t')) :
    j.Ended fuel t r' t' := by
  rw [runStyle, run_bind (run_find t _ _ _)] at h
  cases found : (StyleFile.candidates (aux.style.getD []) j.directory j.styleDirectories).find?
      t.isFile with
  | none =>
    simp only [found] at h
    cases h
    exact hr.ended_fail rfl
  | some path =>
    have hread : (FileTree.access.read path).run t = (t.read path, t) := rfl
    simp only [found] at h
    rw [run_bind hread] at h
    cases style : t.read path with
    | error e =>
      rw [style] at h
      cases h
      exact hr.ended_fail rfl
    | ok text =>
      have hstarts : j.Starts { r with sources := [⟨path, some text⟩] } :=
        ⟨hr.outputPath, hr.written, hr.diagnostics⟩
      simp only [style] at h
      cases program : Style.Program.ofText text 0 with
      | error q =>
        obtain ⟨fault, span⟩ := q
        simp only [program] at h
        cases h
        exact hstarts.ended_fail rfl
      | ok p =>
        simp only [program] at h
        exact ended_runProgram hstarts asked found style program h

/-- A job that gives a report fails with one error, or completes and writes. -/
theorem ended_run (h : (run FileTree.jobAccess fuel j).run t = (some r, t')) :
    j.Ended fuel t r t' := by
  have haux : (FileTree.jobAccess.readAux j.aux).run t = (AuxContents.read t j.aux, t) := rfl
  have hstarts : j.Starts { outputPath := j.outputPath } := ⟨rfl, rfl, rfl⟩
  rw [run, run_bind haux] at h
  cases asked : AuxContents.read t j.aux with
  | error e =>
    rw [asked] at h
    cases h
    exact hstarts.ended_fail rfl
  | ok aux =>
    rw [asked] at h
    exact ended_runStyle hstarts asked h

/-- **A bibliography is written exactly if nothing failed.** If a job gives a report, the report
says that the bibliography was written exactly if there is no error among its diagnostics. If it was
not written, the last diagnostic is an error, the only one, and no file has changed. If it was, the
style ended well, the diagnostics are those that it reported, and one place in the tree has changed:
it is that of the output, and what can be read there is what the style handed to its sink. -/
theorem written_iff_no_error (h : (run FileTree.jobAccess fuel j).run t = (some r, t')) :
    (r.written = true ↔ ∀ d ∈ r.diagnostics, d.severity ≠ .error) ∧
    (r.written = false → t' = t ∧ ∃ before d, r.diagnostics = before ++ [d] ∧
      d.severity = .error ∧ ∀ d ∈ before, d.severity ≠ .error) ∧
    (r.written = true → ∃ i place, j.Completes fuel t i ∧
      r.diagnostics = i.machine.diagnostics ∧
      t.placeForWriting j.outputPath = .ok place ∧
      t'.node? place = some (.file i.machine.sink.written) ∧
      t'.read j.outputPath = .ok i.machine.sink.written ∧
      ∀ other, other ≠ place → t'.node? other = t.node? other) := by
  cases ended_run h with
  | @failed before d written diagnostics calm error tree =>
    refine ⟨?_, fun _ => ⟨tree, before, d, diagnostics, error, calm⟩, ?_⟩
    · rw [written, diagnostics]
      constructor
      · nofun
      · intro hcalm
        exact absurd error (hcalm d (by simp))
    · rw [written]
      nofun
  | @completed i written completes diagnostics calm tree =>
    obtain ⟨place, hplace, hnode, hothers, hread⟩ := FileTree.exists_place_of_write tree
    refine ⟨?_, ?_, fun _ => ⟨i, place, completes, diagnostics, hplace, hnode, hread, hothers⟩⟩
    · rw [diagnostics]
      exact ⟨fun _ => calm, fun _ => written⟩
    · rw [written]
      nofun

/-- A document that cites an entry that is in no database, with a style that writes a quotation
mark. -/
def sampleTree : FileTree :=
  [(["doc.aux".toList], .file
      "\\citation\x7bx\x7d\\bibdata\x7bb\x7d\\bibstyle\x7bs\x7d".toList),
    (["b.bib".toList], .file []),
    (["s.bst".toList], .file "READ EXECUTE\x7bquote$\x7d EXECUTE\x7bwrite$\x7d".toList)]

def sampleJob : Job := { aux := "doc.aux".toList }

/-- A warning does not keep the bibliography from being written. -/
theorem written_sampleTree :
    ∃ r t', (run FileTree.jobAccess 2 sampleJob).run sampleTree = (some r, t') ∧
      r.diagnostics.length = 1 ∧ (∀ d ∈ r.diagnostics, d.severity ≠ .error) ∧
      t'.read sampleJob.outputPath = .ok "\"\n".toList := by
  obtain ⟨r, hr⟩ := Option.isSome_iff_exists.1
    (show ((run FileTree.jobAccess 2 sampleJob).run sampleTree).1.isSome = true by decide +kernel)
  have hrun : (run FileTree.jobAccess 2 sampleJob).run sampleTree =
      (some r, ((run FileTree.jobAccess 2 sampleJob).run sampleTree).2) := Prod.ext hr rfl
  have hreport : ((run FileTree.jobAccess 2 sampleJob).run sampleTree).1.all
      (fun r => r.written && r.diagnostics.length == 1) = true := by decide +kernel
  rw [hr, Option.all_some, Bool.and_eq_true, beq_iff_eq] at hreport
  obtain ⟨hiff, -, hwritten⟩ := written_iff_no_error hrun
  obtain ⟨i, place, -, -, -, -, hread, -⟩ := hwritten hreport.1
  have htext : (((run FileTree.jobAccess 2 sampleJob).run sampleTree).2.read
      sampleJob.outputPath).toOption = some "\"\n".toList := by decide +kernel
  rw [hread] at htext
  exact ⟨r, _, hrun, hreport.2, hiff.1 hreport.1, hread.trans (congrArg _ (Option.some.inj htext))⟩

end Job

end Bibliography
