import Bibliography.AuxFile.Reading

set_option autoImplicit false

/-! # Aux files that input each other

An input stands for the commands of another file where that file is input first, and for nothing
where it is input again. Expanding the inputs in this way (`AuxReading.Expands`) goes into a file
before it goes on behind the input, and comes to an end also when files input themselves or each
other, because every file that is opened takes one from the inputs of the tree that were not
opened before (`exists_expandsFile`). It is stopped by the first file that cannot be read.

Reading works through one row of commands instead, to which the commands of a file are added in
front (`AuxReading.advance`). It scans one file after the other (`AuxReading.Reads`), and none of
them twice.

Main statements: `exists_expandsFile`, `exists_scans`.
-/

namespace Bibliography

/-- Paths with the same components, the other way round. -/
theorem Path.same_comm (p q : Path) : Path.same p q = Path.same q p := by
  rw [Path.same, Path.same, Bool.beq_comm, Bool.beq_comm (a := p.isAbsolute)]

namespace AuxReading

/-- Commands, each with the file it stands in. -/
abbrev Commands := List (Path × AuxCommand)

/-! ## Expansion -/

/-- The commands `cs`, where the files `seen` were input before, stand for the commands `stream`,
and the files `seen'` were input afterwards. The expansion may be stopped by a file that cannot be
read. -/
inductive Expands (t : FileTree) (base : Path) :
    List Path → Commands → Commands → List Path → Option (Path × FileError) → Prop where
  | nil (seen : List Path) : Expands t base seen [] [] seen none
  /-- A command that inputs nothing stands for itself. -/
  | kept {seen seen' : List Path} {cs stream : Commands} {stop : Option (Path × FileError)}
      {file : Path} {c : AuxCommand} (hc : ∀ name, c ≠ .input name)
      (rest : Expands t base seen cs stream seen' stop) :
      Expands t base seen ((file, c) :: cs) ((file, c) :: stream) seen' stop
  /-- A file that is input again stands for nothing. -/
  | again {seen seen' : List Path} {cs stream : Commands} {stop : Option (Path × FileError)}
      {file : Path} {name : Text} (hseen : hasVisited seen (Path.join base name) = true)
      (rest : Expands t base seen cs stream seen' stop) :
      Expands t base seen ((file, .input name) :: cs) stream seen' stop
  | unreadable {seen : List Path} {cs : Commands} {file : Path} {name : Text} {e : FileError}
      (hseen : hasVisited seen (Path.join base name) = false)
      (hread : t.read (Path.join base name) = .error e) :
      Expands t base seen ((file, .input name) :: cs) [] (Path.join base name :: seen)
        (some (Path.join base name, e))
  /-- A file that is input first stands for its own commands. -/
  | opened {seen seen₁ seen' : List Path} {cs inner outer : Commands}
      {stop : Option (Path × FileError)} {file : Path} {name text : Text}
      (hseen : hasVisited seen (Path.join base name) = false)
      (hread : t.read (Path.join base name) = .ok text)
      (inside : Expands t base (Path.join base name :: seen)
        ((AuxCommand.all text).map (Path.join base name, ·)) inner seen₁ none)
      (rest : Expands t base seen₁ cs outer seen' stop) :
      Expands t base seen ((file, .input name) :: cs) (inner ++ outer) seen' stop
  | stopped {seen seen₁ : List Path} {cs inner : Commands} {stop : Path × FileError}
      {file : Path} {name text : Text}
      (hseen : hasVisited seen (Path.join base name) = false)
      (hread : t.read (Path.join base name) = .ok text)
      (inside : Expands t base (Path.join base name :: seen)
        ((AuxCommand.all text).map (Path.join base name, ·)) inner seen₁ (some stop)) :
      Expands t base seen ((file, .input name) :: cs) inner seen₁ (some stop)

/-- The expansion of the aux file of a document. -/
inductive ExpandsFile (t : FileTree) (path : Path) :
    Commands → List Path → Option (Path × FileError) → Prop where
  | unreadable {e : FileError} (hread : t.read path = .error e) :
      ExpandsFile t path [] [path] (some (path, e))
  | opened {text : Text} {stream : Commands} {seen : List Path}
      {stop : Option (Path × FileError)} (hread : t.read path = .ok text)
      (inside : Expands t path.directory [path] ((AuxCommand.all text).map (path, ·)) stream seen
        stop) : ExpandsFile t path stream seen stop

variable {t : FileTree} {base path : Path} {seen seen' : List Path} {cs stream : Commands}
variable {stop : Option (Path × FileError)}

/-- The commands that are expanded stand in the files. -/
theorem Expands.forall_mem {P : AuxCommand → Prop} (h : Expands t base seen cs stream seen' stop)
    (hall : ∀ text, ∀ c ∈ AuxCommand.all text, P c) (hcs : ∀ c ∈ cs, P c.2) :
    ∀ c ∈ stream, P c.2 := by
  have hfile (path : Path) (text : Text) : ∀ c ∈ (AuxCommand.all text).map (path, ·), P c.2 :=
    List.forall_mem_map.2 (hall text)
  induction h with
  | nil => exact hcs
  | kept hc _ ih =>
    rw [List.forall_mem_cons] at hcs ⊢
    exact ⟨hcs.1, ih hcs.2⟩
  | again _ _ ih => exact ih (List.forall_mem_cons.1 hcs).2
  | unreadable _ _ => exact List.forall_mem_nil _
  | opened _ _ _ _ ihinside ihrest =>
    exact List.forall_mem_append.2
      ⟨ihinside (hfile _ _), ihrest (List.forall_mem_cons.1 hcs).2⟩
  | stopped _ _ _ ih => exact ih (hfile _ _)

theorem ExpandsFile.forall_mem {P : AuxCommand → Prop} (h : ExpandsFile t path stream seen stop)
    (hall : ∀ text, ∀ c ∈ AuxCommand.all text, P c) : ∀ c ∈ stream, P c.2 := by
  cases h with
  | unreadable _ => exact List.forall_mem_nil _
  | opened _ inside => exact inside.forall_mem hall (List.forall_mem_map.2 (hall _))

/-! ## Expansion ends -/

/-- More files were input. -/
def Covers (seen' seen : List Path) : Prop :=
  ∀ p, hasVisited seen p = true → hasVisited seen' p = true

theorem unvisited_le_of_covers (t : FileTree) (base : Path) (h : Covers seen' seen) :
    unvisited t base seen' ≤ unvisited t base seen := by
  refine List.countP_mono_left fun p _ hp => ?_
  cases hseen : hasVisited seen p with
  | false => rfl
  | true => simp [h p hseen] at hp

theorem mem_inputs_of_within {file : Path} {name : Text}
    (h : ∀ c ∈ (file, AuxCommand.input name) :: cs, c.2 ∈ t.texts.flatMap AuxCommand.all) :
    Path.join base name ∈ inputs t base :=
  List.mem_filterMap.2 ⟨.input name, h _ List.mem_cons_self, rfl⟩

/-- Commands in a file of the tree are commands in the tree. -/
theorem within_all {text : Text} (h : t.read path = .ok text) :
    ∀ c ∈ (AuxCommand.all text).map (path, ·), c.2 ∈ t.texts.flatMap AuxCommand.all :=
  List.forall_mem_map.2 fun _ hcommand =>
    List.mem_flatMap.2 ⟨text, FileTree.mem_texts_of_read h, hcommand⟩

/-- The induction is on the number of inputs that are not opened yet: it gets smaller inside a file,
and behind one it is at most what it was inside. -/
theorem exists_expands_of_le (n : Nat) (hn : unvisited t base seen ≤ n)
    (hcs : ∀ c ∈ cs, c.2 ∈ t.texts.flatMap AuxCommand.all) :
    ∃ stream seen' stop, Expands t base seen cs stream seen' stop ∧ Covers seen' seen := by
  induction n using Nat.strongRecOn generalizing seen cs with
  | ind n ih =>
    induction cs generalizing seen with
    | nil => exact ⟨[], seen, none, .nil seen, fun _ h => h⟩
    | cons c cs ihcs =>
      have hrest := (List.forall_mem_cons.1 hcs).2
      obtain ⟨file, command⟩ := c
      cases command with
      | input name =>
        cases hseen : hasVisited seen (Path.join base name) with
        | true =>
          obtain ⟨stream, seen', stop, h, hcovers⟩ := ihcs hn hrest
          exact ⟨stream, seen', stop, .again hseen h, hcovers⟩
        | false =>
          have hcovers : Covers (Path.join base name :: seen) seen :=
            fun _ => hasVisited_cons
          cases hread : t.read (Path.join base name) with
          | error e => exact ⟨[], _, _, .unreadable hseen hread, hcovers⟩
          | ok text =>
            have hlt : unvisited t base (Path.join base name :: seen) < unvisited t base seen :=
              unvisited_cons_lt (mem_inputs_of_within hcs) hseen
            obtain ⟨inner, seen₁, stop, hinner, hcovers₁⟩ :=
              ih _ (Nat.lt_of_lt_of_le hlt hn) (Nat.le_refl _) (within_all hread)
            have hcovers₁ : Covers seen₁ seen := fun p hp => hcovers₁ p (hcovers p hp)
            cases stop with
            | some stop => exact ⟨inner, seen₁, _, .stopped hseen hread hinner, hcovers₁⟩
            | none =>
              have hle := unvisited_le_of_covers t base hcovers₁
              obtain ⟨outer, seen', stop, houter, hcovers'⟩ := ihcs (Nat.le_trans hle hn) hrest
              exact ⟨inner ++ outer, seen', stop, .opened hseen hread hinner houter,
                fun p hp => hcovers' p (hcovers₁ p hp)⟩
      | citations _ | databases _ | style _ =>
        obtain ⟨stream, seen', stop, h, hcovers⟩ := ihcs hn hrest
        exact ⟨_ :: stream, seen', stop, .kept nofun h, hcovers⟩

/-- **Every aux file has an expansion**, whatever the files input. -/
theorem exists_expandsFile (t : FileTree) (path : Path) :
    ∃ stream seen stop, ExpandsFile t path stream seen stop := by
  cases hread : t.read path with
  | error e => exact ⟨[], [path], _, .unreadable hread⟩
  | ok text =>
    have hexpands : ∃ stream seen stop, Expands t path.directory [path]
        ((AuxCommand.all text).map (path, ·)) stream seen stop ∧ Covers seen [path] :=
      exists_expands_of_le _ (Nat.le_refl _) (within_all hread)
    obtain ⟨stream, seen, stop, h, -⟩ := hexpands
    exact ⟨stream, seen, stop, .opened hread h⟩

/-! ## Scanning -/

/-- Reading goes on to the end with a result, and scans some files for it. -/
inductive Reads (t : FileTree) : AuxReading → List Path → Except AuxError AuxContents → Prop where
  | finished {r : AuxReading} {result : Except AuxError AuxContents}
      (h : r.advance = .finished result) : Reads t r [] result
  | unreadable {r next : AuxReading} {path : Path} {e : FileError}
      (h : r.advance = .wants path next) (hread : t.read path = .error e) :
      Reads t r [path] (.error (.unreadable path e))
  | supplied {r next : AuxReading} {path : Path} {text : Text} {scanned : List Path}
      {result : Except AuxError AuxContents} (h : r.advance = .wants path next)
      (hread : t.read path = .ok text) (rest : Reads t (next.supply path text) scanned result) :
      Reads t r (path :: scanned) result

/-- Reading the aux file of a document scans some files. -/
inductive Scans (t : FileTree) (path : Path) :
    List Path → Except AuxError AuxContents → Prop where
  | unreadable {e : FileError} (hread : t.read path = .error e) :
      Scans t path [path] (.error (.unreadable path e))
  | opened {text : Text} {scanned : List Path} {result : Except AuxError AuxContents}
      (hread : t.read path = .ok text) (rest : Reads t (.start path text) scanned result) :
      Scans t path (path :: scanned) (result.bind (·.settled path))

variable {r r' : AuxReading} {scanned : List Path} {result : Except AuxError AuxContents}

theorem Reads.congr (h : Reads t r scanned result) (hadvance : r'.advance = r.advance) :
    Reads t r' scanned result := by
  cases h with
  | finished h => exact .finished (hadvance.trans h)
  | unreadable h hread => exact .unreadable (hadvance.trans h) hread
  | supplied h hread rest => exact .supplied (hadvance.trans h) hread rest

/-- Reading has one result. -/
theorem Reads.result_eq {scanned' : List Path} {result' : Except AuxError AuxContents}
    (h : Reads t r scanned result) (h' : Reads t r scanned' result') : result = result' := by
  induction h generalizing scanned' with
  | finished h =>
    cases h' with
    | finished h' =>
      cases h.symm.trans h'
      rfl
    | unreadable h' _ | supplied h' _ _ => cases h.symm.trans h'
  | unreadable h hread =>
    cases h' with
    | finished h' => cases h.symm.trans h'
    | unreadable h' hread' =>
      cases h.symm.trans h'
      cases hread.symm.trans hread'
      rfl
    | supplied h' hread' _ =>
      cases h.symm.trans h'
      cases hread.symm.trans hread'
  | supplied h hread _ ih =>
    cases h' with
    | finished h' => cases h.symm.trans h'
    | unreadable h' hread' =>
      cases h.symm.trans h'
      cases hread.symm.trans hread'
    | supplied h' hread' rest' =>
      cases h.symm.trans h'
      cases hread.symm.trans hread'
      exact ih rest'

/-- Reading to the end is a row of scans. -/
theorem exists_reads_complete (hr : r.Within t) :
    ∃ scanned, Reads t r scanned (complete t r hr) := by
  fun_induction complete t r hr with
  | case1 r hr result h => exact ⟨[], .finished h⟩
  | case2 r hr path next h e hread => exact ⟨[path], .unreadable h hread⟩
  | case3 r hr path next h text hread ih =>
    obtain ⟨scanned, hrest⟩ := ih
    exact ⟨path :: scanned, .supplied h hread hrest⟩

/-- No file is scanned that was scanned before. -/
theorem Reads.not_visited (h : Reads t r scanned result) :
    (∀ p ∈ scanned, hasVisited r.visited p = false) ∧
      scanned.Pairwise fun p q => Path.same p q = false := by
  induction h with
  | finished _ => exact ⟨List.forall_mem_nil _, .nil⟩
  | unreadable h _ =>
    obtain ⟨-, -, hpath, -, -⟩ := of_obey_eq_wants h
    exact ⟨List.forall_mem_singleton.2 hpath, List.pairwise_singleton _ _⟩
  | @supplied r next path text scanned result h hread _ ih =>
    obtain ⟨-, hvisited, hpath, -, -⟩ := of_obey_eq_wants h
    obtain ⟨hrest, hpairs⟩ := ih
    have hnext (p : Path) (hp : p ∈ scanned) :
        Path.same path p = false ∧ hasVisited r.visited p = false := by
      have hp := hrest p hp
      simp only [supply, hvisited, hasVisited, List.any_cons, Bool.or_eq_false_iff] at hp
      rw [Path.same_comm]
      exact hp
    refine ⟨List.forall_mem_cons.2 ⟨hpath, fun p hp => (hnext p hp).2⟩, ?_⟩
    exact List.pairwise_cons.2 ⟨fun p hp => (hnext p hp).1, hpairs⟩

/-- There are no more scans than inputs that were not scanned before. -/
theorem Reads.length_le (h : Reads t r scanned result) (hr : r.Within t) :
    scanned.length ≤ unvisited t r.base r.visited := by
  induction h with
  | finished _ => exact Nat.zero_le _
  | unreadable h _ =>
    have hlt := unvisited_lt hr h
    simp only [List.length_singleton]
    omega
  | supplied h hread _ ih =>
    have hlt := unvisited_lt hr h
    have hle := ih (within_supply hr h hread)
    simp only [supply] at hle
    simp only [List.length_cons]
    omega

/-- **Reading ends, and scans no file twice.** It scans at most one file for each input in the tree
besides the first one. -/
theorem exists_scans (t : FileTree) (path : Path) :
    ∃ scanned, Scans t path scanned (AuxContents.read t path) ∧
      (scanned.Pairwise fun p q => Path.same p q = false) ∧
      scanned.length ≤ (inputs t path.directory).length + 1 := by
  rw [AuxContents.read]
  split
  · next e hread => exact ⟨[path], .unreadable hread, List.pairwise_singleton _ _, by simp⟩
  · next text hread =>
    have hwithin := within_start hread
    obtain ⟨scanned, h⟩ := exists_reads_complete hwithin
    refine ⟨path :: scanned, .opened hread h, List.pairwise_cons.2 ⟨fun p hp => ?_, ?_⟩, ?_⟩
    · have hp := h.not_visited.1 p hp
      simp only [start, hasVisited, List.any_cons, List.any_nil, Bool.or_false] at hp
      rw [Path.same_comm]
      exact hp
    · exact h.not_visited.2
    · have hle := h.length_le hwithin
      have hcount : unvisited t path.directory [path] ≤ (inputs t path.directory).length :=
        List.countP_le_length
      simp only [start] at hle
      simp only [List.length_cons]
      omega

end AuxReading

end Bibliography
