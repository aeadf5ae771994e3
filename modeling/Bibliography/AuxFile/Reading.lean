import Bibliography.AuxFile.Contents
import Bibliography.Files.Tree

set_option autoImplicit false

/-! # Reading aux files

The aux file of a document and those that it inputs are read as one: an input stands for the
commands of the other file, but a file is read only once. Reading goes on command by command until
it needs another file (`AuxReading.advance`), so that it does not matter how files are read. In a
file tree it always ends (`AuxContents.read`): every file that is needed is named by one of the
finitely many commands in the tree. -/

namespace Bibliography

/-- Aux files that are being read. -/
structure AuxReading where
  /-- The directory from which inputs are seen. -/
  base : Path
  /-- The files that were read. -/
  visited : List Path
  /-- The commands that are left, each with the file it stands in. -/
  todo : List (Path × AuxCommand)
  contents : AuxContents := {}

/-- How far reading gets without another file. -/
inductive AuxProgress where
  | finished (result : Except AuxError AuxContents)
  /-- The file at `path` has to be read before the rest. -/
  | wants (path : Path) (rest : AuxReading)

namespace AuxReading

def hasVisited (visited : List Path) (path : Path) : Bool := visited.any (Path.same path ·)

def obey (base : Path) (visited : List Path) :
    List (Path × AuxCommand) → AuxContents → AuxProgress
  | [], a => .finished (.ok a)
  | (file, command) :: todo, a =>
    match command with
    | .citations keys => obey base visited todo (a.cite keys)
    | .databases names => obey base visited todo (a.addDatabases names)
    | .style name =>
      match a.setStyle file name with
      | .error e => .finished (.error e)
      | .ok a => obey base visited todo a
    | .input name =>
      if hasVisited visited (Path.join base name) then obey base visited todo a
      else .wants (Path.join base name) ⟨base, Path.join base name :: visited, todo, a⟩

/-- Reads on until another file is needed. -/
def advance (r : AuxReading) : AuxProgress := obey r.base r.visited r.todo r.contents

/-- Puts the commands of a file in front of those that are left. -/
def supply (r : AuxReading) (path : Path) (text : Text) : AuxReading :=
  { r with todo := (AuxCommand.all text).map (path, ·) ++ r.todo }

def start (path : Path) (text : Text) : AuxReading :=
  { base := path.directory, visited := [path], todo := (AuxCommand.all text).map (path, ·) }

/-! ## Reading in a file tree -/

/-- The paths of all inputs in the texts of a file tree, seen from a directory. -/
def inputs (t : FileTree) (base : Path) : List Path :=
  (t.texts.flatMap AuxCommand.all).filterMap fun
    | .input name => some (Path.join base name)
    | _ => none

def unvisited (t : FileTree) (base : Path) (visited : List Path) : Nat :=
  (inputs t base).countP fun p => !hasVisited visited p

/-- All commands that are left stand in texts of the file tree. -/
def Within (t : FileTree) (r : AuxReading) : Prop :=
  ∀ c ∈ r.todo, c.2 ∈ t.texts.flatMap AuxCommand.all

theorem hasVisited_cons_self (visited : List Path) (p : Path) :
    hasVisited (p :: visited) p = true := by
  simp [hasVisited, Path.same]

theorem hasVisited_cons {visited : List Path} {p q : Path} (h : hasVisited visited q = true) :
    hasVisited (p :: visited) q = true := by
  simp only [hasVisited, List.any_cons, Bool.or_eq_true] at h ⊢
  exact Or.inr h

/-- A file that reading wants was not read before, and an input that was left names it. -/
theorem of_obey_eq_wants {base p : Path} {visited : List Path} {todo : List (Path × AuxCommand)}
    {a : AuxContents} {r : AuxReading} (h : obey base visited todo a = .wants p r) :
    r.base = base ∧ r.visited = p :: visited ∧ hasVisited visited p = false ∧
      (∃ file name, (file, AuxCommand.input name) ∈ todo ∧ p = Path.join base name) ∧
      ∀ c ∈ r.todo, c ∈ todo := by
  fun_induction obey base visited todo a with
  | case1 => cases h
  | case2 a file todo keys ih =>
    obtain ⟨h₁, h₂, h₃, ⟨f, n, h₄, h₅⟩, h₆⟩ := ih h
    exact ⟨h₁, h₂, h₃, ⟨f, n, .tail _ h₄, h₅⟩, fun c hc => .tail _ (h₆ c hc)⟩
  | case3 a file todo names ih =>
    obtain ⟨h₁, h₂, h₃, ⟨f, n, h₄, h₅⟩, h₆⟩ := ih h
    exact ⟨h₁, h₂, h₃, ⟨f, n, .tail _ h₄, h₅⟩, fun c hc => .tail _ (h₆ c hc)⟩
  | case4 => cases h
  | case5 a file todo name b hb ih =>
    obtain ⟨h₁, h₂, h₃, ⟨f, n, h₄, h₅⟩, h₆⟩ := ih h
    exact ⟨h₁, h₂, h₃, ⟨f, n, .tail _ h₄, h₅⟩, fun c hc => .tail _ (h₆ c hc)⟩
  | case6 a file todo name hv ih =>
    obtain ⟨h₁, h₂, h₃, ⟨f, n, h₄, h₅⟩, h₆⟩ := ih h
    exact ⟨h₁, h₂, h₃, ⟨f, n, .tail _ h₄, h₅⟩, fun c hc => .tail _ (h₆ c hc)⟩
  | case7 a todo file name hv =>
    cases h
    exact ⟨rfl, rfl, by simpa using hv, ⟨_, _, .head _, rfl⟩, fun c hc => .tail _ hc⟩

/-- A weaker condition that holds of one element more holds of more elements. -/
theorem countP_lt_countP {α : Type} {p q : α → Bool} {l : List α}
    (hpq : ∀ a ∈ l, p a = true → q a = true) (h : ∃ a ∈ l, p a = false ∧ q a = true) :
    l.countP p < l.countP q := by
  induction l with
  | nil => simp at h
  | cons b l ih =>
    have hl : l.countP p ≤ l.countP q :=
      List.countP_mono_left fun a ha => hpq a (.tail _ ha)
    simp only [List.countP_cons]
    obtain ⟨a, ha, hp, hq⟩ := h
    rcases List.mem_cons.1 ha with rfl | ha
    · simp only [hp, hq]
      simp only [Bool.false_eq_true, if_false, if_true]
      omega
    · have := ih (fun a ha => hpq a (.tail _ ha)) ⟨a, ha, hp, hq⟩
      have hb := hpq b (.head _)
      cases hpb : p b
      · simp only [Bool.false_eq_true, if_false]
        split <;> omega
      · simp only [hb hpb, if_true]
        omega

/-- Reading an input takes it from those that were not read. -/
theorem unvisited_cons_lt {t : FileTree} {base p : Path} {visited : List Path}
    (hi : p ∈ inputs t base) (hp : hasVisited visited p = false) :
    unvisited t base (p :: visited) < unvisited t base visited := by
  refine countP_lt_countP (fun q _ hq => ?_) ⟨_, hi, by simp [hasVisited_cons_self], by simp [hp]⟩
  cases hc : hasVisited visited q with
  | false => rfl
  | true => simp [hasVisited_cons hc] at hq

/-- Reading a file that was left takes it from the inputs that were not read. -/
theorem unvisited_lt {t : FileTree} {r next : AuxReading} {p : Path} (hr : r.Within t)
    (h : r.advance = .wants p next) :
    unvisited t next.base next.visited < unvisited t r.base r.visited := by
  obtain ⟨hb, hv, hp, ⟨file, name, hm, rfl⟩, -⟩ := of_obey_eq_wants h
  rw [hb, hv]
  exact unvisited_cons_lt (List.mem_filterMap.2 ⟨_, hr _ hm, rfl⟩) hp

theorem within_supply {t : FileTree} {r next : AuxReading} {p : Path} {text : Text}
    (hr : r.Within t) (h : r.advance = .wants p next) (hp : t.read p = .ok text) :
    (next.supply p text).Within t := by
  obtain ⟨-, -, -, -, hs⟩ := of_obey_eq_wants h
  intro c hc
  rcases List.mem_append.1 hc with hc | hc
  · obtain ⟨command, hm, rfl⟩ := List.mem_map.1 hc
    exact List.mem_flatMap.2 ⟨text, FileTree.mem_texts_of_read hp, hm⟩
  · exact hr c (hs c hc)

theorem within_start {t : FileTree} {p : Path} {text : Text} (hp : t.read p = .ok text) :
    (start p text).Within t := by
  intro c hc
  obtain ⟨command, hm, rfl⟩ := List.mem_map.1 hc
  exact List.mem_flatMap.2 ⟨text, FileTree.mem_texts_of_read hp, hm⟩

def complete (t : FileTree) (r : AuxReading) (hr : r.Within t) : Except AuxError AuxContents :=
  match h : r.advance with
  | .finished result => result
  | .wants path next =>
    match hp : t.read path with
    | .error e => .error (.unreadable path e)
    | .ok text => complete t (next.supply path text) (within_supply hr h hp)
termination_by unvisited t r.base r.visited
decreasing_by
  have := unvisited_lt hr h
  exact this

end AuxReading

/-- What the aux file at a path, and those that it inputs, ask for. -/
def AuxContents.read (t : FileTree) (path : Path) : Except AuxError AuxContents :=
  match h : t.read path with
  | .error e => .error (.unreadable path e)
  | .ok text => do
    let a ← AuxReading.complete t (.start path text) (AuxReading.within_start h)
    a.settled path

end Bibliography
