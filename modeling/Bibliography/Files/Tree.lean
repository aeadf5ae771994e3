import Bibliography.Files.Access

set_option autoImplicit false

/-! # File trees

A file system as a value: directories and files, seen from a working directory. Of the directories
above the working directory, and of the root, nothing is known but that they are there. -/

namespace Bibliography

/-- What is at a place. -/
inductive FileNode where
  | directory
  | file (content : Text)
  /-- A file that holds no UTF-8 text. -/
  | data
  deriving DecidableEq, Repr

/-- A place: the names that lead there from the working directory. The root is the name `/`, and
a place above the working directory is reached by as many `..`. -/
abbrev FilePlace := List Text

abbrev FileTree := List (FilePlace × FileNode)

namespace FilePlace

def root : FilePlace := [['/']]

/-- Whether there is a directory in every file system: at the root, at the working directory, and
above it. -/
def isGiven (place : FilePlace) : Bool := place == root || place.all (· == ['.', '.'])

def above (place : FilePlace) : FilePlace :=
  if place = root then root
  else if place.isGiven then place ++ [['.', '.']]
  else place.dropLast

/-- Whether a place is below the working directory. -/
def isInside (place : FilePlace) : Bool :=
  place.head? != some ['/'] && place.head? != some ['.', '.']

end FilePlace

namespace FileTree

def node? (t : FileTree) (place : FilePlace) : Option FileNode :=
  if place.isGiven then some .directory else t.lookup place

/-- Whether a file system takes a name at all: it has at most 255 bytes. -/
def isTooLong (name : Text) : Bool := decide (255 < name.size)

/-- Follows names from a directory. `mustEnter` holds when the last name has to lead to a
directory. -/
def walk (t : FileTree) (mustEnter : Bool) : FilePlace → List Text → Except FileError FilePlace
  | place, [] => .ok place
  | place, name :: rest =>
    if isTooLong name then .error .nameTooLong
    else if name = ['.', '.'] then walk t mustEnter place.above rest
    else
      let next := place ++ [name]
      match t.node? next with
      | some .directory => walk t mustEnter next rest
      | some _ => if rest = [] ∧ !mustEnter then .ok next else .error .notDirectory
      | none => if rest = [] ∧ !mustEnter then .ok next else .error .notFound

/-- Whether a path can be looked up at all. It has at most 4095 bytes. -/
def checkPath (p : Path) : Except FileError Unit :=
  if p = [] then .error .notFound
  else if p.contains '\x00' then .error .nullInName
  else if 4095 < p.size then .error .nameTooLong
  else .ok ()

/-- The place where a path starts. -/
def startOf (p : Path) : FilePlace := if Path.isAbsolute p then .root else []

/-- Where a path leads. A path that ends in a slash or a dot has to lead to a directory. -/
def resolve (t : FileTree) (p : Path) : Except FileError FilePlace :=
  match checkPath p with
  | .error e => .error e
  | .ok () =>
    let parts := p.splitWhere (· == '/')
    walk t ((parts.getLast?.map Path.isVoid).getD false) (startOf p)
      (parts.filter (!Path.isVoid ·))

def find (t : FileTree) (p : Path) : Except FileError FileNode :=
  match t.resolve p with
  | .error e => .error e
  | .ok place =>
    match t.node? place with
    | some n => .ok n
    | none => .error .notFound

def read (t : FileTree) (p : Path) : Except FileError Text :=
  match t.find p with
  | .error e => .error e
  | .ok .directory => .error .isDirectory
  | .ok .data => .error .notText
  | .ok (.file s) => .ok s

def texts (t : FileTree) : List Text :=
  t.filterMap fun
    | (_, .file s) => some s
    | _ => none

/-- What is read is the text of one of the files. -/
theorem mem_texts_of_read {t : FileTree} {p : Path} {s : Text} (h : t.read p = .ok s) :
    s ∈ t.texts := by
  unfold read at h
  split at h
  · cases h
  · cases h
  · cases h
  · rename_i s' hf
    cases h
    unfold find at hf
    split at hf
    · cases hf
    · rename_i place _
      split at hf
      · rename_i n hn
        cases hf
        unfold node? at hn
        split at hn
        · cases hn
        · obtain ⟨before, after, ht, -⟩ := List.lookup_eq_some_iff.1 hn
          exact List.mem_filterMap.2 ⟨(place, .file s), by rw [ht]; simp, rfl⟩
      · cases hf

def isFile (t : FileTree) (p : Path) : Bool :=
  match t.find p with
  | .ok (.file _) | .ok .data => true
  | _ => false

def isPresent (t : FileTree) (p : Path) : Bool := (t.find p).toOption.isSome

def setNode (t : FileTree) (place : FilePlace) (n : FileNode) : FileTree :=
  match t with
  | [] => [(place, n)]
  | (k, v) :: rest => if k = place then (k, n) :: rest else (k, v) :: setNode rest place n

/-- The place of a file that is to be written. Its directory has to be there, and the path has to
end in a name. -/
def placeForWriting (t : FileTree) (p : Path) : Except FileError FilePlace :=
  match checkPath p with
  | .error e => .error e
  | .ok () =>
    let parts := (p.splitWhere (· == '/')).filter (· ≠ [])
    match walk t true (startOf p) (parts.dropLast.filter (!Path.isVoid ·)) with
    | .error e => .error e
    | .ok directory =>
      match parts.getLast? with
      | none => .error .isDirectory
      | some name =>
        if name = ['.'] ∨ name = ['.', '.'] ∨ p.getLast? = some '/' then .error .isDirectory
        else if isTooLong name then .error .nameTooLong
        else .ok (directory ++ [name])

/-- Makes a text the content of the file at a path, which may be new in its directory. -/
def write (t : FileTree) (p : Path) (s : Text) : Except FileError FileTree :=
  match t.placeForWriting p with
  | .error e => .error e
  | .ok place =>
    if t.node? place = some .directory then .error .isDirectory
    else .ok (t.setNode place (.file s))

/-- The file tree as the state of a run. -/
def access : FileAccess (StateM FileTree) where
  read p := do return (← get).read p
  isFile p := do return (← get).isFile p
  isPresent p := do return (← get).isPresent p
  write p s := do
    match (← get).write p s with
    | .ok t =>
      set t
      return .ok ()
    | .error e => return .error e

end FileTree

end Bibliography
