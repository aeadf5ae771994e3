import Bibliography.Text.Basic

set_option autoImplicit false

/-! # Commands of aux files

LaTeX leaves an aux file beside a document. Four kinds of commands in it matter here: citations,
the databases, the style, and the input of another aux file. They may stand anywhere; an argument
goes to the first closing brace. -/

namespace Bibliography

inductive AuxCommand where
  | citations (keys : List Text)
  | databases (names : List Text)
  | style (name : Text)
  /-- Another aux file that is read in this place. -/
  | input (name : Text)
  deriving DecidableEq, Repr

namespace AuxCommand

/-- The items of an argument: what stands between commas, unless it is blank. -/
def items (argument : Text) : List Text :=
  ((argument.splitWhere (· == ',')).map Text.trim).filter (· ≠ [])

/-- The commands by what stands between their backslash and their argument. -/
def kinds : List (Text × (Text → AuxCommand)) :=
  [("citation\x7b".toList, fun a => .citations (items a)),
    ("bibdata\x7b".toList, fun a => .databases (items a)),
    ("bibstyle\x7b".toList, fun a => .style a.trim),
    ("@input\x7b".toList, fun a => .input a.trim)]

/-- The command that starts with `start`, if that stands here and the argument ends, and what
follows it. -/
def takeKind? (s : Text) (start : Text) (make : Text → AuxCommand) : Option (AuxCommand × Text) :=
  if start.isPrefixOf s then
    let rest := s.drop start.length
    match rest.dropWhile (· ≠ '}') with
    | [] => none
    | _ :: after => some (make (rest.takeWhile (· ≠ '}')), after)
  else none

/-- The command after a backslash, and what follows it. -/
def take? (s : Text) : Option (AuxCommand × Text) :=
  kinds.findSome? fun k => takeKind? s k.1 k.2

theorem length_of_takeKind? {s start after : Text} {make : Text → AuxCommand} {c : AuxCommand}
    (h : takeKind? s start make = some (c, after)) : after.length < s.length := by
  unfold takeKind? at h
  split at h
  · simp only at h
    split at h
    · cases h
    · rename_i d rest hr
      cases h
      have h₁ := (List.dropWhile_sublist (p := (· ≠ '}')) (l := s.drop start.length)).length_le
      rw [hr] at h₁
      simp only [List.length_cons, List.length_drop] at h₁
      omega
  · cases h

/-- A command is not empty. -/
theorem length_of_take? {s after : Text} {c : AuxCommand} (h : take? s = some (c, after)) :
    after.length < s.length := by
  obtain ⟨_, _, hk⟩ := List.exists_of_findSome?_eq_some h
  exact length_of_takeKind? hk

def allFrom : Text → List AuxCommand
  | [] => []
  | c :: rest =>
    if c = '\\' then
      match _h : take? rest with
      | some (command, after) => command :: allFrom after
      | none => allFrom rest
    else allFrom rest
termination_by s => s.length
decreasing_by
  · have := length_of_take? _h
    simp only [List.length_cons]
    omega
  · simp
  · simp

/-- The commands of an aux file, in their order. No command ends after the last closing brace. -/
def all (s : Text) : List AuxCommand := allFrom (s.reverse.dropWhile (· ≠ '}')).reverse

end AuxCommand

end Bibliography
