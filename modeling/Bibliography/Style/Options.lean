set_option autoImplicit false

/-! # Options -/

namespace Bibliography.Style

/-- The order in which entries are added that only other entries refer to. -/
inductive CrossrefOrder where
  /-- By their keys. -/
  | sorted
  /-- As the cited entries first refer to them. -/
  | firstReference
  deriving DecidableEq, Repr

/-- What a user can choose about a run. -/
structure Options where
  /-- How many cited entries must refer to an entry for it to be added. -/
  minCrossrefs : Nat := 2
  /-- The width at which lines are broken. -/
  maxLineWidth : Nat := 79
  crossrefOrder : CrossrefOrder := .sorted
  /-- Whether a line with an unmatched brace is an error. -/
  checkOutputBraces : Bool := true
  deriving DecidableEq, Repr

end Bibliography.Style
