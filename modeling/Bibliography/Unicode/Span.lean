set_option autoImplicit false

/-! # Spans of code points

A set of characters is a list of spans in ascending order. A span with a stride above one holds
every second character (or every third, …) of its range, as upper-case and lower-case letters
alternate in large parts of Unicode. -/

namespace Bibliography.Unicode

/-- The code points `first`, `first + stride`, `first + 2 * stride`, …, up to `last`. -/
structure Span where
  first : Nat
  last : Nat
  stride : Nat

def Span.holds (s : Span) (n : Nat) : Bool :=
  decide (s.first ≤ n) && decide (n ≤ s.last) && decide ((n - s.first) % s.stride = 0)

/-- Whether one of the spans holds `n`. The spans ascend, so the search ends at the first one
that starts above `n`. -/
def covers : List Span → Nat → Bool
  | [], _ => false
  | s :: rest, n => if n < s.first then false else s.holds n || covers rest n

end Bibliography.Unicode
