import Bibliography.Text.Basic

set_option autoImplicit false

/-! # Wrapped lines

A line that is too long is broken at white space, as late as the width allows, or else at the
first place there is. The white space at a break is dropped, and every line after the first is
indented by two blanks. A word is never broken. -/

namespace Bibliography.Text

def fits (n : Nat) (s : Text) : Bool := (s.drop n).isEmpty

theorem fits_eq_true_iff {n : Nat} {s : Text} : fits n s = true ↔ s.length ≤ n := by
  rw [fits, List.isEmpty_iff, List.drop_eq_nil_iff]

/-- The place where a text is broken: the start of the last run of white space that has at most
`room` characters before it, or else of the first run. A run at the very start is no place.
`place` is the number of characters that were read, `chosen` the last place among them, and
`inRun` holds when the last of them is white space, and at the start. -/
def breakFrom (room : Nat) (chosen : Option Nat) (place : Nat) (inRun : Bool) :
    Text → Option Nat
  | [] => chosen
  | c :: rest =>
    if room < place ∧ chosen.isSome then chosen
    else if !Unicode.isWhiteSpace c then breakFrom room chosen (place + 1) false rest
    else if inRun then breakFrom room chosen (place + 1) true rest
    else if place ≤ room then breakFrom room (some place) (place + 1) true rest
    else some place

/-- What stands before and after the place where a text is broken, without the white space
there. -/
def chooseBreak? (room : Nat) (s : Text) : Option (Text × Text) :=
  (breakFrom room none 0 true s).map fun place => (s.take place, trimStart (s.drop place))

theorem breakFrom_pos {room place : Nat} {chosen : Option Nat} {inRun : Bool} {s : Text}
    (hc : ∀ n, chosen = some n → 0 < n) (hp : inRun = false → 0 < place) {n : Nat}
    (h : breakFrom room chosen place inRun s = some n) : 0 < n := by
  induction s generalizing chosen place inRun with
  | nil => exact hc n h
  | cons c rest ih =>
    rw [breakFrom] at h
    split at h
    · exact hc n h
    · split at h
      · exact ih hc (fun _ => Nat.succ_pos _) h
      · split at h
        · exact ih hc (fun _ => Nat.succ_pos _) h
        · rename_i hr
          have h0 : 0 < place := hp (by simpa using hr)
          split at h
          · refine ih (fun m hm => ?_) (fun _ => Nat.succ_pos _) h
            cases hm
            exact h0
          · cases h
            exact h0

/-- What follows a break is shorter than the text. -/
theorem length_of_chooseBreak? {room : Nat} {s : Text} {b : Text × Text} (hs : s ≠ [])
    (h : chooseBreak? room s = some b) : b.2.length < s.length := by
  obtain ⟨n, hn, rfl⟩ := Option.map_eq_some_iff.1 h
  have hpos : 0 < n := breakFrom_pos (by simp) (by simp) hn
  refine Nat.lt_of_le_of_lt (List.dropWhile_sublist _).length_le ?_
  rw [List.length_drop]
  have := List.length_pos_iff.2 hs
  omega

/-- The two blanks in front of a continuation line. -/
def indent : Text := [' ', ' ']

/-- The lines of a text that stands after `lead` on its line. -/
def wrapAfter (width : Nat) (lead s : Text) : List Text :=
  if lead.length ≤ width ∧ fits (width - lead.length) s then [lead ++ s]
  else
    match s with
    | [] => [lead]
    | c :: rest =>
      match _h : chooseBreak? (width - lead.length) (c :: rest) with
      | none => [lead ++ c :: rest]
      | some (head, tail) =>
        (lead ++ head) :: if tail = [] then [] else wrapAfter width indent tail
termination_by s.length
decreasing_by exact length_of_chooseBreak? (List.cons_ne_nil _ _) ‹_›

/-- The lines of at most `width` characters into which a line is broken, as far as its words
allow. -/
def wrap (line : Text) (width : Nat) : List Text := wrapAfter width [] line

end Bibliography.Text
