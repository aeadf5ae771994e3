import Bibliography.Source.Location
import Mathlib.Data.Prod.Lex

set_option autoImplicit false

/-! # Rows and columns of offsets

Bytes, characters and lines are counted separately. What holds them together is that the place of an
offset depends on the characters before it only: each offset cuts the source behind some start of it
(`Text.takeBytes`), and one more character before the cut moves the place as `Location.past` says,
on in the row or to the start of the next one. So longer starts have later places, in the order of
rows first and columns second.

Main statement: `Location.ofOffset?_faithful`.
-/

namespace Bibliography

variable {c : Char} {n : Nat} {s before rest : Text}

/-! ## Starts of a text with a number of bytes -/

namespace Text

/-- The offset is at the end of a character, or at the start of the text. -/
def IsBoundary (s : Text) (n : Nat) : Prop := ∃ before : Text, before <+: s ∧ before.size = n

theorem takeBytes_append (h : before.size ≤ n) (rest : Text) :
    (before ++ rest).takeBytes n = before ++ rest.takeBytes (n - before.size) := by
  induction before generalizing n with
  | nil => rfl
  | cons c before ih =>
    rw [size_cons] at h
    rw [List.cons_append, takeBytes, if_pos (by omega), ih (by omega), size_cons, Nat.sub_sub]
    rfl

/-- An offset in a character cuts the text before it. -/
theorem takeBytes_append_cons (hle : before.size ≤ n) (hlt : n < before.size + c.utf8Size)
    (rest : Text) : (before ++ c :: rest).takeBytes n = before := by
  rw [takeBytes_append hle, takeBytes, if_neg (by omega), List.append_nil]

theorem takeBytes_size_of_prefix (h : before <+: s) : s.takeBytes before.size = before := by
  obtain ⟨rest, rfl⟩ := h
  rw [takeBytes_append (Nat.le_refl _), Nat.sub_self]
  cases rest with
  | nil => exact List.append_nil before
  | cons c rest => rw [takeBytes, if_neg (Nat.not_le_of_lt c.utf8Size_pos), List.append_nil]

theorem takeBytes_prefix_takeBytes {m : Nat} (h : m ≤ n) (s : Text) :
    s.takeBytes m <+: s.takeBytes n := by
  induction s generalizing m n with
  | nil => exact List.prefix_rfl
  | cons c s ih =>
    rw [takeBytes, takeBytes]
    by_cases hm : c.utf8Size ≤ m
    · rw [if_pos hm, if_pos (Nat.le_trans hm h)]
      exact (List.prefix_cons_inj c).2 (ih (Nat.sub_le_sub_right h _))
    · rw [if_neg hm]
      exact List.nil_prefix

end Text

/-! ## Advancing in a text -/

namespace Location

/-- The place behind a text: the bytes in it, the newlines in it, and the characters since the last
newline. -/
def behind (before : Text) : Location := after before.size before

theorem past_behind (before : Text) (c : Char) :
    (behind before).past c = behind (before ++ [c]) := by
  have hsize : Text.size (before ++ [c]) = before.size + c.utf8Size := by
    rw [Text.size_append, Text.size_cons, Text.size_nil, Nat.add_zero]
  rw [behind, behind, hsize, past]
  by_cases hline : c = '\n'
  · simp [after, hline]
  · simp [after, hline]

theorem advance_zero (l : Location) (rest : Text) : advance 0 l rest = (l, rest) := by
  cases rest with
  | nil => rfl
  | cons c rest =>
    have hpos : ¬ c.utf8Size ≤ 0 := Nat.not_le_of_lt c.utf8Size_pos
    rw [advance, if_neg hpos]

/-- Over the bytes of a text the way leads to the place behind it. -/
theorem advance_behind (before w rest : Text) :
    advance w.size (behind before) (w ++ rest) = (behind (before ++ w), rest) := by
  induction w generalizing before with
  | nil => rw [Text.size_nil, advance_zero, List.append_nil, List.nil_append]
  | cons c w ih =>
    have hsize : Text.size (c :: w) - c.utf8Size = Text.size w := by
      rw [Text.size_cons]
      omega
    rw [List.cons_append, advance, if_pos (by rw [Text.size_cons]; omega), hsize, past_behind, ih,
      List.append_assoc]
    rfl

/-! ## The order of places -/

/-- The row and the column, in the order of texts: rows count first. -/
def position (l : Location) : Nat ×ₗ Nat := toLex (l.row, l.column)

theorem position_lt_past (l : Location) (c : Char) : l.position < (l.past c).position := by
  rw [position, position, Prod.Lex.toLex_lt_toLex, past]
  split
  · exact .inl (Nat.lt_succ_self _)
  · exact .inr ⟨rfl, Nat.lt_succ_self _⟩

/-- Longer starts of a text have later places. -/
theorem position_behind_lt (before : Text) {w : Text} (hw : w ≠ []) :
    (behind before).position < (behind (before ++ w)).position := by
  induction w generalizing before with
  | nil => exact absurd rfl hw
  | cons c w ih =>
    have hstep : (behind before).position < (behind (before ++ [c])).position :=
      past_behind before c ▸ position_lt_past _ c
    cases w with
    | nil => exact hstep
    | cons d w =>
      have hrest := ih (before ++ [c]) (List.cons_ne_nil d w)
      rw [List.append_assoc] at hrest
      exact hstep.trans hrest

theorem position_behind_le {before s : Text} (h : before <+: s) :
    (behind before).position ≤ (behind s).position := by
  obtain ⟨w, rfl⟩ := h
  by_cases hw : w = []
  · rw [hw, List.append_nil]
  · exact (position_behind_lt before hw).le

/-! ## The places of offsets -/

theorem ofOffset?_eq_none_iff : ofOffset? s n = none ↔ s.size < n := by
  rw [ofOffset?]
  split <;> simp_all

/-- An offset has the place behind the characters before it, with its own number of bytes. -/
theorem ofOffset?_eq_some (h : n ≤ s.size) :
    ofOffset? s n = some { behind (s.takeBytes n) with offset := n } :=
  if_neg (Nat.not_lt_of_le h)

theorem ofOffset?_size_of_prefix (h : before <+: s) :
    ofOffset? s before.size = some (behind before) := by
  have hle : before.size ≤ s.size := by
    obtain ⟨rest, rfl⟩ := h
    rw [Text.size_append]
    exact Nat.le_add_right _ _
  rw [ofOffset?_eq_some hle, Text.takeBytes_size_of_prefix h]
  rfl

/-- **Later offsets have no earlier place.** -/
theorem position_mono {a b : Nat} {l m : Location} (h : a ≤ b) (hl : ofOffset? s a = some l)
    (hm : ofOffset? s b = some m) : l.position ≤ m.position := by
  have hb : b ≤ s.size := by
    rw [← Nat.not_lt, ← ofOffset?_eq_none_iff, hm]
    exact Option.some_ne_none m
  rw [ofOffset?_eq_some (Nat.le_trans h hb)] at hl
  rw [ofOffset?_eq_some hb] at hm
  cases hl
  cases hm
  exact position_behind_le (Text.takeBytes_prefix_takeBytes h s)

/-- **Different ends of characters have different places.** -/
theorem position_strictMono {a b : Nat} (h : a < b) (ha : s.IsBoundary a) (hb : s.IsBoundary b) :
    ∃ l m, ofOffset? s a = some l ∧ ofOffset? s b = some m ∧ l.position < m.position := by
  obtain ⟨start, hstart, rfl⟩ := ha
  obtain ⟨longer, hlonger, rfl⟩ := hb
  refine ⟨_, _, ofOffset?_size_of_prefix hstart, ofOffset?_size_of_prefix hlonger, ?_⟩
  -- of two starts of one text the one with fewer bytes is a start of the other
  rcases List.prefix_or_prefix_of_prefix hstart hlonger with ⟨w, rfl⟩ | ⟨w, rfl⟩
  · refine position_behind_lt start fun hw => ?_
    rw [hw, List.append_nil] at h
    exact Nat.lt_irrefl _ h
  · rw [Text.size_append] at h
    omega

/-- **Over a character the place moves on in its row, or to the next row.** The offsets in the
character are where it starts. -/
theorem ofOffset?_step (hs : s = before ++ c :: rest) :
    ∃ l m, ofOffset? s before.size = some l ∧ ofOffset? s (before.size + c.utf8Size) = some m ∧
      (m.row, m.column) = (if c = '\n' then (l.row + 1, 0) else (l.row, l.column + 1)) ∧
      ∀ n, before.size ≤ n → n < before.size + c.utf8Size →
        ofOffset? s n = some { l with offset := n } := by
  subst hs
  have hsize : Text.size (before ++ c :: rest) = before.size + (c.utf8Size + Text.size rest) := by
    rw [Text.size_append, Text.size_cons]
  have hend : Text.size (before ++ [c]) = before.size + c.utf8Size := by
    rw [Text.size_append, Text.size_cons, Text.size_nil, Nat.add_zero]
  have hprefix : before ++ [c] <+: before ++ c :: rest := ⟨rest, List.append_assoc before [c] rest⟩
  have hpast := ofOffset?_size_of_prefix hprefix
  rw [hend, ← past_behind] at hpast
  refine ⟨behind before, (behind before).past c,
    ofOffset?_size_of_prefix (List.prefix_append _ _), hpast, ?_, fun n hle hlt => ?_⟩
  · rw [past]
    split <;> rfl
  · rw [ofOffset?_eq_some (by omega), Text.takeBytes_append_cons hle hlt]

/-- **Offsets are mapped to rows and columns faithfully.** The offsets up to the end of the source
have a place and the others have none; the first one is at row and column 0. Of two ends of
characters the later one has a place in a later row, or in the same row and a later column. Over a
character the column goes up by one, over a newline the row does and the column starts again at 0,
and the offsets in a character have its row and column. So places never go back. -/
theorem ofOffset?_faithful (source : Text) :
    (∀ n, ofOffset? source n = none ↔ source.size < n) ∧
    (∀ n l, ofOffset? source n = some l → l.offset = n) ∧
    ofOffset? source 0 = some ⟨0, 0, 0⟩ ∧
    (∀ a b, a < b → source.IsBoundary a → source.IsBoundary b →
      ∃ l m, ofOffset? source a = some l ∧ ofOffset? source b = some m ∧
        l.position < m.position) ∧
    (∀ (before : Text) c rest, source = before ++ c :: rest →
      ∃ l m, ofOffset? source before.size = some l ∧
        ofOffset? source (before.size + c.utf8Size) = some m ∧
        (m.row, m.column) = (if c = '\n' then (l.row + 1, 0) else (l.row, l.column + 1)) ∧
        ∀ n, before.size ≤ n → n < before.size + c.utf8Size →
          ofOffset? source n = some { l with offset := n }) ∧
    (∀ a b l m, a ≤ b → ofOffset? source a = some l → ofOffset? source b = some m →
      l.position ≤ m.position) := by
  refine ⟨fun _ => ofOffset?_eq_none_iff, fun n l hl => ?_,
    ofOffset?_size_of_prefix List.nil_prefix, fun _ _ => position_strictMono,
    fun _ _ _ => ofOffset?_step, fun _ _ _ _ => position_mono⟩
  have hn : n ≤ source.size := by
    rw [← Nat.not_lt, ← ofOffset?_eq_none_iff, hl]
    exact Option.some_ne_none l
  rw [ofOffset?_eq_some hn] at hl
  cases hl
  rfl

/-- A character of two bytes, a newline, and one more character. -/
theorem ofOffset?_faithful_umlaut :
    ['ü', '\n', 'x'] = ['ü'] ++ '\n' :: ['x'] ∧
    (∃ l m, ofOffset? ['ü', '\n', 'x'] 2 = some l ∧ ofOffset? ['ü', '\n', 'x'] 3 = some m ∧
      (m.row, m.column) = (l.row + 1, 0)) ∧
    Text.IsBoundary ['ü', '\n', 'x'] 2 ∧ Text.IsBoundary ['ü', '\n', 'x'] 4 ∧
    (∃ l m, ofOffset? ['ü', '\n', 'x'] 2 = some l ∧ ofOffset? ['ü', '\n', 'x'] 4 = some m ∧
      l.position < m.position) ∧
    (⟨1, 0, 0⟩ : Location).position ≤ (⟨4, 1, 1⟩ : Location).position := by
  have hshort : Text.IsBoundary ['ü', '\n', 'x'] 2 := ⟨['ü'], by decide, rfl⟩
  have hlong : Text.IsBoundary ['ü', '\n', 'x'] 4 := ⟨['ü', '\n', 'x'], by decide, rfl⟩
  obtain ⟨-, -, -, hstrict, hstep, hmono⟩ := ofOffset?_faithful ['ü', '\n', 'x']
  obtain ⟨l, m, hl, hm, hnext, -⟩ := hstep ['ü'] '\n' ['x'] rfl
  exact ⟨rfl, ⟨l, m, hl, hm, hnext⟩, hshort, hlong, hstrict 2 4 (by decide) hshort hlong,
    hmono 1 4 _ _ (by decide) rfl rfl⟩

end Location

end Bibliography
