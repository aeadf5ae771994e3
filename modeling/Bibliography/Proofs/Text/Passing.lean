import Bibliography.Text.Cursor

set_option autoImplicit false

/-! # Texts that cursors pass

A reader takes a cursor to a later one. What it has read is the text between the two
(`Cursor.Passes`): the first cursor has that text before it, and the second one stands behind it, so
many bytes and lines later. What a reader does is told by the texts that it passes; offsets and
lines follow from these.
-/

namespace Bibliography.Cursor

/-- The text `w` leads from the cursor `c` to the cursor `d`. -/
structure Passes (c : Cursor) (w : Text) (d : Cursor) : Prop where
  rest : c.rest = w ++ d.rest
  past : d = c.past w d.rest

/-! ## Passing one text after another -/

variable {c d e : Cursor} {v w : Text}

theorem passes_of_rest {r : Text} (h : c.rest = w ++ r) : c.Passes w (c.past w r) := ⟨h, rfl⟩

theorem past_past (c : Cursor) (v w r s : Text) : (c.past v r).past w s = c.past (v ++ w) s := by
  simp only [Cursor.past, Text.size_append, List.count_append, Nat.add_assoc]

theorem passes_nil (c : Cursor) : c.Passes [] c := ⟨rfl, rfl⟩

theorem Passes.append (hv : c.Passes v d) (hw : d.Passes w e) : c.Passes (v ++ w) e where
  rest := by rw [hv.rest, hw.rest, List.append_assoc]
  past := by
    have hpast : e = (c.past v d.rest).past w e.rest := by
      rw [← hv.past]
      exact hw.past
    rwa [past_past] at hpast

theorem Passes.unique (hd : c.Passes w d) (he : c.Passes w e) : d = e := by
  have hrest : d.rest = e.rest := List.append_cancel_left (hd.rest.symm.trans he.rest)
  rw [hd.past, he.past, hrest]

/-- On the way there is a cursor between two texts. -/
theorem Passes.split (h : c.Passes (v ++ w) e) : ∃ d, c.Passes v d ∧ d.Passes w e := by
  have hv : c.Passes v (c.past v (w ++ e.rest)) :=
    passes_of_rest (by rw [h.rest, List.append_assoc])
  refine ⟨_, hv, rfl, ?_⟩
  rw [past_past]
  exact h.past

theorem Passes.offset (h : c.Passes w d) : d.offset = c.offset + w.size := by rw [h.past]; rfl

/-! ## Single characters -/

theorem passes_next {ch : Char} (h : c.head? = some ch) : c.Passes [ch] c.next := by
  obtain ⟨rest, offset, line⟩ := c
  cases rest with
  | nil => cases h
  | cons x rest =>
    obtain rfl := Option.some.inj h
    exact ⟨rfl, rfl⟩

theorem Passes.head? {ch : Char} (h : c.Passes (ch :: w) d) : c.head? = some ch := by
  rw [Cursor.head?, h.rest]
  rfl

/-- Behind the first character the rest of the text is passed. -/
theorem Passes.next {ch : Char} (h : c.Passes (ch :: w) d) : c.next.Passes w d := by
  obtain ⟨e, he, hw⟩ := Passes.split (v := [ch]) h
  rwa [(passes_next h.head?).unique he]

theorem head?_eq_none_iff : c.head? = none ↔ c.rest = [] := List.head?_eq_none_iff

/-! ## Runs of characters -/

variable {p : Char → Bool}

theorem passes_takeWhile (p : Char → Bool) (c : Cursor) :
    c.Passes (c.takeWhile p).1 (c.takeWhile p).2 :=
  ⟨(List.takeWhile_append_dropWhile (p := p)).symm, rfl⟩

theorem of_mem_takeWhile {ch : Char} (h : ch ∈ (c.takeWhile p).1) : p ch = true :=
  List.all_eq_true.1 List.all_takeWhile ch h

theorem of_head?_takeWhile {ch : Char} (h : (c.takeWhile p).2.head? = some ch) : p ch = false :=
  Text.eq_false_of_mem_head?_dropWhile (l := c.rest) h

/-- The characters up to the first that does not satisfy `p` are taken. -/
theorem takeWhile_of_passes (h : c.Passes w d) (hw : ∀ ch ∈ w, p ch = true)
    (hd : ∀ ch, d.head? = some ch → p ch = false) : c.takeWhile p = (w, d) := by
  have htaken : c.rest.takeWhile p = w := by
    rw [h.rest, List.takeWhile_append_of_pos hw]
    cases hrest : d.rest with
    | nil => simp
    | cons ch rest =>
      have hch : p ch = false := hd ch (by rw [head?, hrest]; rfl)
      rw [List.takeWhile_cons_of_neg (by simp [hch]), List.append_nil]
  have hfirst : c.Passes w (c.takeWhile p).2 := by
    have hpasses := passes_takeWhile p c
    rwa [show (c.takeWhile p).1 = w from htaken] at hpasses
  exact Prod.ext htaken (hfirst.unique h)

end Bibliography.Cursor
