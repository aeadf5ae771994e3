import Bibliography.Proofs.BibText.Assembly
import Bibliography.Proofs.BibText.PlainSyntax

set_option autoImplicit false

/-! # Reading a text with another behind it

What a reader takes ends with a delimiter or before a character that cannot belong to it. So it
takes the same from a text that goes on longer (`Prolongs`): its items stay the same but for the
lines that they are read on, and what is behind them is read as if it stood alone
(`takeItems_of_prolongs`). The one place where a text could swallow the start of another is a
comment without a group at its end, and a type that is not yet complete; a text that starts with
neither a letter nor white space nor a delimiter is safe from that (`StandsApart`).
-/

namespace Bibliography

/-! ## Items without their lines -/

def BibPiece.withoutLine : BibPiece → BibPiece
  | .text s => .text s
  | .name s _ => .name s 0

def BibField.withoutLines (f : BibField) : BibField :=
  { f with value := f.value.map BibPiece.withoutLine }

def BibItem.withoutLines : BibItem → BibItem
  | .preamble v => .preamble (v.map BibPiece.withoutLine)
  | .definitions fields => .definitions (fields.map BibField.withoutLines)
  | .entry kind key fields => .entry kind key (fields.map BibField.withoutLines)

namespace BibText

theorem expand_withoutLines (a : Abbreviations) (v : BibValue) :
    BibValue.expand a (v.map BibPiece.withoutLine) = v.expand a := by
  have hpiece : ∀ p : BibPiece, p.withoutLine.expand a = p.expand a := by
    rintro (s | ⟨s, line⟩) <;> rfl
  rw [BibValue.expand, BibValue.expand, List.flatMap_map]
  simp only [hpiece]

theorem abbreviations_withoutLines (a : Abbreviations) (i : BibItem) :
    i.withoutLines.abbreviations a = i.abbreviations a := by
  cases i with
  | definitions fields =>
    simp only [BibItem.withoutLines, BibItem.abbreviations, defineAll, List.foldl_map,
      BibField.withoutLines, expand_withoutLines]
  | preamble v => rfl
  | entry kind key fields => rfl

theorem entry?_withoutLines (a : Abbreviations) (i : BibItem) :
    i.withoutLines.entry? a = i.entry? a := by
  cases i with
  | entry kind key fields =>
    simp only [BibItem.withoutLines, BibItem.entry?, entryOf, List.foldl_map,
      BibField.withoutLines, expand_withoutLines]
  | preamble v => rfl
  | definitions fields => rfl

theorem chunk?_withoutLines (a : Abbreviations) (i : BibItem) :
    i.withoutLines.chunk? a = i.chunk? a := by
  cases i with
  | preamble v => exact congrArg some (expand_withoutLines a v)
  | definitions fields => rfl
  | entry kind key fields => rfl

/-- What items stand for does not depend on lines. -/
theorem collect_withoutLines {α : Type} {what : Abbreviations → BibItem → Option α}
    (hwhat : ∀ a i, what a i.withoutLines = what a i) (a : Abbreviations) (is : List BibItem) :
    collect what a (is.map BibItem.withoutLines) = collect what a is := by
  induction is generalizing a with
  | nil => rfl
  | cons i is ih => rw [List.map_cons, collect, hwhat, abbreviations_withoutLines, ih, collect]

/-- Items that are the same without their lines stand for the same. -/
theorem collect_congr {α : Type} {what : Abbreviations → BibItem → Option α}
    (hwhat : ∀ a i, what a i.withoutLines = what a i) {is js : List BibItem}
    (h : is.map BibItem.withoutLines = js.map BibItem.withoutLines) (a : Abbreviations) :
    collect what a is = collect what a js := by
  rw [← collect_withoutLines hwhat a is, h, collect_withoutLines hwhat]

/-! ## Cursors before longer texts -/

variable {c c' d : Cursor} {t : Text} {ch : Char} {p : Char → Bool}

/-- The cursor `c'` has before it what `c` has, and behind that the text `t`. -/
def Prolongs (t : Text) (c c' : Cursor) : Prop := c'.rest = c.rest ++ t

/-- There is something between the cursor and the text behind, or no text behind. -/
def Settled (t : Text) (d : Cursor) : Prop := d.rest ≠ [] ∨ t = []

theorem settled_of_head? (h : d.head? = some ch) : Settled t d := by
  refine Or.inl fun hnil => ?_
  rw [Cursor.head?, hnil] at h
  cases h

theorem ne_nil_of_length {c d : Cursor} (h : d.length < c.length) : c.rest ≠ [] := by
  intro hnil
  rw [Cursor.length, Cursor.length, hnil] at h
  exact Nat.not_lt_zero _ h

theorem Settled.of_suffix {w : Text} (hrest : c.rest = w ++ d.rest) (h : Settled t d) :
    Settled t c := by
  refine h.imp_left fun hne hnil => hne ?_
  rw [hrest] at hnil
  exact (List.append_eq_nil_iff.1 hnil).2

theorem Prolongs.head? (h : Prolongs t c c') (hc : c.rest ≠ []) : c'.head? = c.head? := by
  obtain ⟨x, r, hx⟩ := List.exists_cons_of_ne_nil hc
  rw [Cursor.head?, Cursor.head?, h, hx]
  rfl

theorem Prolongs.head?_of_settled (h : Prolongs t c c') (hc : Settled t c) :
    c'.head? = c.head? := by
  rcases hc with hc | rfl
  · exact h.head? hc
  · rw [Cursor.head?, Cursor.head?, h, List.append_nil]

theorem Prolongs.head?_eq (h : Prolongs t c c') (hc : c.head? = some ch) : c'.head? = some ch := by
  rw [h.head?_of_settled (settled_of_head? hc), hc]

theorem Prolongs.next (h : Prolongs t c c') (hc : c.head? = some ch) :
    Prolongs t c.next c'.next := by
  have hrest : c'.rest = ch :: (c.next.rest ++ t) := by
    rw [h, (Cursor.passes_next hc).rest]
    rfl
  exact rest_next hrest

/-- The same characters are taken, unless they reach to the end and more of them follow there. -/
theorem Prolongs.takeWhile (h : Prolongs t c c')
    (hend : (c.takeWhile p).2.rest = [] → ∀ ch, t.head? = some ch → p ch = false) :
    (c'.takeWhile p).1 = (c.takeWhile p).1 ∧
      Prolongs t (c.takeWhile p).2 (c'.takeWhile p).2 := by
  have hrest : c'.rest = (c.takeWhile p).1 ++ ((c.takeWhile p).2.rest ++ t) := by
    rw [h, (Cursor.passes_takeWhile p c).rest, List.append_assoc]
  have hstop : ∀ ch, ((c.takeWhile p).2.rest ++ t).head? = some ch → p ch = false := by
    intro ch hch
    cases hbehind : (c.takeWhile p).2.rest with
    | nil =>
      rw [hbehind] at hch
      exact hend hbehind ch hch
    | cons x r =>
      rw [hbehind] at hch
      refine Cursor.of_head?_takeWhile (c := c) ?_
      rw [Cursor.head?, hbehind]
      exact hch
  rw [Cursor.takeWhile_of_passes (Cursor.passes_of_rest hrest)
    (fun _ hx => Cursor.of_mem_takeWhile hx) hstop]
  exact ⟨rfl, rfl⟩

theorem Prolongs.takeWhile_of_settled (h : Prolongs t c c')
    (hsettled : Settled t (c.takeWhile p).2) :
    (c'.takeWhile p).1 = (c.takeWhile p).1 ∧
      Prolongs t (c.takeWhile p).2 (c'.takeWhile p).2 := by
  refine h.takeWhile fun hnil ch hch => ?_
  rcases hsettled with hne | rfl
  · exact absurd hnil hne
  · cases hch

theorem Prolongs.skipSpace (h : Prolongs t c c') (hsettled : Settled t c.skipSpace) :
    Prolongs t c.skipSpace c'.skipSpace :=
  (h.takeWhile_of_settled hsettled).2

/-- Before white space that is skipped the text is settled as well. -/
theorem Settled.of_skipSpace (h : Settled t c.skipSpace) : Settled t c :=
  h.of_suffix (Cursor.passes_takeWhile isAsciiSpace c).rest

/-! ## Groups, quotes and values -/

theorem takeGroup_append {close : Char} {n : Nat} {s taken rest : Text}
    (h : takeGroup close n s = some (taken, rest)) (t : Text) :
    takeGroup close n (s ++ t) = some (taken, rest ++ t) := by
  induction s generalizing n taken with
  | nil => cases h
  | cons x s ih =>
    rw [List.cons_append, takeGroup]
    rw [takeGroup] at h
    split at h
    · next hopen =>
      obtain ⟨⟨taken', rest'⟩, hr, heq⟩ := Option.map_eq_some_iff.1 h
      cases heq
      rw [if_pos hopen, ih hr, Option.map_some]
    · next hopen =>
      rw [if_neg hopen]
      split at h
      · next hclose =>
        cases h
        rw [if_pos hclose]
      · next hclose =>
        obtain ⟨⟨taken', rest'⟩, hr, heq⟩ := Option.map_eq_some_iff.1 h
        cases heq
        rw [if_neg hclose, ih hr, Option.map_some]

theorem takeQuoted_append {n : Nat} {s taken rest : Text}
    (h : takeQuoted n s = some (taken, rest)) (t : Text) :
    takeQuoted n (s ++ t) = some (taken, rest ++ t) := by
  induction s generalizing n taken with
  | nil => cases h
  | cons x s ih =>
    rw [List.cons_append, takeQuoted]
    rw [takeQuoted] at h
    split at h
    · next hquote =>
      cases h
      rw [if_pos hquote]
    · next hquote =>
      obtain ⟨⟨taken', rest'⟩, hr, heq⟩ := Option.map_eq_some_iff.1 h
      cases heq
      rw [if_neg hquote, ih hr, Option.map_some]

theorem takeDelimited_of_prolongs {close : Char} {w : Text} (hc : Prolongs t c c')
    (h : takeDelimited close c = .ok (w, d)) :
    ∃ d', takeDelimited close c' = .ok (w, d') ∧ Prolongs t d d' := by
  rw [takeDelimited] at h
  split at h
  · next taken rest hgroup =>
    cases h
    refine ⟨c'.past w (rest ++ t), ?_, rfl⟩
    rw [takeDelimited, hc, takeGroup_append hgroup]
  · cases h

/-- A piece is taken as before, but for its line. -/
theorem takePiece_of_prolongs {piece : BibPiece} (hc : Prolongs t c c')
    (h : takePiece c = .ok (piece, d)) (hd : Settled t d) :
    ∃ piece' d', takePiece c' = .ok (piece', d') ∧ piece'.withoutLine = piece.withoutLine ∧
      Prolongs t d d' := by
  rw [takePiece] at h
  rw [takePiece]
  cases hhead : c.head? with
  | none =>
    rw [hhead] at h
    cases h
  | some ch =>
    rw [hhead] at h
    rw [hc.head?_eq hhead]
    have hnext : Prolongs t c.next c'.next := hc.next hhead
    dsimp only at h ⊢
    split at h
    · next hquote =>
      rw [if_pos hquote]
      split at h
      · next taken rest htaken =>
        cases h
        refine ⟨.text taken, c'.next.past taken (rest ++ t), ?_, rfl, rfl⟩
        rw [hnext, takeQuoted_append htaken]
      · cases h
    next hquote =>
    rw [if_neg hquote]
    split at h
    · next hbrace =>
      rw [if_pos hbrace]
      split at h
      · next taken e htaken =>
        cases h
        obtain ⟨d', htaken', hd'⟩ := takeDelimited_of_prolongs hnext htaken
        exact ⟨.text taken, d', by rw [htaken'], rfl, hd'⟩
      · cases h
    next hbrace =>
    rw [if_neg hbrace]
    split at h
    · next hdigit =>
      cases h
      obtain ⟨htaken, hbehind⟩ := hc.takeWhile_of_settled hd
      exact ⟨.text _, _, if_pos hdigit, congrArg BibPiece.text htaken, hbehind⟩
    next hdigit =>
    rw [if_neg hdigit]
    split at h
    · next hname =>
      cases h
      obtain ⟨htaken, hbehind⟩ := hc.takeWhile_of_settled hd
      exact ⟨.name _ _, _, if_pos hname, congrArg (BibPiece.name · 0) htaken, hbehind⟩
    · cases h

/-- Behind a piece there are further pieces after `#`, or the value ends. -/
theorem takeValue_of_takePiece {piece : BibPiece} (h : takePiece c = .ok (piece, d)) :
    takeValue c =
      if d.skipSpace.head? = some '#' then
        (piece :: (takeValue d.skipSpace.next.skipSpace).1,
          (takeValue d.skipSpace.next.skipSpace).2)
      else ([piece], .ok d.skipSpace) := by
  rw [takeValue]
  split
  · next h' => cases h.symm.trans h'
  · next h' =>
    cases h.symm.trans h'
    rfl

/-- The pieces of a value are taken as before, but for their lines. -/
theorem takeValue_of_prolongs {v : BibValue} (hc : Prolongs t c c')
    (h : takeValue c = (v, .ok d)) (hd : Settled t d) :
    ∃ v' d', takeValue c' = (v', .ok d') ∧
      v'.map BibPiece.withoutLine = v.map BibPiece.withoutLine ∧ Prolongs t d d' := by
  fun_induction takeValue c generalizing c' v with
  | case1 c e hpiece => cases h
  | case2 c piece e hpiece hash pieces result hrest ih =>
    cases h
    obtain ⟨piece', e', hpiece', hsame, he⟩ :=
      takePiece_of_prolongs hc hpiece (settled_of_head? hash).of_skipSpace
    have hskip : Prolongs t e.skipSpace e'.skipSpace := he.skipSpace (settled_of_head? hash)
    -- a value starts with a piece, so something is left before it
    have hfirst : Settled t e.skipSpace.next.skipSpace :=
      Or.inl (ne_nil_of_length (length_of_takeValue _ (by rw [hrest])))
    have hnext := (hskip.next hash).skipSpace hfirst
    obtain ⟨v', d', hvalue', hothers, hd'⟩ := ih hnext hrest
    refine ⟨piece' :: v', d', ?_, ?_, hd'⟩
    · rw [takeValue_of_takePiece hpiece', if_pos (hskip.head?_eq hash), hvalue']
    · rw [List.map_cons, hsame, hothers, List.map_cons]
  | case3 c piece e hpiece hash =>
    cases h
    obtain ⟨piece', e', hpiece', hsame, he⟩ :=
      takePiece_of_prolongs hc hpiece hd.of_skipSpace
    have hskip : Prolongs t e.skipSpace e'.skipSpace := he.skipSpace hd
    refine ⟨[piece'], e'.skipSpace, ?_, congrArg (fun p => [p]) hsame, hskip⟩
    rw [takeValue_of_takePiece hpiece', hskip.head?_of_settled hd, if_neg hash]

/-! ## Fields and items -/

theorem expect_of_prolongs (hc : Prolongs t c c') (h : expect ch c = .ok d) :
    ∃ d', expect ch c' = .ok d' ∧ Prolongs t d d' := by
  rw [expect] at h
  split at h
  · next hhead =>
    cases h
    exact ⟨c'.next, by rw [expect, if_pos (hc.head?_eq hhead)], hc.next hhead⟩
  · cases h

theorem head?_of_expect (h : expect ch c = .ok d) : c.head? = some ch := by
  rw [expect] at h
  split at h
  · next hhead => exact hhead
  · cases h

/-- A field is taken as before, but for lines. -/
theorem takeField_of_prolongs {f : BibField} (hc : Prolongs t c c')
    (h : takeField c = .ok (f, d)) (hd : Settled t d) :
    ∃ f' d', takeField c' = .ok (f', d') ∧ f'.withoutLines = f.withoutLines ∧ Prolongs t d d' := by
  rw [takeField] at h
  dsimp only at h
  split at h
  · cases h
  next hname =>
  split at h
  · cases h
  next e hequals =>
  split at h
  · cases h
  next pieces d₀ hvalue =>
  cases h
  have hsettled : Settled t (c.takeWhile isNameChar).2.skipSpace :=
    settled_of_head? (head?_of_expect hequals)
  obtain ⟨hname', hbehind⟩ := hc.takeWhile_of_settled hsettled.of_skipSpace
  obtain ⟨e', hequals', he⟩ := expect_of_prolongs (hbehind.skipSpace hsettled) hequals
  have hfirst : Settled t e.skipSpace :=
    Or.inl (ne_nil_of_length (length_of_takeValue _ (by rw [hvalue])))
  obtain ⟨v', d', hvalue', hsame, hd'⟩ := takeValue_of_prolongs (he.skipSpace hfirst) hvalue hd
  refine ⟨⟨(c.takeWhile isNameChar).1.fold, v'⟩, d', ?_, congrArg (BibField.mk _) hsame, hd'⟩
  rw [takeField]
  dsimp only
  rw [hname', if_neg hname, hequals']
  dsimp only
  rw [hvalue']

/-- Fields up to their delimiter are taken as before, but for lines. -/
theorem takeFields_of_prolongs {close : Char} {fs : List BibField} (hc : Prolongs t c c')
    (h : takeFields close c = (fs, .ok d)) :
    ∃ fs' d', takeFields close c' = (fs', .ok d') ∧
      fs'.map BibField.withoutLines = fs.map BibField.withoutLines ∧ Prolongs t d d' := by
  fun_induction takeFields close c generalizing c' fs with
  | case1 c hclose =>
    cases h
    have hskip := hc.skipSpace (settled_of_head? hclose)
    refine ⟨[], c'.skipSpace.next, ?_, rfl, hskip.next hclose⟩
    rw [takeFields, if_pos (hskip.head?_eq hclose)]
  | case2 c hopen e hfield => cases h
  | case3 c hopen field e hfield hcomma fields result hrest ih =>
    cases h
    have hskipped : Settled t c.skipSpace := Or.inl (ne_nil_of_length (length_of_takeField hfield))
    have hskip := hc.skipSpace hskipped
    obtain ⟨f', e', hfield', hsame, he⟩ :=
      takeField_of_prolongs hskip hfield (settled_of_head? hcomma)
    obtain ⟨fs', d', hfields', hothers, hd'⟩ := ih (he.next hcomma) hrest
    refine ⟨f' :: fs', d', ?_, ?_, hd'⟩
    · rw [takeFields_of_takeField (by rwa [hskip.head?_of_settled hskipped]) hfield',
        if_pos (he.head?_eq hcomma), hfields']
    · rw [List.map_cons, hsame, hothers, List.map_cons]
  | case4 c hopen field e hfield hcomma hclose =>
    cases h
    have hskipped : Settled t c.skipSpace := Or.inl (ne_nil_of_length (length_of_takeField hfield))
    have hskip := hc.skipSpace hskipped
    obtain ⟨f', e', hfield', hsame, he⟩ :=
      takeField_of_prolongs hskip hfield (settled_of_head? hclose)
    refine ⟨[f'], e'.next, ?_, congrArg (fun f => [f]) hsame, he.next hclose⟩
    rw [takeFields_of_takeField (by rwa [hskip.head?_of_settled hskipped]) hfield',
      he.head?_eq hclose, if_neg (by rwa [hclose] at hcomma), if_pos rfl]
  | case5 c hopen field e hfield hcomma hclose => cases h

/-- The content of an item, up to its delimiter, is taken as before, but for lines. -/
theorem takeEntry_of_prolongs {kind : Text} {close : Char} {i? : Option BibItem}
    (hc : Prolongs t c c') (h : takeEntry kind close c = (i?, .ok d)) :
    ∃ i?' d', takeEntry kind close c' = (i?', .ok d') ∧
      i?'.map BibItem.withoutLines = i?.map BibItem.withoutLines ∧ Prolongs t d d' := by
  rw [takeEntry] at h
  rw [takeEntry]
  dsimp only at h ⊢
  generalize hchars : (fun ch => ch ≠ ',' && ch ≠ close && !isAsciiSpace ch) = q at h ⊢
  split at h
  · cases h
  next hkey =>
  -- the key stays the same if something is left behind it
  have hbefore : Settled t (c.skipSpace.takeWhile q).2.skipSpace →
      (c'.skipSpace.takeWhile q).1 = (c.skipSpace.takeWhile q).1 ∧
        Prolongs t (c.skipSpace.takeWhile q).2.skipSpace (c'.skipSpace.takeWhile q).2.skipSpace :=
    fun hsettled => by
      have hskipped : Settled t c.skipSpace :=
        hsettled.of_skipSpace.of_suffix (Cursor.passes_takeWhile q c.skipSpace).rest
      obtain ⟨hsame, hbehind⟩ := (hc.skipSpace hskipped).takeWhile_of_settled hsettled.of_skipSpace
      exact ⟨hsame, hbehind.skipSpace hsettled⟩
  split at h
  · next hclose =>
    cases h
    obtain ⟨hkey', hbehind⟩ := hbefore (settled_of_head? hclose)
    refine ⟨_, _, ?_, rfl, hbehind.next hclose⟩
    rw [hkey', if_neg hkey, if_pos (hbehind.head?_eq hclose)]
  next hclose =>
  split at h
  · cases h
  next e hcomma =>
  have hhead := head?_of_expect hcomma
  obtain ⟨hkey', hbehind⟩ := hbefore (settled_of_head? hhead)
  obtain ⟨e', hcomma', he⟩ := expect_of_prolongs hbehind hcomma
  obtain ⟨hitem, hresult⟩ := Prod.mk.inj h
  have hfields : takeFields close e = ((takeFields close e).1, .ok d) := Prod.ext rfl hresult
  obtain ⟨fs', d', hfields', hsame, hd'⟩ := takeFields_of_prolongs he hfields
  refine ⟨some (.entry kind (c.skipSpace.takeWhile q).1 fs'), d', ?_, ?_, hd'⟩
  · rw [hkey', if_neg hkey, hbehind.head?_eq hhead, if_neg (by rwa [hhead] at hclose), hcomma']
    dsimp only
    rw [hfields']
  · rw [← hitem]
    exact congrArg (some ∘ BibItem.entry kind _) hsame

theorem takeContent_of_prolongs {kind : Text} {close : Char} {i? : Option BibItem}
    (hc : Prolongs t c c') (h : takeContent kind close c = (i?, .ok d)) :
    ∃ i?' d', takeContent kind close c' = (i?', .ok d') ∧
      i?'.map BibItem.withoutLines = i?.map BibItem.withoutLines ∧ Prolongs t d d' := by
  rw [takeContent] at h
  split at h
  · next hpreamble =>
    split at h
    · cases h
    next pieces e hvalue =>
    split at h
    · cases h
    next e₁ hclose =>
    cases h
    have hfirst : Settled t c.skipSpace :=
      Or.inl (ne_nil_of_length (length_of_takeValue _ (by rw [hvalue])))
    obtain ⟨v', e', hvalue', hsame, he⟩ := takeValue_of_prolongs (hc.skipSpace hfirst) hvalue
      (settled_of_head? (head?_of_expect hclose))
    obtain ⟨d', hclose', hd'⟩ := expect_of_prolongs he hclose
    refine ⟨some (.preamble v'), d', ?_, congrArg (some ∘ BibItem.preamble) hsame, hd'⟩
    rw [takeContent, if_pos hpreamble, hvalue']
    dsimp only
    rw [hclose']
  next hpreamble =>
  split at h
  · next hstring =>
    obtain ⟨hitem, hresult⟩ := Prod.mk.inj h
    have hfields : takeFields close c = ((takeFields close c).1, .ok d) := Prod.ext rfl hresult
    obtain ⟨fs', d', hfields', hsame, hd'⟩ := takeFields_of_prolongs hc hfields
    refine ⟨some (.definitions fs'), d', ?_, ?_, hd'⟩
    · rw [takeContent, if_neg hpreamble, if_pos hstring, hfields']
    · rw [← hitem]
      exact congrArg (some ∘ BibItem.definitions) hsame
  · next hstring =>
    obtain ⟨i?', d', hentry, hsame, hd'⟩ := takeEntry_of_prolongs hc h
    exact ⟨i?', d', by rw [takeContent, if_neg hpreamble, if_neg hstring, hentry], hsame, hd'⟩

/-- A text that can prolong neither the type of an item nor a comment. -/
def StandsApart (t : Text) : Prop :=
  ∀ ch, t.head? = some ch →
    ch.isAlpha = false ∧ isAsciiSpace ch = false ∧ closingOf? ch = none

theorem standsApart_nil : StandsApart [] := nofun

/-- White space that reaches to the end is not prolonged by a text that stands apart. -/
theorem Prolongs.skipSpace_of_standsApart (hc : Prolongs t c c') (ht : StandsApart t) :
    Prolongs t c.skipSpace c'.skipSpace :=
  (hc.takeWhile fun _ ch hch => (ht ch hch).2.1).2

/-- Where a group starts in the longer text, it starts in the shorter one. -/
theorem Prolongs.closingOf?_head? (hc : Prolongs t c c') (ht : StandsApart t) :
    c'.head?.bind closingOf? = c.head?.bind closingOf? := by
  by_cases hnil : c.rest = []
  · rw [Cursor.head?, Cursor.head?, hc, hnil, List.nil_append, List.head?_nil, Option.bind_none,
      Option.bind_eq_none_iff]
    exact fun ch hch => (ht ch hch).2.2
  · rw [hc.head? hnil]

theorem skipComment_of_prolongs (ht : StandsApart t) (hc : Prolongs t c c')
    (h : skipComment c = .ok d) : ∃ d', skipComment c' = .ok d' ∧ Prolongs t d d' := by
  rw [skipComment] at h
  rw [skipComment, hc.closingOf?_head? ht]
  cases hclose : c.head?.bind closingOf? with
  | none =>
    rw [hclose] at h
    cases h
    exact ⟨c', rfl, hc⟩
  | some close =>
    rw [hclose] at h
    dsimp only at h ⊢
    obtain ⟨ch, hhead, -⟩ := Option.bind_eq_some_iff.1 hclose
    split at h
    · cases h
    next w e hgroup =>
    cases h
    obtain ⟨d', hgroup', hd'⟩ := takeDelimited_of_prolongs (hc.next hhead) hgroup
    exact ⟨d', by rw [hgroup'], hd'⟩

/-- **An item is taken as before, but for lines.** -/
theorem takeItem_of_prolongs {i? : Option BibItem} (ht : StandsApart t) (hc : Prolongs t c c')
    (h : takeItem c = (i?, .ok d)) :
    ∃ i?' d', takeItem c' = (i?', .ok d') ∧
      i?'.map BibItem.withoutLines = i?.map BibItem.withoutLines ∧ Prolongs t d d' := by
  obtain ⟨hletters, hbehind⟩ :=
    (hc.skipSpace_of_standsApart ht).takeWhile (p := Char.isAlpha) fun _ ch hch => (ht ch hch).1
  have hskip := hbehind.skipSpace_of_standsApart ht
  rw [takeItem] at h
  rw [takeItem]
  dsimp only at h ⊢
  rw [hletters]
  split at h
  · cases h
  next hkind =>
  rw [if_neg hkind]
  split at h
  · next hcomment =>
    obtain ⟨rfl, hresult⟩ := Prod.mk.inj h
    obtain ⟨d', hcomment', hd'⟩ := skipComment_of_prolongs ht hskip hresult
    exact ⟨none, d', by rw [if_pos hcomment, hcomment'], rfl, hd'⟩
  next hcomment =>
  rw [if_neg hcomment, hskip.closingOf?_head? ht]
  cases hclose : (c.skipSpace.takeWhile Char.isAlpha).2.skipSpace.head?.bind closingOf? with
  | none =>
    rw [hclose] at h
    cases h
  | some close =>
    rw [hclose] at h
    obtain ⟨ch, hhead, -⟩ := Option.bind_eq_some_iff.1 hclose
    exact takeContent_of_prolongs (hskip.next hhead) h

/-! ## Files -/

/-- What is read depends on what is found at the next `@`. -/
theorem takeItems_congr (h : (c.takeWhile (· ≠ '@')).2 = (d.takeWhile (· ≠ '@')).2) :
    takeItems c = takeItems d := by
  rw [takeItems, takeItems]
  generalize (c.takeWhile (· ≠ '@')).2 = found at h ⊢
  subst h
  rfl

theorem takeItems_of_takeItem {i? : Option BibItem}
    (hfound : (c.takeWhile (· ≠ '@')).2.head? = some '@')
    (hitem : takeItem (c.takeWhile (· ≠ '@')).2.next = (i?, .ok d)) :
    takeItems c = (i?.toList ++ (takeItems d).1, (takeItems d).2) := by
  rw [takeItems, dif_pos hfound]
  split
  · next hitem' => cases hitem.symm.trans hitem'
  · next hitem' =>
    cases hitem.symm.trans hitem'
    rfl

/-- What stands before the next `@` is skipped. -/
theorem takeItems_of_no_at {w : Text} (hw : '@' ∉ w) (hc : c.rest = w ++ t) :
    takeItems c = takeItems (c.past w t) := by
  have htake := Cursor.takeWhile_of_passes (p := (· ≠ '@'))
    ((Cursor.passes_of_rest hc).append (Cursor.passes_takeWhile (· ≠ '@') (c.past w t)))
    (fun ch hch => ?_) fun _ hch => Cursor.of_head?_takeWhile hch
  · exact takeItems_congr (by rw [htake])
  · rcases List.mem_append.1 hch with hch | hch
    · exact decide_eq_true fun heq => hw (heq ▸ hch)
    · exact Cursor.of_mem_takeWhile hch

theorem no_at_of_head? (h : (c.takeWhile (· ≠ '@')).2.head? ≠ some '@') : '@' ∉ c.rest := by
  intro hmem
  rw [(Cursor.passes_takeWhile (· ≠ '@') c).rest, List.mem_append] at hmem
  rcases hmem with hmem | hmem
  · simpa using Cursor.of_mem_takeWhile hmem
  · -- the first character that is left would be an `@`
    cases hrest : (c.takeWhile (· ≠ '@')).2.rest with
    | nil =>
      rw [hrest] at hmem
      cases hmem
    | cons x r =>
      have hhead := head?_of_rest hrest
      have hx : x = '@' := by simpa using Cursor.of_head?_takeWhile hhead
      exact h (hx ▸ hhead)

/-- **Behind the items of a text come those of the text behind it.** -/
theorem takeItems_of_prolongs {is : List BibItem} (ht : StandsApart t) (hc : Prolongs t c c')
    (h : takeItems c = (is, none)) :
    ∃ is' e, is'.map BibItem.withoutLines = is.map BibItem.withoutLines ∧ e.rest = t ∧
      takeItems c' = (is' ++ (takeItems e).1, (takeItems e).2) := by
  fun_induction takeItems c generalizing c' is with
  | case1 c found hfound item e => cases h
  | case2 c found hfound item e hitem items failure hrest =>
    rename_i ih
    cases h
    obtain ⟨-, hbehind⟩ := hc.takeWhile_of_settled (settled_of_head? hfound)
    obtain ⟨i?', e', hitem', hsame, he⟩ := takeItem_of_prolongs ht (hbehind.next hfound) hitem
    obtain ⟨is', e₁, hothers, he₁, hitems'⟩ := ih he hrest
    refine ⟨i?'.toList ++ is', e₁, ?_, he₁, ?_⟩
    · rw [List.map_append, hothers, List.map_append]
      congr 1
      cases i?' <;> cases item <;> simp_all
    · rw [takeItems_of_takeItem (hbehind.head?_eq hfound) hitem', hitems', List.append_assoc]
  | case3 c found =>
    rename_i hfound
    cases h
    refine ⟨[], c'.past c.rest t, rfl, rfl, ?_⟩
    rw [takeItems_of_no_at (no_at_of_head? hfound) hc]
    rfl

end BibText

end Bibliography
