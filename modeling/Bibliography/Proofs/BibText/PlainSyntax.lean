import Bibliography.BibText.Contents
import Bibliography.Proofs.Tex.Braces
import Bibliography.Proofs.Text.Passing
import Bibliography.Proofs.Unicode.Folding

set_option autoImplicit false

/-! # Plain syntax of database files

A database file in plain syntax holds entries and other text without `@`. The values of its fields
are single texts in braces or quotes. Here is which texts write which entries, and that the reader
finds exactly these entries in them (`items_of_writes`).
-/

namespace Bibliography.BibText

/-! ## Plain entries -/

/-- A field that can be written plainly: its name is a name in lower case, and its value is a
balanced text in which no white space could be collapsed. -/
structure PlainField where
  name : Text
  value : Text
  name_ne_nil : name ≠ []
  name_chars : name.all (fun c => isNameChar c && !c.isUpper) = true
  balanced : Tex.isBalanced value = true
  collapsed : value.collapse = value

/-- An entry that can be written plainly, up to the delimiter `close`. -/
structure PlainEntry where
  close : Char
  kind : Text
  key : Text
  fields : List PlainField
  close_eq : close = '}' ∨ close = ')'
  kind_ne_nil : kind ≠ []
  kind_chars : kind.all Char.isLower = true
  kind_entry : kind ∉ ["comment".toList, "preamble".toList, "string".toList]
  key_ne_nil : key ≠ []
  key_chars : key.all (fun c => c ≠ ',' && c ≠ close && !isAsciiSpace c) = true
  names_distinct : (fields.map (·.name)).Nodup

/-! ## How they are written -/

/-- White space that may stand around the parts of an entry. -/
def IsBlanks (s : Text) : Prop := ∀ c ∈ s, isAsciiSpace c = true

/-- Every quote in the text lies inside braces. -/
def QuotesInBraces (v : Text) : Prop :=
  ∀ before after, v = before ++ '"' :: after → Tex.openAfter? 0 before ≠ some 0

/-- The texts that write a value: in braces, and in quotes if it has no quotes outside braces. -/
inductive WritesValue (v : Text) : Text → Prop
  | braced : WritesValue v ('{' :: v ++ ['}'])
  | quoted (h : QuotesInBraces v) : WritesValue v ('"' :: v ++ ['"'])

/-- The texts that write fields, each with a comma before it, and perhaps a comma behind the
last. -/
inductive WritesFields : List PlainField → Text → Prop
  | nil : WritesFields [] []
  | comma {a : Text} (ha : IsBlanks a) : WritesFields [] (',' :: a)
  | cons {f : PlainField} {fs : List PlainField} {a b c w d rest : Text} (ha : IsBlanks a)
      (hb : IsBlanks b) (hc : IsBlanks c) (hw : WritesValue f.value w) (hd : IsBlanks d)
      (hrest : WritesFields fs rest) :
      WritesFields (f :: fs) (',' :: (a ++ (f.name ++ b ++ '=' :: (c ++ (w ++ d))) ++ rest))

/-- The texts that write an entry. -/
inductive WritesEntry (e : PlainEntry) : Text → Prop
  | intro {a b c d w : Text} (ha : IsBlanks a) (hb : IsBlanks b) (hc : IsBlanks c)
      (hd : IsBlanks d) (hw : WritesFields e.fields w) :
      WritesEntry e ('@' :: (a ++ (e.kind ++ b ++
        openingOf e.close :: (c ++ (e.key ++ d ++ (w ++ [e.close]))))))

/-- The texts that write entries, with any other text around them. -/
inductive Writes : List PlainEntry → Text → Prop
  | nil {other : Text} (hother : '@' ∉ other) : Writes [] other
  | cons {e : PlainEntry} {es : List PlainEntry} {other w rest : Text} (hother : '@' ∉ other)
      (hw : WritesEntry e w) (hrest : Writes es rest) : Writes (e :: es) (other ++ w ++ rest)

/-! ## Single characters -/

variable {c d e : Cursor} {ch : Char}

theorem PlainField.isNameChar_of_mem (f : PlainField) (h : ch ∈ f.name) :
    isNameChar ch = true ∧ ch.isUpper = false := by
  simpa using List.all_eq_true.1 f.name_chars ch h

/-- What can be computed of all blanks holds of each. -/
theorem of_isAsciiSpace {p : Char → Bool} (h : isAsciiSpace ch = true)
    (hp : [' ', '\t', '\n', '\x0c', '\r'].all p = true) : p ch = true := by
  refine List.all_eq_true.1 hp ch ?_
  simpa [isAsciiSpace, or_assoc] using h

theorem isNameChar_of_isAsciiSpace (h : isAsciiSpace ch = true) : isNameChar ch = false := by
  simpa using of_isAsciiSpace (p := fun m => !isNameChar m) h (by decide)

theorem isAlpha_of_isAsciiSpace (h : isAsciiSpace ch = true) : ch.isAlpha = false := by
  simpa using of_isAsciiSpace (p := fun m => !m.isAlpha) h (by decide)

theorem isAsciiSpace_of_isNameChar (h : isNameChar ch = true) : isAsciiSpace ch = false := by
  rw [← Bool.not_eq_true]
  intro hblank
  rw [isNameChar_of_isAsciiSpace hblank] at h
  cases h

theorem isAsciiSpace_of_isAlpha (h : ch.isAlpha = true) : isAsciiSpace ch = false := by
  rw [← Bool.not_eq_true]
  intro hblank
  rw [isAlpha_of_isAsciiSpace hblank] at h
  cases h

/-- Name characters are ASCII characters. -/
theorem toNat_of_isNameChar (h : isNameChar ch = true) : ch.toNat < 0x80 := by
  rw [isNameChar, Bool.or_eq_true] at h
  rcases h with halphanum | hmark
  · rw [Char.isAlphanum, Unicode.isAlpha_eq, Bool.or_eq_true, Bool.or_eq_true] at halphanum
    rcases halphanum with (hupper | hlower) | hdigit
    · have hcode := Unicode.isUpper_iff.1 hupper
      omega
    · have hcode := Unicode.isLower_iff.1 hlower
      omega
    · have hcode := Unicode.isDigit_iff.1 hdigit
      omega
  · have hmarks : "!$&*+-./:;<>?[]^_`|".toList.all (fun m => decide (m.toNat < 0x80)) = true := by
      decide
    exact of_decide_eq_true (List.all_eq_true.1 hmarks ch (List.contains_iff_mem.1 hmark))

/-- The delimiters of entries. -/
theorem close_facts (p : PlainEntry) :
    closingOf? (openingOf p.close) = some p.close ∧ isAsciiSpace (openingOf p.close) = false ∧
      (openingOf p.close).isAlpha = false ∧ isAsciiSpace p.close = false ∧
      isNameChar p.close = false ∧ p.close ≠ ',' ∧ p.close ≠ '#' := by
  rcases p.close_eq with h | h <;> rw [h] <;> decide

theorem fold_name (f : PlainField) : f.name.fold = f.name :=
  Unicode.foldCase_of_ascii fun _ hc =>
    ⟨toNat_of_isNameChar (f.isNameChar_of_mem hc).1, (f.isNameChar_of_mem hc).2⟩

theorem PlainEntry.of_mem_key (p : PlainEntry) (h : ch ∈ p.key) :
    ch ≠ ',' ∧ ch ≠ p.close ∧ isAsciiSpace ch = false := by
  simpa [and_assoc] using List.all_eq_true.1 p.key_chars ch h

theorem fold_kind (p : PlainEntry) : p.kind.fold = p.kind := by
  refine Unicode.foldCase_of_ascii fun _ hc => ?_
  have hcode := Unicode.isLower_iff.1 (List.all_eq_true.1 p.kind_chars _ hc)
  refine ⟨by omega, ?_⟩
  rw [← Bool.not_eq_true, Unicode.isUpper_iff]
  omega

/-! ## Reading the parts

What a part is read as depends only on what is left of the text, so each lemma says what is left
before and behind it. -/

variable {r : Text}

theorem head?_of_rest (hc : c.rest = ch :: r) : c.head? = some ch := by rw [Cursor.head?, hc]; rfl

theorem rest_next (hc : c.rest = ch :: r) : c.next.rest = r := by
  show c.rest.drop 1 = r
  rw [hc]
  rfl

theorem takeWhile_of_rest {p : Char → Bool} {w : Text} (hc : c.rest = w ++ ch :: r)
    (hw : ∀ x ∈ w, p x = true) (hch : p ch = false) :
    c.takeWhile p = (w, c.past w (ch :: r)) := by
  refine Cursor.takeWhile_of_passes (Cursor.passes_of_rest hc) hw fun x hx => ?_
  rw [← Option.some.inj hx]
  exact hch

theorem rest_skipSpace {s : Text} (hs : IsBlanks s) (hc : c.rest = s ++ ch :: r)
    (hch : isAsciiSpace ch = false) : c.skipSpace.rest = ch :: r := by
  rw [Cursor.skipSpace, takeWhile_of_rest hc hs hch]
  rfl

theorem expect_of_rest (hc : c.rest = ch :: r) : expect ch c = .ok c.next := by
  rw [expect, if_pos (head?_of_rest hc)]

/-- Blanks and the character behind them start with a blank or with that character. -/
theorem exists_cons_of_isBlanks {s : Text} (hs : IsBlanks s) (ch : Char) (r : Text) :
    ∃ x t, s ++ ch :: r = x :: t ∧ (isAsciiSpace x = true ∨ x = ch) := by
  cases s with
  | nil => exact ⟨ch, r, rfl, Or.inr rfl⟩
  | cons x s => exact ⟨x, s ++ ch :: r, rfl, Or.inl (hs x List.mem_cons_self)⟩

/-- A group in which `n` further braces are open is taken up to the brace that closes it. -/
theorem takeGroup_of_openAfter? {n : Nat} {v : Text} (h : Tex.openAfter? n v = some 0)
    (rest : Text) : takeGroup '}' (n + 1) (v ++ '}' :: rest) = some (v, rest) := by
  induction v generalizing n with
  | nil =>
    cases h
    rfl
  | cons x v ih =>
    rw [List.cons_append, takeGroup, show openingOf '}' = '{' from rfl]
    rcases Tex.openAfter?_cons_eq_some h with ⟨rfl, hv⟩ | ⟨n, rfl, rfl, hv⟩ | ⟨hx, hv⟩
    · rw [if_pos rfl, ih hv, Option.map_some]
    · have hinner : ¬ ('}' = '}' ∧ n + 1 + 1 ≤ 1) := by omega
      rw [if_neg (by decide), if_neg hinner, if_pos rfl, Nat.add_sub_cancel, ih hv,
        Option.map_some]
    · have hother : x ≠ '{' ∧ x ≠ '}' := Tex.isBrace_eq_false_iff.1 hx
      rw [if_neg hother.1, if_neg (fun hboth => hother.2 hboth.1), if_neg hother.2, ih hv,
        Option.map_some]

/-- A quoted text is taken up to the quote that ends it. -/
theorem takeQuoted_of_openAfter? {n : Nat} {v : Text} (h : Tex.openAfter? n v = some 0)
    (hquotes : ∀ before after, v = before ++ '"' :: after → Tex.openAfter? n before ≠ some 0)
    (rest : Text) : takeQuoted n (v ++ '"' :: rest) = some (v, rest) := by
  induction v generalizing n with
  | nil =>
    cases h
    rfl
  | cons x v ih =>
    have hinside : ¬ (x = '"' ∧ n = 0) := by
      rintro ⟨rfl, rfl⟩
      exact hquotes [] v rfl rfl
    rw [List.cons_append, takeQuoted, if_neg hinside]
    have hquotes' : ∀ before after, v = before ++ '"' :: after →
        Tex.openAfter? n (x :: before) ≠ some 0 :=
      fun before after hv => hquotes (x :: before) after (by rw [hv]; rfl)
    rcases Tex.openAfter?_cons_eq_some h with ⟨rfl, hv⟩ | ⟨n, rfl, rfl, hv⟩ | ⟨hx, hv⟩
    · rw [if_pos rfl, ih hv hquotes', Option.map_some]
    · rw [if_neg (by decide), if_pos rfl, Nat.add_sub_cancel, ih hv hquotes', Option.map_some]
    · have hother : x ≠ '{' ∧ x ≠ '}' := Tex.isBrace_eq_false_iff.1 hx
      simp only [Tex.openAfter?_cons_other hx] at hquotes'
      rw [if_neg hother.1, if_neg hother.2, ih hv hquotes', Option.map_some]

/-- A written value is read as its text. -/
theorem takePiece_of_writesValue {v w : Text} (hv : Tex.isBalanced v = true)
    (hw : WritesValue v w) (hc : c.rest = w ++ r) :
    ∃ d, takePiece c = .ok (.text v, d) ∧ d.rest = r := by
  have hopen : Tex.openAfter? 0 v = some 0 := (Tex.isBalanced_iff v).1 hv
  cases hw with
  | braced =>
    have hrest : c.rest = '{' :: (v ++ '}' :: r) := by
      rw [hc]
      simp
    refine ⟨c.next.past v r, ?_, rfl⟩
    rw [takePiece, head?_of_rest hrest]
    dsimp only
    rw [if_neg (by decide), if_pos rfl, takeDelimited, rest_next hrest,
      takeGroup_of_openAfter? hopen]
  | quoted hquotes =>
    have hrest : c.rest = '"' :: (v ++ '"' :: r) := by
      rw [hc]
      simp
    refine ⟨c.next.past v r, ?_, rfl⟩
    rw [takePiece, head?_of_rest hrest]
    dsimp only
    rw [if_pos rfl, rest_next hrest, takeQuoted_of_openAfter? hopen hquotes]

/-- A value is a single piece unless a `#` follows. -/
theorem takeValue_of_writesValue {v w s : Text} (hv : Tex.isBalanced v = true)
    (hw : WritesValue v w) (hs : IsBlanks s) (hc : c.rest = w ++ (s ++ ch :: r))
    (hch : isAsciiSpace ch = false) (hhash : ch ≠ '#') :
    ∃ d, takeValue c = ([.text v], .ok d) ∧ d.rest = ch :: r := by
  obtain ⟨d, hpiece, hd⟩ := takePiece_of_writesValue hv hw hc
  have hskip : d.skipSpace.rest = ch :: r := rest_skipSpace hs hd hch
  have hlast : d.skipSpace.head? ≠ some '#' := by
    rw [head?_of_rest hskip]
    exact fun heq => hhash (Option.some.inj heq)
  refine ⟨d.skipSpace, ?_, hskip⟩
  rw [takeValue]
  split
  · next hpiece' => cases hpiece.symm.trans hpiece'
  · next hpiece' =>
    cases hpiece.symm.trans hpiece'
    rw [if_neg hlast]

theorem exists_cons_of_writesValue {v w : Text} (hw : WritesValue v w) :
    ∃ x t, w = x :: t ∧ isAsciiSpace x = false := by
  cases hw with
  | braced => exact ⟨'{', v ++ ['}'], rfl, by decide⟩
  | quoted _ => exact ⟨'"', v ++ ['"'], rfl, by decide⟩

def PlainField.field (f : PlainField) : BibField := ⟨f.name, [.text f.value]⟩

theorem takeField_of_writesValue {f : PlainField} {b a w s : Text} (hb : IsBlanks b)
    (ha : IsBlanks a) (hw : WritesValue f.value w) (hs : IsBlanks s)
    (hc : c.rest = f.name ++ (b ++ '=' :: (a ++ (w ++ (s ++ ch :: r)))))
    (hch : isAsciiSpace ch = false) (hhash : ch ≠ '#') :
    ∃ d, takeField c = .ok (f.field, d) ∧ d.rest = ch :: r := by
  obtain ⟨x, t, hbehind, hx⟩ := exists_cons_of_isBlanks hb '=' (a ++ (w ++ (s ++ ch :: r)))
  have hname : c.takeWhile isNameChar = (f.name, c.past f.name (x :: t)) := by
    refine takeWhile_of_rest (by rw [hc, hbehind]) (fun y hy => (f.isNameChar_of_mem hy).1) ?_
    rcases hx with hblank | rfl
    · exact isNameChar_of_isAsciiSpace hblank
    · decide
  have hequals : (c.past f.name (x :: t)).skipSpace.rest = '=' :: (a ++ (w ++ (s ++ ch :: r))) :=
    rest_skipSpace hb hbehind.symm (by decide)
  obtain ⟨y, u, hfirst, hy⟩ := exists_cons_of_writesValue hw
  have hvalue : (c.past f.name (x :: t)).skipSpace.next.skipSpace.rest = w ++ (s ++ ch :: r) := by
    rw [hfirst]
    refine rest_skipSpace ha ?_ hy
    rw [rest_next hequals, hfirst]
    rfl
  obtain ⟨d, htake, hd⟩ := takeValue_of_writesValue f.balanced hw hs hvalue hch hhash
  refine ⟨d, ?_, hd⟩
  rw [takeField, hname]
  dsimp only
  rw [if_neg f.name_ne_nil, expect_of_rest hequals]
  dsimp only
  rw [htake, fold_name]
  rfl

/-- What writes fields is empty or starts with a comma. -/
theorem exists_cons_of_writesFields {fs : List PlainField} {w : Text} (hw : WritesFields fs w) :
    w = [] ∧ fs = [] ∨ ∃ t, w = ',' :: t := by
  cases hw with
  | nil => exact Or.inl ⟨rfl, rfl⟩
  | comma => exact Or.inr ⟨_, rfl⟩
  | cons => exact Or.inr ⟨_, rfl⟩

/-- Behind a field there are further fields, the end, or a fault. -/
theorem takeFields_of_takeField {close : Char} {f : BibField}
    (hopen : c.skipSpace.head? ≠ some close) (htake : takeField c.skipSpace = .ok (f, d)) :
    takeFields close c =
      if d.head? = some ',' then (f :: (takeFields close d.next).1, (takeFields close d.next).2)
      else if d.head? = some close then ([f], .ok d.next)
      else ([f], .error ⟨[], stuckAt d (.missingSeparator close)⟩) := by
  rw [takeFields, if_neg hopen]
  split
  · next htake' => cases htake.symm.trans htake'
  · next htake' =>
    cases htake.symm.trans htake'
    rfl

/-- Written fields are read behind their first comma. -/
theorem takeFields_of_writesFields {p : PlainEntry} {fs : List PlainField} {w t : Text}
    (hw : WritesFields fs w) (hcomma : w = ',' :: t) (hc : c.rest = t ++ p.close :: r) :
    ∃ d, takeFields p.close c = (fs.map PlainField.field, .ok d) ∧ d.rest = r := by
  obtain ⟨-, -, -, hclose, hname, hsep, hhash⟩ := close_facts p
  induction hw generalizing c t with
  | nil => cases hcomma
  | comma ha =>
    cases hcomma
    have hskip : c.skipSpace.rest = p.close :: r := rest_skipSpace ha hc hclose
    refine ⟨c.skipSpace.next, ?_, rest_next hskip⟩
    rw [takeFields, if_pos (head?_of_rest hskip)]
    rfl
  | @cons f fs a b e w s rest ha hb he hw hs hrest ih =>
    cases hcomma
    obtain ⟨x, name, hx⟩ := List.exists_cons_of_ne_nil f.name_ne_nil
    have hxname : isNameChar x = true := (f.isNameChar_of_mem (hx ▸ List.mem_cons_self)).1
    have hskip : c.skipSpace.rest =
        f.name ++ (b ++ '=' :: (e ++ (w ++ (s ++ (rest ++ p.close :: r))))) := by
      rw [hx]
      refine rest_skipSpace ha ?_ (isAsciiSpace_of_isNameChar hxname)
      rw [hc, hx]
      simp
    have hopen : c.skipSpace.head? ≠ some p.close := by
      rw [Cursor.head?, hskip, hx]
      intro heq
      rw [← Option.some.inj heq, hxname] at hname
      cases hname
    -- behind the value stands the next comma or the closing delimiter
    rcases exists_cons_of_writesFields hrest with ⟨rfl, rfl⟩ | ⟨t, rfl⟩
    · obtain ⟨d, htake, hd⟩ := takeField_of_writesValue hb he hw hs hskip hclose hhash
      have hnocomma : d.head? ≠ some ',' := by
        rw [head?_of_rest hd]
        exact fun heq => hsep (Option.some.inj heq)
      refine ⟨d.next, ?_, rest_next hd⟩
      rw [takeFields_of_takeField hopen htake, if_neg hnocomma, if_pos (head?_of_rest hd)]
      rfl
    · obtain ⟨d, htake, hd⟩ := takeField_of_writesValue hb he hw hs hskip (by decide) (by decide)
      obtain ⟨d', hothers, hd'⟩ := ih rfl (rest_next hd)
      refine ⟨d', ?_, hd'⟩
      rw [takeFields_of_takeField hopen htake, if_pos (head?_of_rest hd), hothers]
      rfl

/-! ## Reading entries -/

def PlainEntry.item (p : PlainEntry) : BibItem :=
  .entry p.kind p.key (p.fields.map PlainField.field)

theorem takeEntry_of_writesFields {p : PlainEntry} {a b w : Text} (ha : IsBlanks a)
    (hb : IsBlanks b) (hw : WritesFields p.fields w)
    (hc : c.rest = a ++ (p.key ++ (b ++ (w ++ p.close :: r)))) :
    ∃ d, takeEntry p.kind p.close c = (some p.item, .ok d) ∧ d.rest = r := by
  obtain ⟨-, -, -, hclose, -, hsep, -⟩ := close_facts p
  obtain ⟨k, key, hkey⟩ := List.exists_cons_of_ne_nil p.key_ne_nil
  have hskip : c.skipSpace.rest = p.key ++ (b ++ (w ++ p.close :: r)) := by
    rw [hkey]
    refine rest_skipSpace ha (by rw [hc, hkey]; rfl) ?_
    exact (p.of_mem_key (hkey ▸ List.mem_cons_self)).2.2
  -- the key ends before a blank, a comma or the closing delimiter
  obtain ⟨y, u, hfirst, hy⟩ : ∃ y u, w ++ p.close :: r = y :: u ∧ (y = ',' ∨ y = p.close) := by
    rcases exists_cons_of_writesFields hw with ⟨rfl, -⟩ | ⟨t, rfl⟩
    · exact ⟨p.close, r, rfl, Or.inr rfl⟩
    · exact ⟨',', t ++ p.close :: r, rfl, Or.inl rfl⟩
  obtain ⟨x, t, hbehind, hx⟩ := exists_cons_of_isBlanks hb y u
  have htake : (c.skipSpace.takeWhile fun ch => ch ≠ ',' && ch ≠ p.close && !isAsciiSpace ch) =
      (p.key, c.skipSpace.past p.key (x :: t)) := by
    refine takeWhile_of_rest (by rw [hskip, hfirst, hbehind]) (fun z hz => ?_) ?_
    · obtain ⟨hcomma, hnot, hblank⟩ := p.of_mem_key hz
      simp [hcomma, hnot, hblank]
    · rcases hx with hblank | rfl
      · simp [hblank]
      · rcases hy with rfl | rfl <;> simp
  have hblank : isAsciiSpace y = false := by
    rcases hy with rfl | rfl
    · decide
    · exact hclose
  have hnext : (c.skipSpace.past p.key (x :: t)).skipSpace.rest = y :: u :=
    rest_skipSpace hb hbehind.symm hblank
  rw [takeEntry, htake]
  dsimp only
  rw [if_neg p.key_ne_nil]
  rcases exists_cons_of_writesFields hw with ⟨rfl, hnone⟩ | ⟨t', rfl⟩
  · obtain ⟨rfl, rfl⟩ := List.cons.inj hfirst
    refine ⟨_, ?_, rest_next hnext⟩
    rw [if_pos (head?_of_rest hnext), PlainEntry.item, hnone]
    rfl
  · obtain ⟨rfl, rfl⟩ := List.cons.inj hfirst
    have hopen : (c.skipSpace.past p.key (x :: t)).skipSpace.head? ≠ some p.close := by
      rw [head?_of_rest hnext]
      exact fun heq => hsep (Option.some.inj heq).symm
    obtain ⟨d, hfields, hd⟩ := takeFields_of_writesFields (p := p) hw rfl (rest_next hnext)
    refine ⟨d, ?_, hd⟩
    rw [if_neg hopen, expect_of_rest hnext]
    dsimp only
    rw [hfields]
    rfl

/-- A written entry is read behind its `@`. -/
theorem takeItem_of_writesEntry {p : PlainEntry} {w t : Text} (hw : WritesEntry p w)
    (hat : w = '@' :: t) (hc : c.rest = t ++ r) :
    ∃ d, takeItem c = (some p.item, .ok d) ∧ d.rest = r := by
  obtain ⟨hopening, hspace, hletter, -⟩ := close_facts p
  cases hw with
  | @intro a b e s w ha hb he hs hw =>
  obtain ⟨-, rfl⟩ := List.cons.inj hat
  obtain ⟨k, kind, hkind⟩ := List.exists_cons_of_ne_nil p.kind_ne_nil
  have hletters : ∀ x ∈ p.kind, x.isAlpha = true := fun x hx => by
    rw [Unicode.isAlpha_eq, List.all_eq_true.1 p.kind_chars x hx, Bool.or_true]
  have hskip : c.skipSpace.rest = p.kind ++ (b ++ openingOf p.close ::
      (e ++ (p.key ++ (s ++ (w ++ p.close :: r))))) := by
    rw [hkind]
    refine rest_skipSpace ha ?_
      (isAsciiSpace_of_isAlpha (hletters k (hkind ▸ List.mem_cons_self)))
    rw [hc, hkind]
    simp
  obtain ⟨x, t, hbehind, hx⟩ := exists_cons_of_isBlanks hb (openingOf p.close)
    (e ++ (p.key ++ (s ++ (w ++ p.close :: r))))
  have htake : c.skipSpace.takeWhile Char.isAlpha = (p.kind, c.skipSpace.past p.kind (x :: t)) := by
    refine takeWhile_of_rest (by rw [hskip, hbehind]) hletters ?_
    rcases hx with hblank | rfl
    · exact isAlpha_of_isAsciiSpace hblank
    · exact hletter
  have hdelimiter : (c.skipSpace.past p.kind (x :: t)).skipSpace.rest =
      openingOf p.close :: (e ++ (p.key ++ (s ++ (w ++ p.close :: r)))) :=
    rest_skipSpace hb hbehind.symm hspace
  obtain ⟨d, hentry, hd⟩ := takeEntry_of_writesFields he hs hw (rest_next hdelimiter)
  have hentries := p.kind_entry
  simp only [List.mem_cons, List.not_mem_nil, or_false, not_or] at hentries
  refine ⟨d, ?_, hd⟩
  rw [takeItem, htake]
  dsimp only
  rw [fold_kind, if_neg p.kind_ne_nil, if_neg hentries.1, head?_of_rest hdelimiter,
    Option.bind_some, hopening]
  dsimp only
  rw [takeContent, if_neg hentries.2.1, if_neg hentries.2.2, hentry]

theorem takeItems_of_writes {ps : List PlainEntry} {s : Text} (hs : Writes ps s) (hc : c.rest = s) :
    takeItems c = (ps.map PlainEntry.item, none) := by
  induction hs generalizing c with
  | @nil other hother =>
    have hnone : (c.takeWhile (· ≠ '@')).2.head? ≠ some '@' := by
      intro hfound
      have hmem : '@' ∈ (c.takeWhile (· ≠ '@')).2.rest := List.mem_of_mem_head? hfound
      refine hother ?_
      rw [← hc, (Cursor.passes_takeWhile (· ≠ '@') c).rest]
      exact List.mem_append_right _ hmem
    rw [takeItems, dif_neg hnone]
    rfl
  | @cons p ps other w rest hother hw _ ih =>
    obtain ⟨t, rfl⟩ : ∃ t, w = '@' :: t := by
      cases hw
      exact ⟨_, rfl⟩
    have hrest : c.rest = other ++ '@' :: (t ++ rest) := by
      rw [hc]
      simp
    have htake : c.takeWhile (· ≠ '@') = (other, c.past other ('@' :: (t ++ rest))) := by
      refine takeWhile_of_rest hrest (fun x hx => ?_) (by decide)
      have hne : x ≠ '@' := fun heq => hother (heq ▸ hx)
      simp [hne]
    have hfound : (c.takeWhile (· ≠ '@')).2.rest = '@' :: (t ++ rest) := by
      rw [htake]
      rfl
    obtain ⟨d, hitem, hd⟩ := takeItem_of_writesEntry hw rfl (rest_next hfound)
    rw [takeItems, dif_pos (head?_of_rest hfound)]
    split
    · next hitem' => cases hitem.symm.trans hitem'
    · next hitem' =>
      cases hitem.symm.trans hitem'
      rw [ih hd]
      rfl

/-- **The items of a text are the entries that it writes.** -/
theorem items_of_writes {ps : List PlainEntry} {s : Text} (hs : Writes ps s) :
    items s = (ps.map PlainEntry.item, none) :=
  takeItems_of_writes (c := .start s) hs rfl

end Bibliography.BibText
