import Bibliography.Proofs.Style.Reading

set_option autoImplicit false

/-! # Printing and reading again

A token is printed by `Token.text`. The commands that are read are proper: their names are words in
lower case, their strings lie within a line and their integers fit 64 bits. Of proper commands every
printed text is read back, with any letter case in the words that start commands and any space
between the tokens (`reading_undoes_printing`).
-/

namespace Bibliography.Style

/-! ## Proper tokens and commands -/

namespace Token

mutual

/-- A token that can be read: its names are spelled in lower case without marks. -/
def IsProper : Token → Prop
  | .integer n => inRange n = true
  | .string s => IsQuotable s
  | .name s => IsName s ∧ s.fold = s
  | .quoted s => IsWord s ∧ s.fold = s
  | .block body => AreProper body

/-- A row of proper tokens. -/
def AreProper : List Token → Prop
  | [] => True
  | t :: ts => t.IsProper ∧ AreProper ts

end

end Token

def Command.IsProper (c : Command) : Prop := ∀ row ∈ c.arguments, Token.AreProper row

instance (s : Text) : Decidable (IsQuotable s) :=
  decidable_of_iff (s.all (fun c => c ≠ '"' && c ≠ '\n') = true) (by simp [IsQuotable])

instance (s : Text) : Decidable (IsWord s) :=
  decidable_of_iff (s ≠ [] ∧ s.all (!Reader.endsName ·) = true)
    ⟨fun h => ⟨h.1, by simpa using h.2⟩, fun h => ⟨h.ne_nil, by simpa using h.inside⟩⟩

instance (s : Text) : Decidable (IsName s) :=
  decidable_of_iff (IsWord s ∧ s.head? ≠ some '#' ∧ s.head? ≠ some '\'' ∧
      s.head?.all (!Char.isDigit ·) = true)
    ⟨fun h => ⟨h.1, h.2.1, h.2.2.1, by simpa [Option.all_eq_true] using h.2.2.2⟩,
      fun h => ⟨h.toIsWord, h.sharp, h.quote, by simpa [Option.all_eq_true] using h.digit⟩⟩

namespace Token

mutual

def decidableIsProper : (t : Token) → Decidable t.IsProper
  | .integer n => inferInstanceAs (Decidable (inRange n = true))
  | .string s => inferInstanceAs (Decidable (IsQuotable s))
  | .name s => inferInstanceAs (Decidable (IsName s ∧ s.fold = s))
  | .quoted s => inferInstanceAs (Decidable (IsWord s ∧ s.fold = s))
  | .block body => decidableAreProper body

def decidableAreProper : (ts : List Token) → Decidable (AreProper ts)
  | [] => isTrue trivial
  | t :: ts => @instDecidableAnd _ _ (decidableIsProper t) (decidableAreProper ts)

end

end Token

instance (c : Command) : Decidable c.IsProper :=
  @List.decidableBAll _ _ Token.decidableAreProper c.arguments

/-! ## What is read is proper -/

theorem isMark_of_endsName {ch : Char} (h : Reader.endsName ch = true) : Unicode.IsMark ch := by
  have hcode := Reader.of_endsName
    (p := fun m => decide (m.toNat < 0x61 ∨ 0x7A < m.toNat ∧ m.toNat < 0x80)) h (by decide)
  simpa [Unicode.IsMark] using hcode

theorem isMark_of_isDigit {ch : Char} (h : ch.isDigit = true) : Unicode.IsMark ch := by
  have hcode := Unicode.isDigit_iff.1 h
  rw [Unicode.IsMark]
  omega

theorem IsWord.fold {s : Text} (hs : IsWord s) : IsWord s.fold where
  ne_nil := Unicode.foldCase_ne_nil hs.ne_nil
  inside := by
    intro c hc
    rw [← Bool.not_eq_true]
    intro hends
    rw [hs.inside c (Unicode.mem_of_mem_foldCase hc (isMark_of_endsName hends))] at hends
    cases hends

theorem IsName.fold {s : Text} (hs : IsName s) : IsName s.fold where
  toIsWord := hs.toIsWord.fold
  sharp := fun hc => hs.sharp (Unicode.head?_foldCase hc (by unfold Unicode.IsMark; decide))
  quote := fun hc => hs.quote (Unicode.head?_foldCase hc (by unfold Unicode.IsMark; decide))
  digit := by
    intro c hc
    rw [← Bool.not_eq_true]
    intro hdigit
    rw [hs.digit c (Unicode.head?_foldCase hc (isMark_of_isDigit hdigit))] at hdigit
    cases hdigit

theorem inRange_of_integer? {s : Text} {n : Int} (h : Reader.integer? s = some n) :
    inRange n = true := by
  simp only [Reader.integer?, Option.ite_none_right_eq_some] at h
  obtain ⟨⟨-, -, hrange⟩, hn⟩ := h
  rwa [Option.some.inj hn] at hrange

theorem Token.SpelledAs.isProper {t : Token} {w : Text} (h : t.SpelledAs w) : t.IsProper := by
  cases h with
  | integer hs => exact inRange_of_integer? hs
  | string hs => exact hs
  | name hs => exact ⟨hs.fold, Unicode.foldCase_foldCase _⟩
  | quoted hs => exact ⟨hs.fold, Unicode.foldCase_foldCase _⟩

theorem Row.areProper {ts : List Token} {w : Text} (h : Row Token.SpelledAs ts w) :
    Token.AreProper ts := by
  induction h with
  | nil => trivial
  | token _ hw _ _ ih => exact ⟨hw.isProper, ih⟩
  | block _ _ _ ihbody ih => exact ⟨ihbody, ih⟩

theorem Arguments.areProper {rows : List (List Token)} {w : Text}
    (h : Arguments Token.SpelledAs rows w) : ∀ row ∈ rows, Token.AreProper row := by
  induction h with
  | nil => exact fun row hrow => absurd hrow List.not_mem_nil
  | cons _ hrow _ ih => exact List.forall_mem_cons.2 ⟨hrow.areProper, ih⟩

theorem Command.WrittenAs.isProper {c : Command} {w : Text} (h : c.WrittenAs Token.SpelledAs w) :
    c.IsProper := by
  obtain ⟨word, rest, -, -, hrows⟩ := h
  exact hrows.areProper

theorem Listing.isProper {cs : List Command} {w : Text} (h : Listing Token.SpelledAs cs w) :
    ∀ c ∈ cs, c.IsProper := by
  induction h with
  | nil => exact fun c hc => absurd hc List.not_mem_nil
  | cons _ hw _ _ ih => exact List.forall_mem_cons.2 ⟨hw.isProper, ih⟩

/-! ## What is printed is a spelling -/

theorem digitsValue_toDigits (n : Nat) : Reader.digitsValue (Nat.toDigits 10 n) = n := by
  rw [Reader.digitsValue, ← Nat.ofDigitChars_eq_foldl]
  exact Nat.ofDigitChars_toDigits (by decide) (by decide)

theorem isDigit_of_mem_toDigits {n : Nat} {ch : Char} (h : ch ∈ Nat.toDigits 10 n) :
    ch.isDigit = true :=
  Nat.isDigit_of_mem_toDigits (by decide) (by decide) h

theorem integer?_toDigits {n : Nat} (h : inRange n = true) :
    Reader.integer? (Nat.toDigits 10 n) = some (n : Int) := by
  have hsign : (Nat.toDigits 10 n).head? ≠ some '-' := fun hhead =>
    absurd (isDigit_of_mem_toDigits (List.mem_of_mem_head? hhead)) (by decide)
  have hdigits : ∀ ch ∈ Nat.toDigits 10 n, ch.isDigit = true := fun _ => isDigit_of_mem_toDigits
  simpa [Reader.integer?, hsign, digitsValue_toDigits, Nat.toDigits_ne_nil, h] using hdigits

theorem integer?_minus_toDigits {n : Nat} (h : inRange (-n) = true) :
    Reader.integer? ('-' :: Nat.toDigits 10 n) = some (-n : Int) := by
  have hdigits : ∀ ch ∈ Nat.toDigits 10 n, ch.isDigit = true := fun _ => isDigit_of_mem_toDigits
  simpa [Reader.integer?, digitsValue_toDigits, Nat.toDigits_ne_nil, h] using hdigits

/-- A printed integer is a sign, perhaps, and decimal digits. -/
theorem integer?_toString {n : Int} (h : inRange n = true) :
    Reader.integer? (toString n).toList = some n := by
  rw [Int.toString_eq_repr, Int.repr_eq_if]
  split
  · next hsign =>
    have hn : (n.toNat : Int) = n := Int.toNat_of_nonneg hsign
    have hread := integer?_toDigits (n := n.toNat) (hn.symm ▸ h)
    rwa [Nat.toList_repr, ← hn]
  · next hsign =>
    have hn : (-((-n).toNat : Int)) = n := by omega
    rw [String.toList_append, Nat.toList_repr]
    have hread := integer?_minus_toDigits (n := (-n).toNat) (hn.symm ▸ h)
    rwa [hn] at hread

theorem Token.PrintedAs.spelledAs {t : Token} {w : Text} (h : t.PrintedAs w) (ht : t.IsProper) :
    t.SpelledAs w := by
  obtain ⟨hplain, rfl⟩ := h
  cases t with
  | integer n => exact .integer (integer?_toString ht)
  | string s => exact .string ht
  | name s =>
    have hname : SpelledAs (.name s.fold) s := .name ht.1
    rwa [ht.2] at hname
  | quoted s =>
    have hquoted : SpelledAs (.quoted s.fold) ('\'' :: s) := .quoted ht.1
    rwa [ht.2] at hquoted
  | block body => exact absurd rfl (hplain body)

theorem Row.spelled {ts : List Token} {w : Text} (h : Row Token.PrintedAs ts w)
    (hts : Token.AreProper ts) : Row Token.SpelledAs ts w := by
  induction h with
  | nil hspace => exact .nil hspace
  | token hspace hw hapart _ ih =>
    exact .token hspace (hw.spelledAs hts.1) hapart (ih hts.2)
  | block hspace _ _ ihbody ih => exact .block hspace (ihbody hts.1) (ih hts.2)

theorem Arguments.spelled {rows : List (List Token)} {w : Text}
    (h : Arguments Token.PrintedAs rows w) (hrows : ∀ row ∈ rows, Token.AreProper row) :
    Arguments Token.SpelledAs rows w := by
  induction h with
  | nil => exact .nil
  | cons hspace hrow _ ih =>
    obtain ⟨hproper, hothers⟩ := List.forall_mem_cons.1 hrows
    exact .cons hspace (hrow.spelled hproper) (ih hothers)

theorem Command.WrittenAs.spelled {c : Command} {w : Text} (h : c.WrittenAs Token.PrintedAs w)
    (hc : c.IsProper) : c.WrittenAs Token.SpelledAs w := by
  obtain ⟨word, rest, hw, hword, hrows⟩ := h
  exact ⟨word, rest, hw, hword, hrows.spelled hc⟩

theorem Listing.spelled {cs : List Command} {w : Text} (h : Listing Token.PrintedAs cs w)
    (hcs : ∀ c ∈ cs, c.IsProper) : Listing Token.SpelledAs cs w := by
  induction h with
  | nil hgap => exact .nil hgap
  | cons hspace hw hapart _ ih =>
    obtain ⟨hc, hothers⟩ := List.forall_mem_cons.1 hcs
    exact .cons hspace (hw.spelled hc) hapart (ih hothers)

/-! ## A printer -/

namespace Command

def text (c : Command) : Text := c.word.toList ++ Token.texts (c.arguments.map .block)

def texts (cs : List Command) : Text := cs.flatMap fun c => c.text ++ ['\n']

end Command

theorem head?_texts_append {ts : List Token} {ch : Char} {rest : Text}
    (h : (Token.texts ts ++ ' ' :: rest).head? = some ch) : ch = ' ' := by
  cases ts with
  | nil => exact (Option.some.inj h).symm
  | cons t ts => exact (Option.some.inj h).symm

theorem row_texts_cons {t : Token} {ts : List Token} (ht : ∀ body, t ≠ .block body)
    (hts : Row Token.PrintedAs ts (Token.texts ts ++ [' '])) :
    Row Token.PrintedAs (t :: ts) (Token.texts (t :: ts) ++ [' ']) := by
  have hapart : t.IsApart (Token.texts ts ++ [' ']) :=
    Or.inr fun ch hch => by rw [head?_texts_append hch]; decide
  have hrow := Row.token isSpace_blank ⟨ht, rfl⟩ hapart hts
  simpa [Token.texts] using hrow

/-- Every row is printed, with a blank before each token and behind the last. -/
theorem row_texts : ∀ ts : List Token, Row Token.PrintedAs ts (Token.texts ts ++ [' '])
  | [] => .nil isSpace_blank
  | .block body :: ts => by
    have hrow := Row.block isSpace_blank (row_texts body) (row_texts ts)
    simpa [Token.texts, Token.text] using hrow
  | .integer n :: ts => row_texts_cons (fun _ h => by cases h) (row_texts ts)
  | .string s :: ts => row_texts_cons (fun _ h => by cases h) (row_texts ts)
  | .name s :: ts => row_texts_cons (fun _ h => by cases h) (row_texts ts)
  | .quoted s :: ts => row_texts_cons (fun _ h => by cases h) (row_texts ts)

theorem arguments_texts (rows : List (List Token)) :
    Arguments Token.PrintedAs rows (Token.texts (rows.map .block)) := by
  induction rows with
  | nil => exact .nil
  | cons row rows ih =>
    have harguments := Arguments.cons isSpace_blank (row_texts row) ih
    simpa [Token.texts, Token.text] using harguments

theorem Command.writtenAs_text (c : Command) : c.WrittenAs Token.PrintedAs c.text :=
  ⟨_, _, rfl, beq_self_eq_true _, arguments_texts c.arguments⟩

theorem listing_texts (cs : List Command) : Listing Token.PrintedAs cs (Command.texts cs) := by
  induction cs with
  | nil => exact .nil IsSpace.nil.isGap
  | cons c cs ih =>
    have hline : IsSpace ['\n'] := .blank (by decide) .nil
    have hapart : c.IsApart ('\n' :: Command.texts cs) := fun _ ch hch => by
      rw [← Option.some.inj hch]
      decide
    have hlisting := Listing.cons .nil c.writtenAs_text hapart (ih.prepend hline)
    simpa [Command.texts] using hlisting

/-! ## Printing and reading -/

/-- **Reading undoes printing.** Proper commands are read back from every text that is printed for
them: the words that start them in any letter case, their tokens as they are printed, and between
them any white space and comments that keep them apart. The commands that are read from whatever
text are proper, so printing them and reading again gives them back. -/
theorem reading_undoes_printing :
    (∀ (cs : List Command) (text : Text) (file : Nat), (∀ c ∈ cs, c.IsProper) →
      Listing Token.PrintedAs cs text →
      ∃ p, Program.ofText text file = .ok p ∧ p.map (·.command) = cs) ∧
    ∀ (source : Text) (file : Nat) (p : Program), Program.ofText source file = .ok p →
      (∀ c ∈ p.map (·.command), c.IsProper) ∧
      Listing Token.PrintedAs (p.map (·.command)) (Command.texts (p.map (·.command))) ∧
      ∃ q, Program.ofText (Command.texts (p.map (·.command))) file = .ok q ∧
        q.map (·.command) = p.map (·.command) := by
  refine ⟨fun cs text file hcs hlisting => ?_, fun source file p hp => ?_⟩
  · exact (Reader.listing_iff file).1 (hlisting.spelled hcs)
  · have hproper : ∀ c ∈ p.map (·.command), c.IsProper :=
      ((Reader.listing_iff file).2 ⟨p, hp, rfl⟩).isProper
    have hprinted := listing_texts (p.map (·.command))
    exact ⟨hproper, hprinted, (Reader.listing_iff file).1 (hprinted.spelled hproper)⟩

def bodySample : List Token :=
  [.integer (-1), .string ['5', '%'], .block [.quoted ['f']], .name ['g']]

/-- The text of a style with one function, behind a comment. -/
def styleSample : Text :=
  "%a\nFunction\x7bf\x7d\t\x7b #-1 \"5%\" \x7b 'f \x7d g \x7d".toList

theorem listing_styleSample :
    Listing Token.PrintedAs [.function ['f'] bodySample] styleSample := by
  have hcomment : IsSpace ('%' :: ['a'] ++ '\n' :: []) := .comment (by decide) .nil
  have htab : IsSpace ['\t'] := .blank (by decide) .nil
  have hprinted : Token.PrintedAs (.name ['f']) ['f'] := ⟨(fun _ h => by cases h), rfl⟩
  have hname := Row.token IsSpace.nil hprinted (Token.isApart_nil _) (.nil .nil)
  have hbody := Arguments.cons htab (row_texts bodySample) .nil
  have hwritten : (Command.function ['f'] bodySample).WrittenAs Token.PrintedAs _ :=
    ⟨"Function".toList, _, rfl, by decide, .cons .nil hname hbody⟩
  have hlisting := Listing.cons hcomment hwritten (fun h => by cases h) (.nil IsSpace.nil.isGap)
  exact hlisting

theorem reading_undoes_printing_styleSample :
    ∃ p, Program.ofText styleSample 0 = .ok p ∧
      p.map (·.command) = [.function ['f'] bodySample] ∧
      ∃ q, Program.ofText (Command.texts [.function ['f'] bodySample]) 0 = .ok q ∧
        q.map (·.command) = [.function ['f'] bodySample] := by
  obtain ⟨p, hp, hcs⟩ :=
    reading_undoes_printing.1 _ _ 0 (by decide +kernel) listing_styleSample
  obtain ⟨-, -, hagain⟩ := reading_undoes_printing.2 _ 0 p hp
  rw [hcs] at hagain
  exact ⟨p, hp, hcs, hagain⟩

end Bibliography.Style
