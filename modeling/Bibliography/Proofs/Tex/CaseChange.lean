import Bibliography.Proofs.Tex.Recasing
import Bibliography.Proofs.Unicode.Folding
import Mathlib.Data.List.Forall2

set_option autoImplicit false

/-! # The laws of changes of case

A change of case is made once, leaves the braces where they are and what they protect as it is. In
an ASCII text it changes nothing but the case of letters, and of those only the ones at level 0 and
the ones in special characters that belong to no control sequence. All units stay in their places
(`PlacedUnit.Recased`).

Main statement: `changeCase_laws`.
-/

namespace Bibliography.Tex

open NameFormat (isBrace)

variable {mode : CaseMode}

/-! ## Protected text -/

theorem changeUnits_append (mode : CaseMode) (st : TitleState) (us vs : List TexUnit) :
    ∃ st', changeUnits mode st (us ++ vs) = changeUnits mode st us ++ changeUnits mode st' vs := by
  induction us generalizing st with
  | nil => exact ⟨st, rfl⟩
  | cons u us ih =>
    obtain ⟨st', hst'⟩ := ih (st.afterUnit u)
    exact ⟨st', by rw [List.cons_append, changeUnits, changeUnits, hst', List.append_assoc]⟩

/-- As long as a brace is open, text stays as it is. -/
theorem Row.changeUnits_of_openAfter? {n j k : Nat} {us : List TexUnit} (h : Row (n + 1) us j)
    {g b : Text} (htexts : TexUnit.texts us = g ++ b) (hg : openAfter? n g = some k)
    (mode : CaseMode) (st : TitleState) : ∃ b', changeUnits mode st us = g ++ b' := by
  induction g generalizing n us st with
  | nil => exact ⟨_, rfl⟩
  | cons c g ih =>
    cases h with
    | nil => cases htexts
    | @opening _ _ us hhead rest =>
      obtain ⟨rfl, hrest⟩ := List.cons.inj htexts
      obtain ⟨b', hb'⟩ := ih rest hrest hg _
      exact ⟨b', congrArg ('{' :: ·) hb'⟩
    | @closing _ _ us rest =>
      obtain ⟨rfl, hrest⟩ := List.cons.inj htexts
      cases n with
      | zero => cases hg
      | succ n =>
        obtain ⟨b', hb'⟩ := ih rest hrest hg _
        exact ⟨b', congrArg ('}' :: ·) hb'⟩
    | @char _ _ d us hd rest =>
      obtain ⟨rfl, hrest⟩ := List.cons.inj htexts
      rw [openAfter?_cons_other hd] at hg
      obtain ⟨b', hb'⟩ := ih rest hrest hg _
      exact ⟨b', congrArg (d :: ·) hb'⟩

/-- **The text of a brace group stays as it is**, up to the brace that closes it or as far as the
text goes. -/
theorem exists_changeCase_of_opening {s : Text} {us vs : List TexUnit} {u : TexUnit}
    (h : scan s = us ++ u :: vs) (hu : u.kind = .opening) {g b : Text} {k : Nat}
    (htexts : TexUnit.texts vs = g ++ b) (hg : openAfter? 0 g = some k) (mode : CaseMode) :
    ∃ b', changeCase s mode = changeCase (TexUnit.texts us) mode ++ '{' :: (g ++ b') ∧
      b'.filter isBrace = b.filter isBrace := by
  have hrow := row_scan s
  rw [h] at hrow
  obtain ⟨n, hus, hrow⟩ := hrow.split
  cases hrow with
  | closing _ | char _ _ | group _ _ | unclosed _ => cases hu
  | opening _ rest =>
    have hbefore : changeUnits mode .start us = changeCase (TexUnit.texts us) mode := by
      rw [changeCase, hus.scan_texts]
    obtain ⟨st, hst⟩ := changeUnits_append mode .start us (⟨.opening, n + 1⟩ :: vs)
    have hopen : openAfter? n g = some (k + n) := by simpa using openAfter?_add hg n
    obtain ⟨b', hb'⟩ := rest.changeUnits_of_openAfter? htexts hopen mode
      (st.afterUnit ⟨.opening, n + 1⟩)
    have hchanged : changeCase s mode = changeCase (TexUnit.texts us) mode ++ '{' :: (g ++ b') := by
      rw [changeCase, h, hst, hbefore, changeUnits, hb']
      rfl
    have hs : s = TexUnit.texts us ++ '{' :: (g ++ b) := by
      rw [← texts_scan s, h, texts_append, texts_cons, htexts]
      rfl
    refine ⟨b', hchanged, ?_⟩
    -- the braces before `b` and those of the whole are the same
    have hbraces := filter_isBrace_changeCase s mode
    rw [hchanged, hs, List.filter_append, List.filter_append, filter_isBrace_changeCase] at hbraces
    have hbraces := List.append_cancel_left hbraces
    rw [List.filter_cons_of_pos rfl, List.filter_cons_of_pos rfl, List.filter_append,
      List.filter_append] at hbraces
    exact List.append_cancel_left (List.cons.inj hbraces).2

/-! ## ASCII texts -/

def SameLetter (c d : Char) : Prop := d.toLower = c.toLower

theorem SameLetter.isCommandLetter_eq {c d : Char} (h : SameLetter c d) :
    isCommandLetter d = isCommandLetter c := by
  rw [isCommandLetter, isCommandLetter, ← Unicode.isAlpha_toLower d, h, Unicode.isAlpha_toLower]

theorem utf8Size_toLower (c : Char) : c.toLower.utf8Size = c.utf8Size := by
  cases hupper : c.isUpper with
  | false => rw [Unicode.toLower_of_isUpper_eq_false hupper]
  | true =>
    have hrange := Unicode.isUpper_iff.1 hupper
    have hlower := Unicode.toNat_toLower hupper
    have hascii : ∀ d : Char, d.toNat ≤ 127 → d.utf8Size = 1 := fun d hd =>
      Char.utf8Size_eq_one_iff.2 hd
    rw [hascii c (by omega), hascii c.toLower (by omega)]

theorem SameLetter.utf8Size_eq {c d : Char} (h : SameLetter c d) : d.utf8Size = c.utf8Size := by
  rw [← utf8Size_toLower d, h, utf8Size_toLower]

/-- An ASCII character becomes one character. -/
theorem exists_convert_of_ascii (mode : CaseMode) {c : Char} (h : c.toNat < 0x80) :
    ∃ d, mode.convert c = [d] ∧ SameLetter c d := by
  have hcase : SameLetter c c.toLower ∧ SameLetter c c.toUpper := by
    refine Unicode.of_ascii (P := fun d => SameLetter d d.toLower ∧ SameLetter d d.toUpper) ?_ h
    unfold SameLetter
    decide +kernel
  obtain ⟨hlower, hupper⟩ := Unicode.lowerOf_upperOf_of_ascii h
  cases mode with
  | upper => exact ⟨_, hupper, hcase.2⟩
  | lower | title => exact ⟨_, hlower, hcase.1⟩

/-- Two pieces are the same up to the case of a letter that belongs to no control sequence. -/
inductive SpecialPiece.Recased : SpecialPiece → SpecialPiece → Prop where
  | brace (c : Char) : Recased (.brace c) (.brace c)
  | command (name : Text) : Recased (.command name) (.command name)
  | char {c d : Char} (h : SameLetter c d) : Recased (.char c) (.char d)

/-- Two units are the same up to the case of a letter at level 0, or in a special character outside
its control sequences. -/
inductive TexUnit.Recased : TexUnit → TexUnit → Prop where
  | opening (n : Nat) : Recased ⟨.opening, n⟩ ⟨.opening, n⟩
  | closing (n : Nat) : Recased ⟨.closing, n⟩ ⟨.closing, n⟩
  | inGroup (c : Char) (n : Nat) : Recased ⟨.char c, n + 1⟩ ⟨.char c, n + 1⟩
  | char {c d : Char} (h : SameLetter c d) : Recased ⟨.char c, 0⟩ ⟨.char d, 0⟩
  | special {raw raw' : Text} (n : Nat)
      (h : List.Forall₂ SpecialPiece.Recased (specialPieces raw) (specialPieces raw')) :
      Recased ⟨.special raw, n⟩ ⟨.special raw', n⟩

/-- Two units are the same in this sense, and in the same place. -/
structure PlacedUnit.Recased (p q : PlacedUnit) : Prop where
  unit : p.unit.Recased q.unit
  start : q.start = p.start
  stop : q.stop = p.stop

/-! ### Pieces -/

theorem SpecialPiece.Recased.refl (p : SpecialPiece) : p.Recased p := by
  cases p with
  | brace c => exact .brace c
  | command name => exact .command name
  | char c => exact .char rfl

theorem SpecialPiece.Recased.size_text {p q : SpecialPiece} (h : p.Recased q) :
    q.text.size = p.text.size := by
  cases h with
  | brace c | command name => rfl
  | char h => exact congrArg (· + 0) h.utf8Size_eq

theorem forall₂_recased_refl (ps : List SpecialPiece) :
    List.Forall₂ SpecialPiece.Recased ps ps :=
  List.forall₂_same.2 fun p _ => .refl p

/-- The character that an ASCII character becomes is a piece of the same kind. -/
theorem recased_single {c d : Char} (hconvert : mode.convert c = [d]) (hletter : SameLetter c d) :
    SpecialPiece.Recased (if c = '{' ∨ c = '}' then .brace c else .char c)
      (if d = '{' ∨ d = '}' then .brace d else .char d) := by
  have hbrace : ∀ e : Char, e = '{' ∨ e = '}' ↔ isBrace e = true := by simp [isBrace]
  cases hc : isBrace c with
  | true =>
    rw [convert_of_isDelimiter (isDelimiter_of_isBrace hc)] at hconvert
    obtain rfl : c = d := (List.cons.inj hconvert).1
    exact .refl _
  | false =>
    have hmem : d ∈ mode.convert c := hconvert ▸ List.mem_singleton_self d
    have hd : isBrace d = false := isBrace_of_mem_convert hc hmem
    rw [if_neg (by simp [hbrace, hc]), if_neg (by simp [hbrace, hd])]
    exact .char hletter

/-- **The pieces of an ASCII text with their case changed** are found again, as they are made. -/
theorem recased_convertPieces (mode : CaseMode) {s : Text} (hs : ∀ c ∈ s, c.toNat < 0x80) :
    List.Forall₂ SpecialPiece.Recased (piecesFrom none s)
        (piecesFrom none (convertPieces mode none s)) ∧
      ∀ name, ∃ t, convertPieces mode (some name) s = openCommand (some name) ++ t ∧
        List.Forall₂ SpecialPiece.Recased (piecesFrom (some name) s)
          (piecesFrom (some name) t) := by
  induction s with
  | nil =>
    refine ⟨.nil, fun name => ⟨[], ?_, forall₂_recased_refl _⟩⟩
    simp [convertPieces, piecesFrom, openCommand, SpecialPiece.changeCase, SpecialPiece.text]
  | cons c s ih =>
    rw [List.forall_mem_cons] at hs
    obtain ⟨hnone, hsome⟩ := ih hs.2
    -- the character `d` that stands in the place of `c`, and what is found from there
    obtain ⟨d, t, hchanged, hletter, hpieces⟩ : ∃ d t,
        convertPieces mode none (c :: s) = d :: t ∧ isCommandLetter d = isCommandLetter c ∧
          List.Forall₂ SpecialPiece.Recased (piecesFrom none (c :: s))
            (piecesFrom none (d :: t)) := by
      by_cases hc : c = '\\'
      · subst hc
        obtain ⟨t, ht, hpieces⟩ := hsome []
        exact ⟨'\\', t, ht, rfl, hpieces⟩
      · obtain ⟨d, hconvert, hsame⟩ := exists_convert_of_ascii mode hs.1
        have hmem : d ∈ mode.convert c := hconvert ▸ List.mem_singleton_self d
        have hd : d ≠ '\\' := ne_backslash_of_mem_convert hc hmem
        refine ⟨d, convertPieces mode none s, ?_, hsame.isCommandLetter_eq, ?_⟩
        · rw [convertPieces_single hc, hconvert]
          rfl
        · rw [piecesFrom_single hc, piecesFrom_single hd]
          exact .cons (recased_single hconvert hsame) hnone
    refine ⟨hchanged ▸ hpieces, fun name => ?_⟩
    cases hc : isCommandLetter c with
    | true =>
      -- the letter belongs to the name
      obtain ⟨t, ht, hpieces⟩ := hsome (c :: name)
      refine ⟨c :: t, ?_, ?_⟩
      · rw [convertPieces, piecesFrom_letter hc]
        exact ht.trans (by simp [openCommand])
      · rw [piecesFrom_letter hc, piecesFrom_letter hc]
        exact hpieces
    | false =>
      by_cases hname : name = []
      · subst hname
        refine ⟨c :: convertPieces mode none s, ?_, ?_⟩
        · rw [convertPieces, piecesFrom_symbol hc]
          rfl
        · rw [piecesFrom_symbol hc, piecesFrom_symbol hc]
          exact .cons (.refl _) hnone
      · have hend : piecesFrom (some name) (c :: s) =
            .command name.reverse :: piecesFrom none (c :: s) :=
          piecesFrom_end hname hc s
        refine ⟨d :: t, ?_, ?_⟩
        · rw [convertPieces, hend, ← hchanged]
          rfl
        · rw [hend, piecesFrom_end hname (hletter.trans hc)]
          exact .cons (.refl _) hpieces

theorem recased_changeCase_special {raw : Text} (h : ∀ c ∈ raw, c.toNat < 0x80) (mode : CaseMode)
    (st : TitleState) (n : Nat) :
    TexUnit.Recased ⟨.special raw, n⟩
      ⟨.special (TexUnit.changeCase mode st ⟨.special raw, n⟩), n⟩ := by
  refine .special n ?_
  rw [changeCase_special]
  split
  · exact forall₂_recased_refl _
  · exact (recased_convertPieces mode h).1

/-! ### Units and their places -/

/-- A unit of ASCII characters becomes one unit. -/
theorem exists_recased {u : TexUnit} (h : ∀ c ∈ u.text, c.toNat < 0x80) (mode : CaseMode)
    (st : TitleState) : ∃ v, u.recased mode st = [v] ∧ u.Recased v := by
  obtain ⟨kind, level⟩ := u
  cases kind with
  | opening => exact ⟨_, rfl, .opening level⟩
  | closing => exact ⟨_, rfl, .closing level⟩
  | special raw => exact ⟨_, rfl, recased_changeCase_special h mode st level⟩
  | char c =>
    cases level with
    | succ n => exact ⟨_, rfl, .inGroup c n⟩
    | zero =>
      obtain ⟨d, hconvert, hsame⟩ := exists_convert_of_ascii mode (h c List.mem_cons_self)
      simp only [TexUnit.recased, changeCase_char, ne_eq, not_true_eq_false, if_false]
      split
      · exact ⟨_, rfl, .char rfl⟩
      · exact ⟨⟨.char d, 0⟩, by rw [hconvert]; rfl, .char hsame⟩

theorem forall₂_recasedUnits {us : List TexUnit} (h : ∀ c ∈ TexUnit.texts us, c.toNat < 0x80)
    (mode : CaseMode) (st : TitleState) :
    List.Forall₂ TexUnit.Recased us (recasedUnits mode st us) := by
  induction us generalizing st with
  | nil => exact .nil
  | cons u us ih =>
    simp only [texts_cons, List.forall_mem_append] at h
    obtain ⟨v, hv, hrecased⟩ := exists_recased h.1 mode st
    rw [recasedUnits, hv]
    exact .cons hrecased (ih h.2 _)

theorem TexUnit.Recased.size_text {u v : TexUnit} (h : u.Recased v) :
    v.text.size = u.text.size := by
  have hpieces : ∀ {ps qs : List SpecialPiece}, List.Forall₂ SpecialPiece.Recased ps qs →
      Text.size (qs.flatMap SpecialPiece.text) = Text.size (ps.flatMap SpecialPiece.text) := by
    intro ps qs h
    induction h with
    | nil => rfl
    | cons hp _ ih =>
      rw [List.flatMap_cons, List.flatMap_cons, Text.size_append, Text.size_append, hp.size_text,
        ih]
  cases h with
  | opening | closing | inGroup => rfl
  | char h => exact congrArg (· + 0) h.utf8Size_eq
  | @special raw raw' n h =>
    change raw'.size = raw.size
    rw [← texts_specialPieces raw, ← texts_specialPieces raw', hpieces h]

theorem TexUnit.Recased.isBrace_eq {u v : TexUnit} (h : u.Recased v) : v.isBrace = u.isBrace := by
  cases h <;> rfl

theorem forall₂_place {us vs : List TexUnit} (h : List.Forall₂ TexUnit.Recased us vs)
    (start : Nat) : List.Forall₂ PlacedUnit.Recased (place start us) (place start vs) := by
  induction h generalizing start with
  | nil => exact .nil
  | cons hu _ ih =>
    rw [place, place, hu.size_text]
    exact .cons ⟨hu, rfl, rfl⟩ (ih _)

theorem countP_eq_of_forall₂ {us vs : List TexUnit} (h : List.Forall₂ TexUnit.Recased us vs) :
    vs.countP (!·.isBrace) = us.countP (!·.isBrace) := by
  induction h with
  | nil => rfl
  | cons hu _ ih => rw [List.countP_cons, List.countP_cons, hu.isBrace_eq, ih]

/-! ## The laws -/

/-- **The laws of changes of case.** Made twice a change is made once. The braces stay where they
are, so that the check of braces and the level at the end are the same, and the text of an ordinary
brace group stays as it is. An ASCII text keeps its units in their places, and with them its length;
they differ in the case of letters at level 0, or in special characters outside their control
sequences. -/
theorem changeCase_laws (s : Text) (mode : CaseMode) :
    changeCase (changeCase s mode) mode = changeCase s mode ∧
    (changeCase s mode).filter isBrace = s.filter isBrace ∧
    (checkBraces (changeCase s mode) = .ok () ↔ checkBraces s = .ok ()) ∧
    depth (changeCase s mode) = depth s ∧
    (∀ us u vs g b k, scan s = us ++ u :: vs → u.kind = .opening →
      TexUnit.texts vs = g ++ b → openAfter? 0 g = some k →
      ∃ b', changeCase s mode = changeCase (TexUnit.texts us) mode ++ '{' :: (g ++ b') ∧
        b'.filter isBrace = b.filter isBrace) ∧
    ((∀ c ∈ s, c.toNat < 0x80) →
      List.Forall₂ PlacedUnit.Recased (scanPlaced s) (scanPlaced (changeCase s mode)) ∧
      length (changeCase s mode) = length s) := by
  have hbraces := filter_isBrace_changeCase s mode
  refine ⟨changeCase_changeCase s mode, hbraces, ?_, depth_changeCase s mode,
    fun us u vs g b k h hu htexts hg => exists_changeCase_of_opening h hu htexts hg mode,
    fun hascii => ?_⟩
  · rw [checkBraces_eq_ok_iff, checkBraces_eq_ok_iff, isBalanced_congr hbraces]
  · have hunits : List.Forall₂ TexUnit.Recased (scan s) (scan (changeCase s mode)) := by
      rw [scan_changeCase]
      exact forall₂_recasedUnits (by rwa [texts_scan]) mode .start
    exact ⟨forall₂_place hunits 0, countP_eq_of_forall₂ hunits⟩

/-- A text with a brace group, and a special character at the start of a subtitle. -/
def subtitleSample : Text := "\x7bAB\x7d Cd: \x7b\\O E\x7d Fg".toList

theorem changeCase_laws_subtitleSample :
    scan subtitleSample = [] ++ ⟨.opening, 1⟩ :: (scan subtitleSample).tail ∧
    TexUnit.texts (scan subtitleSample).tail =
      "AB".toList ++ "\x7d Cd: \x7b\\O E\x7d Fg".toList ∧
    openAfter? 0 "AB".toList = some 0 ∧
    (∀ c ∈ subtitleSample, c.toNat < 0x80) ∧
    (∃ b, changeCase subtitleSample .title = changeCase [] .title ++ '{' :: ("AB".toList ++ b) ∧
      b.filter isBrace = "\x7d Cd: \x7b\\O E\x7d Fg".toList.filter isBrace) ∧
    length (changeCase subtitleSample .title) = length subtitleSample := by
  have hscan : scan subtitleSample = [] ++ ⟨.opening, 1⟩ :: (scan subtitleSample).tail := rfl
  have htexts : TexUnit.texts (scan subtitleSample).tail =
      "AB".toList ++ "\x7d Cd: \x7b\\O E\x7d Fg".toList := rfl
  have hall : subtitleSample.all (fun c => decide (c.toNat < 0x80)) = true := by decide
  have hascii : ∀ c ∈ subtitleSample, c.toNat < 0x80 := by simpa using hall
  obtain ⟨-, -, -, -, hgroups, hletters⟩ := changeCase_laws subtitleSample .title
  exact ⟨hscan, htexts, rfl, hascii, hgroups _ _ _ _ _ _ hscan rfl htexts rfl, (hletters hascii).2⟩

/-- In a title the special character keeps its letter. -/
example : changeCase subtitleSample .title = "\x7bAB\x7d cd: \x7b\\O E\x7d fg".toList ∧
    changeCase subtitleSample .lower = "\x7bAB\x7d cd: \x7b\\O e\x7d fg".toList := by
  decide +kernel

end Bibliography.Tex
