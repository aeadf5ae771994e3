import Bibliography.Proofs.Tex.Transformed
import Mathlib.Data.List.Basic

set_option autoImplicit false

/-! # Texts with their case changed

The units of a text with its case changed are known from those of the text: a character at level 0
becomes a row of characters, a special character another one, and all else is as it was
(`scan_changeCase`). A second change then meets the characters that the first one has made, in the
same state of the title, and finds nothing to do.

Inside a special character the pieces can differ from those before. A letter that a character has
become belongs to the control sequence in front of it if it is an ASCII letter, and a control
sequence is kept. So what is made of the pieces stays as it is from wherever it is read, but for the
place right behind a backslash (`convertPieces_settled`), where the next character is kept anyway.
For ASCII texts this does not come about, and the pieces are the same up to the case of letters.

Main statement: `changeCase_changeCase`.
-/

namespace Bibliography.Tex

open NameFormat (isBrace)

variable {mode : CaseMode}

/-! ## Characters -/

/-- What a character is changed to is not changed again. -/
theorem convert_of_mem_convert {c d : Char} (h : d ∈ mode.convert c) : mode.convert d = [d] := by
  cases mode with
  | upper => exact Unicode.upperOf_of_mem_upperOf h
  | lower | title => exact Unicode.lowerOf_of_mem_lowerOf h

theorem convert_ne_nil (mode : CaseMode) (c : Char) : mode.convert c ≠ [] := by
  cases mode with
  | upper => exact Unicode.upperOf_ne_nil c
  | lower | title => exact Unicode.lowerOf_ne_nil c

theorem not_isDelimiter_of_mem_convert {c d : Char} (hc : ¬ Unicode.IsDelimiter c)
    (hd : d ∈ mode.convert c) : ¬ Unicode.IsDelimiter d :=
  fun h => hc (eq_of_mem_convert hd h ▸ h)

theorem ne_backslash_of_mem_convert {c d : Char} (hc : c ≠ '\\') (hd : d ∈ mode.convert c) :
    d ≠ '\\' := by
  rintro rfl
  exact hc (eq_of_mem_convert hd (by decide)).symm

/-! ## Pieces of special characters -/

def convertPieces (mode : CaseMode) (name? : Option Text) (s : Text) : Text :=
  (piecesFrom name? s).flatMap (SpecialPiece.changeCase mode false)

theorem convertPieces_single {c : Char} (h : c ≠ '\\') (s : Text) :
    convertPieces mode none (c :: s) = mode.convert c ++ convertPieces mode none s := by
  rw [convertPieces, piecesFrom_single h, List.flatMap_cons]
  split
  · next hbrace =>
    have hc : Unicode.IsDelimiter c := isDelimiter_of_isBrace (by simpa [isBrace] using hbrace)
    rw [convert_of_isDelimiter hc]
    rfl
  · rfl

/-- A change of case leaves the pieces of the text as they are. -/
def Settled (mode : CaseMode) (name? : Option Text) (s : Text) : Prop :=
  ∀ c, SpecialPiece.char c ∈ piecesFrom name? s → mode.convert c = [c]

theorem Settled.convertPieces_eq {name? : Option Text} {s : Text} (h : Settled mode name? s) :
    convertPieces mode name? s = openCommand name? ++ s := by
  rw [← texts_piecesFrom, convertPieces]
  refine List.flatMap_congr fun p hp => ?_
  cases p with
  | brace c | command name => rfl
  | char c => exact h c hp

/-- A change of case leaves the text as it is, from wherever it is read but right behind a
backslash. -/
def SettledApart (mode : CaseMode) (s : Text) : Prop :=
  ∀ name?, name? ≠ some [] → Settled mode name? s

theorem settledApart_nil (mode : CaseMode) : SettledApart mode [] := by
  intro name? _ c hc
  cases name? <;> simp [piecesFrom] at hc

/-- Behind a backslash one thing only can be read. -/
theorem settledApart_backslash {s : Text} (h : Settled mode (some []) s) :
    SettledApart mode ('\\' :: s) := by
  intro name? hname c hc
  cases name? with
  | none => exact h c hc
  | some name =>
    rw [piecesFrom_end (by simpa using hname) rfl, piecesFrom_backslash] at hc
    exact h c (by simpa using hc)

theorem SettledApart.cons {s : Text} (h : SettledApart mode s) {d : Char}
    (hconvert : mode.convert d = [d]) (hd : d ≠ '\\') : SettledApart mode (d :: s) := by
  have hnone : Settled mode none (d :: s) := by
    intro c hc
    rw [piecesFrom_single hd, List.mem_cons] at hc
    rcases hc with hc | hc
    · split at hc
      · cases hc
      · cases hc
        exact hconvert
    · exact h none nofun c hc
  intro name? hname
  cases name? with
  | none => exact hnone
  | some name =>
    intro c hc
    cases hletter : isCommandLetter d with
    | true =>
      rw [piecesFrom_letter hletter] at hc
      exact h (some (d :: name)) (by simp) c hc
    | false =>
      rw [piecesFrom_end (by simpa using hname) hletter] at hc
      exact hnone c (by simpa using hc)

theorem SettledApart.append {s : Text} (h : SettledApart mode s) {ds : Text}
    (hds : ∀ d ∈ ds, mode.convert d = [d] ∧ d ≠ '\\') : SettledApart mode (ds ++ s) := by
  induction ds with
  | nil => exact h
  | cons d ds ih =>
    rw [List.forall_mem_cons] at hds
    exact (ih hds.2).cons hds.1.1 hds.1.2

/-- **What is made of the pieces of a text stays as it is**, read from the same place. Where no
control sequence is open, it does so from any other place but right behind a backslash as well. -/
theorem convertPieces_settled (mode : CaseMode) (s : Text) :
    SettledApart mode (convertPieces mode none s) ∧
      ∀ name, ∃ t, convertPieces mode (some name) s = openCommand (some name) ++ t ∧
        Settled mode (some name) t := by
  -- by induction on what is left to read, with and without an open control sequence at once
  induction s with
  | nil =>
    refine ⟨settledApart_nil mode, fun name => ⟨[], ?_, ?_⟩⟩
    · simp [convertPieces, piecesFrom, openCommand, SpecialPiece.changeCase, SpecialPiece.text]
    · intro c hc
      simp [piecesFrom] at hc
  | cons c s ih =>
    have hapart : SettledApart mode (convertPieces mode none (c :: s)) := by
      by_cases hc : c = '\\'
      · subst hc
        obtain ⟨t, ht, hsettled⟩ := ih.2 []
        have hpieces : convertPieces mode none ('\\' :: s) = '\\' :: t := ht
        exact hpieces ▸ settledApart_backslash hsettled
      · rw [convertPieces_single hc]
        exact ih.1.append fun d hd =>
          ⟨convert_of_mem_convert hd, ne_backslash_of_mem_convert hc hd⟩
    refine ⟨hapart, fun name => ?_⟩
    cases hletter : isCommandLetter c with
    | true =>
      -- the letter belongs to the name
      obtain ⟨t, ht, hsettled⟩ := ih.2 (c :: name)
      refine ⟨c :: t, ?_, ?_⟩
      · rw [convertPieces, piecesFrom_letter hletter]
        exact ht.trans (by simp [openCommand])
      · intro d hd
        rw [piecesFrom_letter hletter] at hd
        exact hsettled d hd
    | false =>
      by_cases hname : name = []
      · subst hname
        refine ⟨c :: convertPieces mode none s, ?_, ?_⟩
        · rw [convertPieces, piecesFrom_symbol hletter]
          rfl
        · intro d hd
          rw [piecesFrom_symbol hletter] at hd
          exact ih.1 none (Option.some_ne_none _).symm d (by simpa using hd)
      · refine ⟨convertPieces mode none (c :: s), ?_, hapart _ (by simpa using hname)⟩
        rw [convertPieces, piecesFrom_end hname hletter]
        rfl

/-- The lower case of the sign for kelvin goes on with the name of the control sequence. -/
example : convertPieces .lower none "\\o\u212a".toList = "\\ok".toList ∧
    specialPieces "\\o\u212a".toList = [.command "o".toList, .char '\u212a'] ∧
    specialPieces "\\ok".toList = [.command "ok".toList] := by
  decide +kernel

/-! ## Single units -/

theorem changeCase_char (mode : CaseMode) (st : TitleState) (c : Char) (n : Nat) :
    TexUnit.changeCase mode st ⟨.char c, n⟩ =
      if n ≠ 0 then [c]
      else if mode = .title ∧ st.keepNext ∧ !Unicode.isWhiteSpace c then [c]
      else mode.convert c := rfl

/-- Behind a character that is no delimiter, no subtitle starts. -/
theorem afterUnit_of_not_isDelimiter {c : Char} (h : ¬ Unicode.IsDelimiter c) (st : TitleState) :
    st.afterUnit ⟨.char c, 0⟩ = .inside := by
  have hcolon : c ≠ ':' := by
    rintro rfl
    exact h (by decide)
  have hspace : ¬ Unicode.isWhiteSpace c = true := fun hc =>
    h (Unicode.isDelimiter_of_isWhiteSpace hc)
  simp [TitleState.afterUnit, TitleState.afterChar, hcolon, hspace]

/-- The first letter of a title is kept, and with it all of a special character. -/
theorem changeCase_special (mode : CaseMode) (st : TitleState) (raw : Text) (n : Nat) :
    TexUnit.changeCase mode st ⟨.special raw, n⟩ =
      if mode = .title ∧ st.keepNext = true then raw else convertPieces mode none raw := by
  have hkept : ∀ ps : List SpecialPiece,
      ps.flatMap (SpecialPiece.changeCase mode true) = ps.flatMap SpecialPiece.text := by
    intro ps
    refine List.flatMap_congr fun p _ => ?_
    cases p <;> rfl
  change (specialPieces raw).flatMap
    (SpecialPiece.changeCase mode (decide (mode = .title) && st.keepNext)) = _
  split
  · next hkeep =>
    have htrue : (decide (mode = .title) && st.keepNext) = true := by simp [hkeep]
    rw [htrue, hkept, texts_specialPieces]
  · next hkeep =>
    have hfalse : (decide (mode = .title) && st.keepNext) = false := by
      simpa [← Bool.not_eq_true] using hkeep
    rw [hfalse]
    rfl

/-- A special character with its case changed is not changed again. -/
theorem changeCase_changeCase_special (mode : CaseMode) (st : TitleState) (raw : Text) (n : Nat) :
    TexUnit.changeCase mode st ⟨.special (TexUnit.changeCase mode st ⟨.special raw, n⟩), n⟩ =
      TexUnit.changeCase mode st ⟨.special raw, n⟩ := by
  rw [changeCase_special, changeCase_special]
  split
  · rfl
  · exact ((convertPieces_settled mode raw).1 none nofun).convertPieces_eq

theorem filter_isBrace_changeCase_special (mode : CaseMode) (st : TitleState) (raw : Text)
    (n : Nat) : (TexUnit.changeCase mode st ⟨.special raw, n⟩).filter isBrace =
      raw.filter isBrace :=
  filter_isBrace_changeCase_unit mode st (u := ⟨.special raw, n⟩) nofun

/-- A special character keeps its brace and its backslash. -/
theorem changeCase_special_cons (mode : CaseMode) (st : TitleState) (s : Text) (n : Nat) :
    ∃ t, TexUnit.changeCase mode st ⟨.special ('{' :: '\\' :: s), n⟩ = '{' :: '\\' :: t ∧
      t.filter isBrace = s.filter isBrace := by
  have hstart : ∃ t, TexUnit.changeCase mode st ⟨.special ('{' :: '\\' :: s), n⟩ =
      '{' :: '\\' :: t := by
    rw [changeCase_special]
    split
    · exact ⟨s, rfl⟩
    · obtain ⟨t, ht, -⟩ := (convertPieces_settled mode s).2 []
      exact ⟨t, congrArg ('{' :: ·) ht⟩
  obtain ⟨t, ht⟩ := hstart
  refine ⟨t, ht, ?_⟩
  have hfilter := filter_isBrace_changeCase_special mode st ('{' :: '\\' :: s) n
  rw [ht] at hfilter
  simpa [isBrace] using hfilter

/-- A brace at the end stays there. -/
theorem getLast?_changeCase_special {raw : Text} (h : raw.getLast? = some '}') (mode : CaseMode)
    (st : TitleState) (n : Nat) :
    (TexUnit.changeCase mode st ⟨.special raw, n⟩).getLast? = some '}' := by
  rw [changeCase_special]
  split
  · exact h
  · have hnobrace : ∀ c, .char c ∈ specialPieces raw → isBrace c = false :=
      fun c hc => isBrace_of_char_mem_specialPieces hc
    rw [← texts_specialPieces raw] at h
    change ((specialPieces raw).flatMap (SpecialPiece.changeCase mode false)).getLast? = some '}'
    rcases List.eq_nil_or_concat (specialPieces raw) with hnil | ⟨ps, p, hps⟩
    · rw [hnil] at h
      cases h
    · rw [List.concat_eq_append] at hps
      rw [hps] at h hnobrace ⊢
      rw [List.flatMap_append, List.flatMap_singleton, List.getLast?_append] at h ⊢
      cases p with
      | brace c => exact h
      | command name => exact h
      | char c =>
        -- no character is a brace
        obtain rfl : c = '}' := Option.some.inj h
        cases hnobrace '}' (by simp)

theorem IsGroup.changeCase {raw : Text} (h : IsGroup raw) (mode : CaseMode) (st : TitleState)
    (n : Nat) : IsGroup (TexUnit.changeCase mode st ⟨.special raw, n⟩) := by
  obtain ⟨inner, hinner, rfl⟩ := h
  have hraw : ('{' :: '\\' :: (inner ++ ['}'])).getLast? = some '}' := by
    simp [List.getLast?_cons]
  have hlast := getLast?_changeCase_special hraw mode st n
  obtain ⟨t, ht, hfilter⟩ := changeCase_special_cons mode st (inner ++ ['}']) n
  rw [ht] at hlast ⊢
  rcases List.eq_nil_or_concat t with rfl | ⟨inner', c, rfl⟩
  · cases hlast
  · rw [List.concat_eq_append] at hlast hfilter ⊢
    obtain rfl : c = '}' := by simpa [List.getLast?_cons] using hlast
    rw [List.filter_append, List.filter_append] at hfilter
    exact ⟨inner', (isBalanced_congr (List.append_cancel_right hfilter)).trans hinner, rfl⟩

theorem LeavesOpen.changeCase {raw : Text} {k : Nat} (h : LeavesOpen raw k) (mode : CaseMode)
    (st : TitleState) (n : Nat) :
    LeavesOpen (TexUnit.changeCase mode st ⟨.special raw, n⟩) k := by
  obtain ⟨inner, k, hinner, rfl, rfl⟩ := h
  obtain ⟨t, ht, hfilter⟩ := changeCase_special_cons mode st inner n
  exact ⟨t, k, (openAfter?_congr hfilter 0).trans hinner, ht, rfl⟩

/-! ## Units -/

/-- The units of a unit with its case changed. -/
def TexUnit.recased (mode : CaseMode) (st : TitleState) (u : TexUnit) : List TexUnit :=
  match u.kind with
  | .char _ => (u.changeCase mode st).map fun d => ⟨.char d, u.level⟩
  | .special _ => [⟨.special (u.changeCase mode st), u.level⟩]
  | _ => [u]

/-- The units of a row with its case changed, read in a given state. -/
def recasedUnits (mode : CaseMode) : TitleState → List TexUnit → List TexUnit
  | _, [] => []
  | st, u :: us => u.recased mode st ++ recasedUnits mode (st.afterUnit u) us

theorem texts_recased (mode : CaseMode) (st : TitleState) (u : TexUnit) :
    TexUnit.texts (u.recased mode st) = u.changeCase mode st := by
  obtain ⟨kind, level⟩ := u
  cases kind with
  | opening | closing => rfl
  | char c => exact texts_map_char _ level
  | special raw => exact List.append_nil _

theorem texts_recasedUnits (mode : CaseMode) (st : TitleState) (us : List TexUnit) :
    TexUnit.texts (recasedUnits mode st us) = changeUnits mode st us := by
  induction us generalizing st with
  | nil => rfl
  | cons u us ih => rw [recasedUnits, texts_append, texts_recased, ih, changeUnits]

/-- Inside braces a row starts as before. -/
theorem Row.head?_changeUnits {n k : Nat} {us : List TexUnit} (h : Row (n + 1) us k)
    (st : TitleState) : (changeUnits mode st us).head? = (TexUnit.texts us).head? := by
  cases h with
  | nil | opening _ _ | closing _ | char _ _ => rfl

theorem isBrace_of_mem_changeCase_char {c d : Char} (hc : isBrace c = false) {st : TitleState}
    {n : Nat} (hd : d ∈ TexUnit.changeCase mode st ⟨.char c, n⟩) : isBrace d = false := by
  rw [changeCase_char] at hd
  split at hd
  · exact List.mem_singleton.1 hd ▸ hc
  · split at hd
    · exact List.mem_singleton.1 hd ▸ hc
    · exact isBrace_of_mem_convert hc hd

/-- **A row with its case changed is a row**, between the same levels. -/
theorem Row.recasedUnits {n k : Nat} {us : List TexUnit} (h : Row n us k) (mode : CaseMode)
    (st : TitleState) : Row n (recasedUnits mode st us) k := by
  induction h generalizing st with
  | nil n => exact .nil n
  | opening hhead rest ih =>
    refine .opening (fun hn => ?_) (ih _)
    change (TexUnit.texts (Tex.recasedUnits mode _ _)).head? ≠ _
    rw [texts_recasedUnits, rest.head?_changeUnits]
    exact hhead hn
  | closing _ ih => exact .closing (ih _)
  | char hc _ ih => exact (ih _).append_chars fun d hd => isBrace_of_mem_changeCase_char hc hd
  | group hraw _ ih => exact .group (hraw.changeCase mode st 1) (ih _)
  | unclosed hraw => exact .unclosed (hraw.changeCase mode st 1)

/-- **The units of a text with its case changed.** -/
theorem scan_changeCase (s : Text) (mode : CaseMode) :
    scan (changeCase s mode) = recasedUnits mode .start (scan s) := by
  rw [changeCase, ← texts_recasedUnits]
  exact ((row_scan s).recasedUnits mode .start).scan_texts

theorem depth_changeCase (s : Text) (mode : CaseMode) : depth (changeCase s mode) = depth s := by
  rw [changeCase, ← texts_recasedUnits, depth_eq_openBraces]
  exact ((row_scan s).recasedUnits mode .start).openBraces_texts

/-! ## The second change -/

/-- Characters that were changed before are kept, and no subtitle starts behind them. -/
theorem changeUnits_chars {ds : Text}
    (hds : ∀ d ∈ ds, mode.convert d = [d] ∧ ¬ Unicode.IsDelimiter d) (st : TitleState)
    (us : List TexUnit) : changeUnits mode st (ds.map (fun d => ⟨.char d, 0⟩) ++ us) =
      ds ++ changeUnits mode (if ds = [] then st else .inside) us := by
  induction ds generalizing st with
  | nil => rfl
  | cons d ds ih =>
    rw [List.forall_mem_cons] at hds
    obtain ⟨⟨hconvert, hdelimiter⟩, hds⟩ := hds
    have hunit : TexUnit.changeCase mode st ⟨.char d, 0⟩ = [d] := by
      simp [changeCase_char, hconvert]
    rw [List.map_cons, List.cons_append, changeUnits, hunit,
      afterUnit_of_not_isDelimiter hdelimiter, ih hds]
    simp

/-- **The second change of a unit** makes what the first one made, and leaves the title in the same
state. -/
theorem changeUnits_recased (mode : CaseMode) (st : TitleState) (u : TexUnit)
    (us : List TexUnit) : changeUnits mode st (u.recased mode st ++ us) =
      u.changeCase mode st ++ changeUnits mode (st.afterUnit u) us := by
  obtain ⟨kind, level⟩ := u
  cases kind with
  | opening | closing => rfl
  | special raw =>
    exact congrArg (· ++ changeUnits mode .inside us)
      (changeCase_changeCase_special mode st raw level)
  | char c =>
    -- a character that is kept is met again in the same state
    have hsame : TexUnit.changeCase mode st ⟨.char c, level⟩ = [c] →
        changeUnits mode st (TexUnit.recased mode st ⟨.char c, level⟩ ++ us) =
          TexUnit.changeCase mode st ⟨.char c, level⟩ ++
            changeUnits mode (st.afterUnit ⟨.char c, level⟩) us := by
      intro hkept
      simp only [TexUnit.recased, hkept]
      rw [List.map_singleton, List.singleton_append, changeUnits, hkept]
    by_cases hlevel : level = 0
    · subst hlevel
      by_cases hdelimiter : Unicode.IsDelimiter c
      · exact hsame (by simp [changeCase_char, convert_of_isDelimiter hdelimiter])
      by_cases hkeep : mode = .title ∧ st.keepNext ∧ !Unicode.isWhiteSpace c
      · exact hsame (by simp [changeCase_char, hkeep])
      have hunit : TexUnit.changeCase mode st ⟨.char c, 0⟩ = mode.convert c := by
        rw [changeCase_char, if_neg (by simp), if_neg hkeep]
      have hsettled : ∀ d ∈ mode.convert c, mode.convert d = [d] ∧ ¬ Unicode.IsDelimiter d :=
        fun d hd => ⟨convert_of_mem_convert hd, not_isDelimiter_of_mem_convert hdelimiter hd⟩
      have hchars := changeUnits_chars hsettled st us
      rw [if_neg (convert_ne_nil mode c)] at hchars
      simp only [TexUnit.recased, hunit, afterUnit_of_not_isDelimiter hdelimiter]
      exact hchars
    · exact hsame (by simp [changeCase_char, hlevel])

theorem changeUnits_recasedUnits (mode : CaseMode) (st : TitleState) (us : List TexUnit) :
    changeUnits mode st (recasedUnits mode st us) = changeUnits mode st us := by
  induction us generalizing st with
  | nil => rfl
  | cons u us ih => rw [recasedUnits, changeUnits_recased, ih, changeUnits]

/-- **Changing the case twice is changing it once.** -/
theorem changeCase_changeCase (s : Text) (mode : CaseMode) :
    changeCase (changeCase s mode) mode = changeCase s mode := by
  rw [changeCase, scan_changeCase, changeUnits_recasedUnits, changeCase]

end Bibliography.Tex
