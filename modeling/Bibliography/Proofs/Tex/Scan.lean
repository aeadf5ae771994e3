import Bibliography.Proofs.Tex.Braces

set_option autoImplicit false

/-! # Units and braces

The scan loses nothing: the units of a text together are the text. Which units they are is said
without the automaton by rows of units (`Row`): the scan makes a row (`row_scan`), and the units of
a row are what it finds in their text (`Row.scan_texts`), so to know the units of a text it is
enough to write them down. Rows can be cut anywhere, and put together where no brace is open.

Characters that stand alone are no braces, so the braces of a text are its brace units and those
inside its special characters. In a balanced text the special characters are balanced, and the
level at the end of a text is the number of its open braces.
-/

namespace Bibliography.Tex

open NameFormat (isBrace)

/-! ## Units -/

/-- What was read of a special character that is still open. -/
def Mode.read : Mode → Text
  | .plain _ => []
  | .special read _ => read.reverse

theorem texts_cons (u : TexUnit) (us : List TexUnit) :
    TexUnit.texts (u :: us) = u.text ++ TexUnit.texts us :=
  List.flatMap_cons

/-- A step completes what was read and the character that it reads, or keeps them. -/
theorem texts_step (mode : Mode) (next : Option Char) (c : Char) :
    ((mode.step next c).2.map TexUnit.text).getD [] ++ (mode.step next c).1.read =
      mode.read ++ [c] := by
  cases mode with
  | plain level =>
    rw [Mode.step]
    split
    · next hc =>
      subst hc
      split <;> rfl
    · split
      · next hc =>
        subst hc
        rfl
      · rfl
  | special read depth =>
    rw [Mode.step]
    split
    · simp [Mode.read]
    · split
      · split <;> simp [Mode.read, TexUnit.text]
      · simp [Mode.read]

theorem texts_scanFrom (mode : Mode) (s : Text) :
    TexUnit.texts (scanFrom mode s) = mode.read ++ s := by
  induction s generalizing mode with
  | nil => cases mode <;> simp [scanFrom, TexUnit.texts, TexUnit.text, Mode.read]
  | cons c s ih =>
    have hstep := texts_step mode s.head? c
    rw [scanFrom]
    split
    · next mode' heq =>
      rw [heq] at hstep
      rw [ih, List.append_cons mode.read, ← hstep]
      rfl
    · next mode' u heq =>
      rw [heq] at hstep
      rw [texts_cons, ih, ← List.append_assoc, List.append_cons mode.read, ← hstep]
      rfl

/-- **The units of a text together are the text.** -/
theorem texts_scan (s : Text) : TexUnit.texts (scan s) = s := texts_scanFrom (.plain 0) s

theorem texts_append (us vs : List TexUnit) :
    TexUnit.texts (us ++ vs) = TexUnit.texts us ++ TexUnit.texts vs :=
  List.flatMap_append

/-! ## One character at a time -/

/-- A group that starts with a backslash where no brace is open is a special character. -/
theorem scanFrom_special {s : Text} (hs : s.head? = some '\\') :
    scanFrom (.plain 0) ('{' :: s) = scanFrom (.special ['{'] 1) s := by
  simp [scanFrom, Mode.step, hs]

theorem scanFrom_opening {n : Nat} {s : Text} (hs : n = 0 → s.head? ≠ some '\\') :
    scanFrom (.plain n) ('{' :: s) = ⟨.opening, n + 1⟩ :: scanFrom (.plain (n + 1)) s := by
  have hplain : ¬(n = 0 ∧ s.head? = some '\\') := fun h => hs h.1 h.2
  rw [scanFrom, Mode.step, if_pos rfl, if_neg hplain]

theorem scanFrom_closing (n : Nat) (s : Text) :
    scanFrom (.plain n) ('}' :: s) = ⟨.closing, n - 1⟩ :: scanFrom (.plain (n - 1)) s := rfl

theorem scanFrom_char {c : Char} (hc : isBrace c = false) (n : Nat) (s : Text) :
    scanFrom (.plain n) (c :: s) = ⟨.char c, n⟩ :: scanFrom (.plain n) s := by
  have h : c ≠ '{' ∧ c ≠ '}' := isBrace_eq_false_iff.1 hc
  rw [scanFrom, Mode.step, if_neg h.1, if_neg h.2]

/-- A special character goes on as long as its first brace is open. -/
theorem scanFrom_special_append {n k : Nat} {t : Text} (ht : openAfter? n t = some k)
    (read s : Text) :
    scanFrom (.special read (n + 1)) (t ++ s) =
      scanFrom (.special (t.reverse ++ read) (k + 1)) s := by
  induction t generalizing n read with
  | nil =>
    cases ht
    rfl
  | cons c t ih =>
    have hread : (c :: t).reverse ++ read = t.reverse ++ c :: read := by simp
    rw [hread, List.cons_append, scanFrom, Mode.step]
    rcases openAfter?_cons_eq_some ht with ⟨rfl, ht'⟩ | ⟨n, rfl, rfl, ht'⟩ | ⟨hc, ht'⟩
    · exact ih ht' ('{' :: read)
    · rw [if_neg (by decide), if_pos rfl, if_neg (by omega)]
      exact ih ht' ('}' :: read)
    · have hother : c ≠ '{' ∧ c ≠ '}' := isBrace_eq_false_iff.1 hc
      rw [if_neg hother.1, if_neg hother.2]
      exact ih ht' (c :: read)

/-! ## Rows of units -/

/-- A special character that is closed: a group that starts with a backslash and ends with the brace
that closes it. -/
def IsGroup (raw : Text) : Prop :=
  ∃ inner, isBalanced inner = true ∧ raw = '{' :: '\\' :: (inner ++ ['}'])

/-- A special character that leaves `n` braces open, its first one included. -/
def LeavesOpen (raw : Text) (n : Nat) : Prop :=
  ∃ inner k, openAfter? 0 inner = some k ∧ raw = '{' :: '\\' :: inner ∧ n = k + 1

/-- `Row n us k`: the units `us` stand in a row as the scan finds them, from the brace level `n` to
the level `k`. -/
inductive Row : Nat → List TexUnit → Nat → Prop where
  | nil (n : Nat) : Row n [] n
  /-- Where no brace is open, an opening brace stands before no backslash. -/
  | opening {n k : Nat} {us : List TexUnit} (h : n = 0 → (TexUnit.texts us).head? ≠ some '\\')
      (rest : Row (n + 1) us k) : Row n (⟨.opening, n + 1⟩ :: us) k
  | closing {n k : Nat} {us : List TexUnit} (rest : Row (n - 1) us k) :
      Row n (⟨.closing, n - 1⟩ :: us) k
  | char {n k : Nat} {c : Char} {us : List TexUnit} (h : isBrace c = false) (rest : Row n us k) :
      Row n (⟨.char c, n⟩ :: us) k
  | group {k : Nat} {raw : Text} {us : List TexUnit} (h : IsGroup raw) (rest : Row 0 us k) :
      Row 0 (⟨.special raw, 1⟩ :: us) k
  /-- A special character that is left open stands at the end. -/
  | unclosed {k : Nat} {raw : Text} (h : LeavesOpen raw k) : Row 0 [⟨.special raw, 1⟩] k

theorem IsGroup.isBalanced {raw : Text} (h : IsGroup raw) : isBalanced raw = true := by
  obtain ⟨inner, hinner, rfl⟩ := h
  rw [isBalanced_iff, openAfter?_cons_open, openAfter?_cons_other rfl, openAfter?_append,
    openAfter?_of_isBalanced hinner]
  rfl

theorem LeavesOpen.openAfter?_eq_some {raw : Text} {n : Nat} (h : LeavesOpen raw n) :
    openAfter? 0 raw = some n := by
  obtain ⟨inner, k, hinner, rfl, rfl⟩ := h
  rw [openAfter?_cons_open, openAfter?_cons_other rfl]
  exact openAfter?_add hinner 1

/-! ### The scan makes a row -/

/-- The level at which the unit starts that is being read. -/
def Mode.base : Mode → Nat
  | .plain level => level
  | .special _ _ => 0

/-- What was read of a special character fits the text `s` behind it: its first brace is open, and
a backslash follows that one. -/
def Mode.Fits (s : Text) : Mode → Prop
  | .plain _ => True
  | .special read depth => ∃ t k, read.reverse = '{' :: t ∧ openAfter? 0 t = some k ∧
      depth = k + 1 ∧ (t ++ s).head? = some '\\'

theorem Mode.fits_plain (n : Nat) (s : Text) : (Mode.plain n).Fits s := trivial

/-- **The scan makes a row of units**, from the level at its start to the level at its end. -/
theorem row_scanFrom {mode : Mode} {s : Text} (h : mode.Fits s) :
    Row mode.base (scanFrom mode s) (modeAfter mode s).level := by
  induction s generalizing mode with
  | nil =>
    cases mode with
    | plain level => exact .nil level
    | special read depth =>
      obtain ⟨t, k, hread, ht, rfl, hhead⟩ := h
      rw [List.append_nil] at hhead
      obtain ⟨inner, rfl⟩ := List.head?_eq_some_iff.1 hhead
      rw [openAfter?_cons_other rfl] at ht
      exact .unclosed ⟨inner, k, ht, hread, rfl⟩
  | cons c s ih =>
    rw [modeAfter]
    cases mode with
    | plain level =>
      by_cases hopen : c = '{'
      · subst hopen
        -- the brace starts a special character, or is a unit
        by_cases hspecial : level = 0 ∧ s.head? = some '\\'
        · obtain ⟨rfl, hs⟩ := hspecial
          have hfits : (Mode.special ['{'] 1).Fits s := ⟨[], 0, rfl, rfl, rfl, hs⟩
          have hstep : (Mode.plain 0).step s.head? '{' = (.special ['{'] 1, none) := by
            simp [Mode.step, hs]
          rw [scanFrom_special hs, hstep]
          exact ih hfits
        · have hs : level = 0 → s.head? ≠ some '\\' := fun hlevel hs => hspecial ⟨hlevel, hs⟩
          rw [scanFrom_opening hs, Mode.step, if_pos rfl, if_neg hspecial]
          refine .opening ?_ (ih (Mode.fits_plain (level + 1) s))
          rwa [texts_scanFrom]
      · by_cases hclose : c = '}'
        · subst hclose
          exact .closing (ih (Mode.fits_plain (level - 1) s))
        · have hc : isBrace c = false := isBrace_eq_false_iff.2 ⟨hopen, hclose⟩
          rw [scanFrom_char hc, Mode.step, if_neg hopen, if_neg hclose]
          exact .char hc (ih (Mode.fits_plain level s))
    | special read depth =>
      obtain ⟨t, k, hread, ht, rfl, hhead⟩ := h
      -- what was read so far and the character that is read now
      have hgoes : ∀ j, openAfter? k [c] = some j →
          (Mode.special (c :: read) (j + 1)).Fits s := by
        intro j hj
        refine ⟨t ++ [c], j, by simp [hread], ?_, rfl, by simpa using hhead⟩
        rw [openAfter?_append, ht, Option.bind_some, hj]
      rw [scanFrom, Mode.step]
      by_cases hopen : c = '{'
      · subst hopen
        exact ih (hgoes (k + 1) rfl)
      · rw [if_neg hopen]
        by_cases hclose : c = '}'
        · subst hclose
          rw [if_pos rfl]
          cases k with
          | zero =>
            -- the brace closes the first one
            obtain ⟨t, rfl⟩ : ∃ inner, t = '\\' :: inner := by
              cases t with
              | nil => cases hhead
              | cons d t => exact ⟨t, by cases hhead; rfl⟩
            rw [openAfter?_cons_other rfl] at ht
            exact .group ⟨t, (isBalanced_iff t).2 ht, by simp [hread]⟩ (ih (Mode.fits_plain 0 s))
          | succ k =>
            rw [if_neg (by omega)]
            exact ih (hgoes k rfl)
        · rw [if_neg hclose]
          exact ih (hgoes k (openAfter?_cons_other (isBrace_eq_false_iff.2 ⟨hopen, hclose⟩) k []))

theorem row_scan (s : Text) : Row 0 (scan s) (depth s) := row_scanFrom (Mode.fits_plain 0 s)

/-! ### A row is what the scan makes -/

/-- **The scan finds the units of a row in their text.** -/
theorem Row.scanFrom_texts {n k : Nat} {us : List TexUnit} (h : Row n us k) :
    scanFrom (.plain n) (TexUnit.texts us) = us := by
  induction h with
  | nil n => rfl
  | opening hhead _ ih =>
    rw [texts_cons]
    exact (scanFrom_opening hhead).trans (congrArg _ ih)
  | closing _ ih =>
    rw [texts_cons]
    exact (scanFrom_closing _ _).trans (congrArg _ ih)
  | char hc _ ih =>
    rw [texts_cons]
    exact (scanFrom_char hc _ _).trans (congrArg _ ih)
  | @group k raw us h _ ih =>
    obtain ⟨inner, hinner, rfl⟩ := h
    have hread : openAfter? 0 ('\\' :: inner) = some 0 := (isBalanced_iff inner).1 hinner
    have hscan : scanFrom (.plain 0) ('{' :: (('\\' :: inner) ++ '}' :: TexUnit.texts us)) =
        ⟨.special ('{' :: '\\' :: (inner ++ ['}'])), 1⟩ :: us := by
      rw [scanFrom_special rfl, scanFrom_special_append hread]
      simpa [scanFrom, Mode.step] using ih
    simpa [texts_cons, TexUnit.text] using hscan
  | @unclosed k raw h =>
    obtain ⟨inner, k, hinner, rfl, rfl⟩ := h
    have hread : openAfter? 0 ('\\' :: inner) = some k := hinner
    have hscan : scanFrom (.plain 0) ('{' :: (('\\' :: inner) ++ [])) =
        [⟨.special ('{' :: '\\' :: inner), 1⟩] := by
      rw [scanFrom_special rfl, scanFrom_special_append hread]
      simp [scanFrom]
    simpa [texts_cons, TexUnit.text, TexUnit.texts] using hscan

theorem Row.scan_texts {k : Nat} {us : List TexUnit} (h : Row 0 us k) :
    scan (TexUnit.texts us) = us :=
  h.scanFrom_texts

/-- The level at the end of a row is the number of braces that its text leaves open. -/
theorem Row.openBraces_texts {n k : Nat} {us : List TexUnit} (h : Row n us k) :
    openBraces n (TexUnit.texts us) = k := by
  induction h with
  | nil n => rfl
  | opening _ _ ih | closing _ ih => exact ih
  | char hc _ ih => exact (openBraces_cons_other hc _ _).trans ih
  | @group k raw us h _ ih =>
    change openBraces 0 (raw ++ TexUnit.texts us) = k
    rw [openBraces_append, openBraces_of_openAfter? ((isBalanced_iff raw).1 h.isBalanced), ih]
  | @unclosed k raw h =>
    change openBraces 0 (raw ++ []) = k
    rw [List.append_nil, openBraces_of_openAfter? h.openAfter?_eq_some]

/-- **The level at the end of a text is the number of braces that it leaves open.** -/
theorem depth_eq_openBraces (s : Text) : depth s = openBraces 0 s := by
  rw [← (row_scan s).openBraces_texts, texts_scan]

theorem depth_eq {s : Text} {k : Nat} (h : openAfter? 0 s = some k) : depth s = k := by
  rw [depth_eq_openBraces, openBraces_of_openAfter? h]

theorem depth_of_isBalanced {s : Text} (h : isBalanced s = true) : depth s = 0 :=
  depth_eq ((isBalanced_iff s).1 h)

/-! ### Parts of rows -/

/-- A row can be cut between any two units. -/
theorem Row.split {n k : Nat} {us vs : List TexUnit} (h : Row n (us ++ vs) k) :
    ∃ j, Row n us j ∧ Row j vs k := by
  generalize hws : us ++ vs = ws at h
  induction h generalizing us with
  | nil n =>
    obtain ⟨rfl, rfl⟩ := List.append_eq_nil_iff.1 hws
    exact ⟨n, .nil n, .nil n⟩
  | @opening n k ws hhead rest ih =>
    obtain ⟨rfl, rfl⟩ | ⟨us, rfl, rfl⟩ := List.append_eq_cons_iff.1 hws
    · exact ⟨n, .nil n, .opening hhead rest⟩
    · obtain ⟨j, hus, hvs⟩ := ih rfl
      refine ⟨j, .opening (fun hn hus => hhead hn ?_) hus, hvs⟩
      rw [texts_append, List.head?_append, hus, Option.some_or]
  | @closing n k ws rest ih =>
    obtain ⟨rfl, rfl⟩ | ⟨us, rfl, rfl⟩ := List.append_eq_cons_iff.1 hws
    · exact ⟨n, .nil n, .closing rest⟩
    · obtain ⟨j, hus, hvs⟩ := ih rfl
      exact ⟨j, .closing hus, hvs⟩
  | @char n k c ws hc rest ih =>
    obtain ⟨rfl, rfl⟩ | ⟨us, rfl, rfl⟩ := List.append_eq_cons_iff.1 hws
    · exact ⟨n, .nil n, .char hc rest⟩
    · obtain ⟨j, hus, hvs⟩ := ih rfl
      exact ⟨j, .char hc hus, hvs⟩
  | @group k raw ws hraw rest ih =>
    obtain ⟨rfl, rfl⟩ | ⟨us, rfl, rfl⟩ := List.append_eq_cons_iff.1 hws
    · exact ⟨0, .nil 0, .group hraw rest⟩
    · obtain ⟨j, hus, hvs⟩ := ih rfl
      exact ⟨j, .group hraw hus, hvs⟩
  | @unclosed k raw hraw =>
    obtain ⟨rfl, rfl⟩ | ⟨us, rfl, hnil⟩ := List.append_eq_cons_iff.1 hws
    · exact ⟨0, .nil 0, .unclosed hraw⟩
    · obtain ⟨rfl, rfl⟩ := List.append_eq_nil_iff.1 hnil.symm
      exact ⟨k, .unclosed hraw, .nil k⟩

/-- A row that ends with no brace open can be followed by any other. -/
theorem Row.append {n k : Nat} {us vs : List TexUnit} (hus : Row n us 0) (hvs : Row 0 vs k) :
    Row n (us ++ vs) k := by
  generalize hj : 0 = j at hus
  induction hus with
  | nil n => exact hj ▸ hvs
  | @opening n j us hhead rest ih =>
    refine .opening (fun hn => ?_) (ih hj)
    -- the brace is open, so something else stands behind it
    have hne : TexUnit.texts us ≠ [] := by
      intro hnil
      have hend := rest.openBraces_texts
      rw [hnil, openBraces_nil] at hend
      omega
    obtain ⟨c, t, htexts⟩ := List.exists_cons_of_ne_nil hne
    have hhead := hhead hn
    rw [htexts] at hhead
    change (TexUnit.texts (us ++ vs)).head? ≠ some '\\'
    rw [texts_append, htexts]
    exact hhead
  | closing _ ih => exact .closing (ih hj)
  | char hc _ ih => exact .char hc (ih hj)
  | group hraw _ ih => exact .group hraw (ih hj)
  | unclosed hraw =>
    obtain ⟨inner, k, -, -, rfl⟩ := hraw
    cases hj

/-! ### Units of a row -/

/-- A unit that is a character is no brace. -/
theorem isBrace_of_char_mem_scan {s : Text} {u : TexUnit} {c : Char} (hu : u ∈ scan s)
    (hc : u.kind = .char c) : isBrace c = false := by
  obtain ⟨before, after, heq⟩ := List.append_of_mem hu
  obtain ⟨n, -, hrow⟩ := Row.split (heq ▸ row_scan s)
  cases hrow with
  | char h _ =>
    cases hc
    exact h
  | opening _ _ | closing _ | group _ _ | unclosed _ => cases hc

/-- The text of a unit of a balanced text that is no brace is balanced. -/
theorem isBalanced_text_of_mem_scan {s : Text} (hs : isBalanced s = true) {u : TexUnit}
    (hu : u ∈ scan s) (hbrace : u.isBrace = false) : isBalanced u.text = true := by
  have hrow := row_scan s
  rw [depth_of_isBalanced hs] at hrow
  obtain ⟨before, after, heq⟩ := List.append_of_mem hu
  obtain ⟨n, -, hrow⟩ := Row.split (heq ▸ hrow)
  generalize hend : 0 = k at hrow
  cases hrow with
  | opening _ _ | closing _ => cases hbrace
  | char hc _ => exact isBalanced_of_no_braces fun d hd => (List.mem_singleton.1 hd) ▸ hc
  | group hraw _ => exact hraw.isBalanced
  | unclosed hraw =>
    -- a special character that the text leaves open would leave braces open
    obtain ⟨inner, k, -, -, rfl⟩ := hraw
    cases hend

/-! ### Characters that stand alone -/

theorem texts_map_char (ds : Text) (n : Nat) :
    TexUnit.texts (ds.map fun d => ⟨.char d, n⟩) = ds := by
  induction ds with
  | nil => rfl
  | cons d ds ih => exact congrArg (d :: ·) ih

theorem Row.append_chars {n k : Nat} {us : List TexUnit} (h : Row n us k) {ds : Text}
    (hds : ∀ d ∈ ds, isBrace d = false) : Row n (ds.map (fun d => ⟨.char d, n⟩) ++ us) k := by
  induction ds with
  | nil => exact h
  | cons d ds ih =>
    rw [List.forall_mem_cons] at hds
    exact .char hds.1 (ih hds.2)

def charUnits (s : Text) : List TexUnit := s.map fun c => ⟨.char c, 0⟩

theorem texts_charUnits (s : Text) : TexUnit.texts (charUnits s) = s := texts_map_char s 0

/-- Without braces, every character is a unit. -/
theorem scan_of_no_braces {s : Text} (h : ∀ c ∈ s, isBrace c = false) : scan s = charUnits s := by
  have hrow : Row 0 (charUnits s ++ []) 0 := (Row.nil 0).append_chars h
  rw [List.append_nil] at hrow
  have hscan := hrow.scan_texts
  rwa [texts_charUnits] at hscan

end Bibliography.Tex
