import Bibliography.Proofs.Tex.Transformed

set_option autoImplicit false

/-! # The start of a text

The first units of a text are cut from it between two units, and the braces that this leaves open
are closed behind them. Cut in this way, the row of units is the start of the row of the text, and
closing its braces adds closing braces to it, or completes a special character that the text leaves
open (`Row.exists_closed`). So the start of a text has as many units as were asked for, leaves no
brace open, and its own starts are those of the text.

Main statement: `textPrefix_laws`.
-/

namespace Bibliography.Tex

/-- The number of units of a row that are no braces. -/
def countUnits (us : List TexUnit) : Nat := us.countP (!·.isBrace)

@[simp] theorem countUnits_nil : countUnits [] = 0 := rfl

theorem countUnits_cons_of_isBrace {u : TexUnit} (h : u.isBrace = true) (us : List TexUnit) :
    countUnits (u :: us) = countUnits us := by
  simp [countUnits, h]

theorem countUnits_cons_of_not_isBrace {u : TexUnit} (h : u.isBrace = false) (us : List TexUnit) :
    countUnits (u :: us) = countUnits us + 1 := by
  simp [countUnits, h]

/-! ## What is kept -/

section

variable {u : TexUnit} (pending : Text) (n : Nat) (us : List TexUnit)

theorem keepUnits_opening (h : u.kind = .opening) :
    keepUnits pending n (u :: us) = keepUnits (pending ++ u.text) n us := by
  simp [keepUnits, TexUnit.text, h]

theorem keepUnits_closing (h : u.kind = .closing) :
    keepUnits pending n (u :: us) = pending ++ u.text ++ keepUnits [] n us := by
  simp [keepUnits, TexUnit.text, h]

/-- Nothing is kept from the unit on that is one too many, nor what waits before it. -/
theorem keepUnits_zero (h : u.isBrace = false) : keepUnits pending 0 (u :: us) = [] := by
  obtain ⟨kind, level⟩ := u
  cases kind with
  | opening | closing => cases h
  | char _ | special _ => rfl

theorem keepUnits_succ (h : u.isBrace = false) :
    keepUnits pending (n + 1) (u :: us) = pending ++ u.text ++ keepUnits [] n us := by
  obtain ⟨kind, level⟩ := u
  cases kind with
  | opening | closing => cases h
  | char _ | special _ => rfl

end

/-- A unit is an opening brace, a closing brace, or none. -/
theorem TexUnit.kind_cases (u : TexUnit) :
    (u.kind = .opening ∧ u.isBrace = true) ∨ (u.kind = .closing ∧ u.isBrace = true) ∨
      u.isBrace = false := by
  obtain ⟨kind, level⟩ := u
  cases kind with
  | opening => exact Or.inl ⟨rfl, rfl⟩
  | closing => exact Or.inr (Or.inl ⟨rfl, rfl⟩)
  | char _ | special _ => exact Or.inr (Or.inr rfl)

/-- A row with no more units than are kept is kept as a whole. -/
theorem keepUnits_of_countUnits_le {n : Nat} {us : List TexUnit} (h : countUnits us ≤ n)
    (pending : Text) : keepUnits pending n us = pending ++ TexUnit.texts us := by
  induction us generalizing n pending with
  | nil => exact (List.append_nil pending).symm
  | cons u us ih =>
    rw [texts_cons]
    obtain ⟨hu, hbrace⟩ | ⟨hu, hbrace⟩ | hbrace := u.kind_cases
    · rw [countUnits_cons_of_isBrace hbrace] at h
      rw [keepUnits_opening _ _ _ hu, ih h, List.append_assoc]
    · rw [countUnits_cons_of_isBrace hbrace] at h
      rw [keepUnits_closing _ _ _ hu, ih h, List.nil_append, List.append_assoc]
    · rw [countUnits_cons_of_not_isBrace hbrace] at h
      obtain ⟨n, rfl⟩ : ∃ k, n = k + 1 := ⟨n - 1, by omega⟩
      rw [keepUnits_succ _ _ _ hbrace, ih (by omega), List.nil_append, List.append_assoc]

/-- The same unit may stand before two rows of which the same is kept. -/
theorem keepUnits_cons_congr {us vs : List TexUnit}
    (h : ∀ n pending, n < countUnits us → keepUnits pending n vs = keepUnits pending n us)
    (u : TexUnit) (n : Nat) (pending : Text) (hn : n < countUnits (u :: us)) :
    keepUnits pending n (u :: vs) = keepUnits pending n (u :: us) := by
  obtain ⟨hu, hbrace⟩ | ⟨hu, hbrace⟩ | hbrace := u.kind_cases
  · rw [countUnits_cons_of_isBrace hbrace] at hn
    rw [keepUnits_opening _ _ _ hu, keepUnits_opening _ _ _ hu, h n _ hn]
  · rw [countUnits_cons_of_isBrace hbrace] at hn
    rw [keepUnits_closing _ _ _ hu, keepUnits_closing _ _ _ hu, h n _ hn]
  · cases n with
    | zero => rw [keepUnits_zero _ _ hbrace, keepUnits_zero _ _ hbrace]
    | succ n =>
      rw [countUnits_cons_of_not_isBrace hbrace] at hn
      rw [keepUnits_succ _ _ _ hbrace, keepUnits_succ _ _ _ hbrace, h n _ (by omega)]

/-- What is kept does not depend on what stands behind the first unit that is left out. -/
theorem keepUnits_append (us vs : List TexUnit) (n : Nat) (pending : Text)
    (h : n < countUnits us) : keepUnits pending n (us ++ vs) = keepUnits pending n us := by
  induction us generalizing n pending with
  | nil => exact absurd h (Nat.not_lt_zero n)
  | cons u us ih => exact keepUnits_cons_congr ih u n pending h

/-- What is kept is the text of the first units of the row, as many as are asked for. What waits
before them is dropped if a unit is left out before anything is kept. -/
theorem exists_of_keepUnits (pending : Text) (n : Nat) (us : List TexUnit) :
    ∃ before after, us = before ++ after ∧ countUnits before = min n (countUnits us) ∧
      (keepUnits pending n us = pending ++ TexUnit.texts before ∨
        before = [] ∧ keepUnits pending n us = []) := by
  induction us generalizing n pending with
  | nil => exact ⟨[], [], rfl, by simp, Or.inl (List.append_nil pending).symm⟩
  | cons u us ih =>
    have hnil : ∀ n, ∃ before after, us = before ++ after ∧
        countUnits before = min n (countUnits us) ∧
        keepUnits [] n us = TexUnit.texts before := by
      intro n
      obtain ⟨before, after, hus, hcount, hkeep | ⟨rfl, hkeep⟩⟩ := ih [] n
      · exact ⟨before, after, hus, hcount, hkeep⟩
      · exact ⟨[], after, hus, hcount, hkeep⟩
    obtain ⟨hu, hbrace⟩ | ⟨hu, hbrace⟩ | hbrace := u.kind_cases
    · obtain ⟨before, after, rfl, hcount, hkeep | ⟨rfl, hkeep⟩⟩ := ih (pending ++ u.text) n
      · refine ⟨u :: before, after, rfl, ?_, Or.inl ?_⟩
        · rw [countUnits_cons_of_isBrace hbrace, countUnits_cons_of_isBrace hbrace, hcount]
        · rw [keepUnits_opening _ _ _ hu, hkeep, texts_cons, List.append_assoc]
      · refine ⟨[], u :: after, rfl, ?_, Or.inr ⟨rfl, ?_⟩⟩
        · rw [countUnits_cons_of_isBrace hbrace, hcount, List.nil_append]
        · rw [keepUnits_opening _ _ _ hu, hkeep]
    · obtain ⟨before, after, rfl, hcount, hkeep⟩ := hnil n
      refine ⟨u :: before, after, rfl, ?_, Or.inl ?_⟩
      · rw [countUnits_cons_of_isBrace hbrace, countUnits_cons_of_isBrace hbrace, hcount]
      · rw [keepUnits_closing _ _ _ hu, hkeep, texts_cons, List.append_assoc]
    · cases n with
      | zero =>
        exact ⟨[], u :: us, rfl, by simp, Or.inr ⟨rfl, keepUnits_zero _ _ hbrace⟩⟩
      | succ n =>
        obtain ⟨before, after, rfl, hcount, hkeep⟩ := hnil n
        refine ⟨u :: before, after, rfl, ?_, Or.inl ?_⟩
        · rw [countUnits_cons_of_not_isBrace hbrace, countUnits_cons_of_not_isBrace hbrace, hcount]
          omega
        · rw [keepUnits_succ _ _ _ hbrace, hkeep, texts_cons, List.append_assoc]

/-! ## Closing what is open -/

/-- The row `vs` is the row `us` with the braces closed that it leaves open: it has `n` closing
braces more, as many units, and the same starts. -/
structure ClosedBy (us vs : List TexUnit) (n : Nat) : Prop where
  texts : TexUnit.texts vs = TexUnit.texts us ++ List.replicate n '}'
  count : countUnits vs = countUnits us
  starts : ∀ m pending, m < countUnits us → keepUnits pending m vs = keepUnits pending m us

/-- The same unit may stand before both rows. -/
theorem ClosedBy.cons {us vs : List TexUnit} {n : Nat} (h : ClosedBy us vs n) (u : TexUnit) :
    ClosedBy (u :: us) (u :: vs) n where
  texts := by rw [texts_cons, texts_cons, h.texts, List.append_assoc]
  count := by simpa [countUnits, List.countP_cons] using h.count
  starts := keepUnits_cons_congr h.starts u

/-- Closing braces one after the other. -/
theorem exists_closed_nil (n : Nat) : ∃ vs, Row n vs 0 ∧ ClosedBy [] vs n := by
  induction n with
  | zero => exact ⟨[], .nil 0, rfl, rfl, fun _ _ _ => rfl⟩
  | succ n ih =>
    obtain ⟨vs, hrow, hvs⟩ := ih
    refine ⟨⟨.closing, n⟩ :: vs, .closing hrow, ?_, ?_, nofun⟩
    · rw [texts_cons, hvs.texts]
      rfl
    · rw [countUnits_cons_of_isBrace rfl, hvs.count]

/-- A special character that is left open becomes a closed one. -/
theorem LeavesOpen.isGroup {raw : Text} {n : Nat} (h : LeavesOpen raw n) :
    IsGroup (raw ++ List.replicate n '}') := by
  obtain ⟨inner, k, hinner, rfl, rfl⟩ := h
  refine ⟨inner ++ List.replicate k '}', ?_, ?_⟩
  · rw [isBalanced_iff, openAfter?_append, hinner, Option.bind_some, openAfter?_replicate_close]
  · rw [List.replicate_succ']
    simp

/-- **Every row can be closed.** -/
theorem Row.exists_closed {n k : Nat} {us : List TexUnit} (h : Row n us k) :
    ∃ vs, Row n vs 0 ∧ ClosedBy us vs k := by
  induction h with
  | nil n => exact exists_closed_nil n
  | @opening n k us hhead _ ih =>
    obtain ⟨vs, hrow, hvs⟩ := ih
    refine ⟨_, .opening (fun hn => ?_) hrow, hvs.cons _⟩
    -- a closing brace is no backslash either
    rw [hvs.texts, List.head?_append]
    cases hus : (TexUnit.texts us).head? with
    | none => cases k <;> simp [List.replicate_succ]
    | some c =>
      rw [Option.some_or, ← hus]
      exact hhead hn
  | closing _ ih =>
    obtain ⟨vs, hrow, hvs⟩ := ih
    exact ⟨_, .closing hrow, hvs.cons _⟩
  | char hc _ ih =>
    obtain ⟨vs, hrow, hvs⟩ := ih
    exact ⟨_, .char hc hrow, hvs.cons _⟩
  | group hraw _ ih =>
    obtain ⟨vs, hrow, hvs⟩ := ih
    exact ⟨_, .group hraw hrow, hvs.cons _⟩
  | @unclosed k raw hraw =>
    refine ⟨_, .group hraw.isGroup (.nil 0), ?_, rfl, fun m pending hm => ?_⟩
    · simp [TexUnit.texts, TexUnit.text]
    · obtain rfl : m = 0 := by simpa [countUnits, TexUnit.isBrace] using hm
      rfl

/-! ## The laws -/

theorem textPrefix_of_neg (s : Text) {n : Int} (h : n < 0) : textPrefix s n = [] := if_pos h

theorem textPrefix_natCast (s : Text) (n : Nat) :
    textPrefix s n = closeBraces (keepUnits [] n (scan s)) := by
  rw [textPrefix, if_neg (by omega), Int.toNat_natCast]

theorem textPrefix_nil (n : Int) : textPrefix [] n = [] := by
  rw [textPrefix]
  split <;> rfl

/-- **The units of the start of a text** are the first ones of the text, closed. -/
theorem scan_textPrefix (s : Text) (n : Nat) :
    ∃ before after vs k, scan s = before ++ after ∧ countUnits before = min n (length s) ∧
      Row 0 vs 0 ∧ ClosedBy before vs k ∧ textPrefix s n = TexUnit.texts vs := by
  obtain ⟨before, after, hscan, hcount, hkeep⟩ := exists_of_keepUnits [] n (scan s)
  have hkeep : keepUnits [] n (scan s) = TexUnit.texts before :=
    hkeep.elim id fun h => h.1 ▸ h.2
  obtain ⟨k, hrow, -⟩ := Row.split (hscan ▸ row_scan s)
  obtain ⟨vs, hclosed, hvs⟩ := hrow.exists_closed
  refine ⟨before, after, vs, k, hscan, hcount, hclosed, hvs, ?_⟩
  rw [textPrefix_natCast, hkeep, closeBraces, hvs.texts, depth_eq_openBraces,
    hrow.openBraces_texts]

theorem length_textPrefix (s : Text) (n : Nat) : length (textPrefix s n) = min n (length s) := by
  obtain ⟨before, after, vs, k, -, hcount, hclosed, hvs, htext⟩ := scan_textPrefix s n
  rw [htext, ← hcount, ← hvs.count, length, hclosed.scan_texts]
  rfl

theorem depth_textPrefix (s : Text) (n : Nat) : depth (textPrefix s n) = 0 := by
  obtain ⟨before, after, vs, k, -, -, hclosed, -, htext⟩ := scan_textPrefix s n
  rw [htext, depth_eq_openBraces, hclosed.openBraces_texts]

/-- A start with all the units of a text is the text with its braces closed. -/
theorem textPrefix_of_length_le {s : Text} {n : Nat} (h : length s ≤ n) :
    textPrefix s n = closeBraces s := by
  rw [textPrefix_natCast, keepUnits_of_countUnits_le h, List.nil_append, texts_scan]

theorem closeBraces_of_depth {s : Text} (h : depth s = 0) : closeBraces s = s := by
  rw [closeBraces, h, List.replicate_zero, List.append_nil]

/-- **The start of a start is a start of the text.** -/
theorem textPrefix_textPrefix (s : Text) (n m : Nat) :
    textPrefix (textPrefix s n) m = textPrefix s (min n m : Nat) := by
  have hlength := length_textPrefix s n
  by_cases hm : m < length (textPrefix s n)
  · -- the smaller start is one of the units that both have
    obtain ⟨before, after, vs, k, hscan, hcount, hclosed, hvs, htext⟩ := scan_textPrefix s n
    rw [Nat.min_eq_right (by omega), htext, textPrefix_natCast, textPrefix_natCast]
    rw [hlength, ← hcount] at hm
    rw [hclosed.scan_texts, hvs.starts m [] hm, hscan, keepUnits_append _ _ _ _ hm]
  · rw [textPrefix_of_length_le (by omega), closeBraces_of_depth (depth_textPrefix s n)]
    by_cases hn : n ≤ m
    · rw [Nat.min_eq_left hn]
    · rw [textPrefix_of_length_le (by omega), textPrefix_of_length_le (by omega)]

/-- **The laws of the start of a text**, balanced or not, and for all integers. It has as many units
as are asked for and as there are, none for a negative number, and leaves no brace open. It is a
start of the text with closing braces behind it, and its own starts are those of the text. The start
of a balanced text is balanced, and the text itself if all its units are asked for. -/
theorem textPrefix_laws (s : Text) (n m : Int) :
    (length (textPrefix s n) : Int) = min (max n 0) (length s) ∧
    depth (textPrefix s n) = 0 ∧
    (∃ start k, start <+: s ∧ textPrefix s n = start ++ List.replicate k '}') ∧
    textPrefix (textPrefix s n) m = textPrefix s (min n m) ∧
    (checkBraces s = .ok () → checkBraces (textPrefix s n) = .ok () ∧
      ((length s : Int) ≤ n → textPrefix s n = s)) := by
  have hcases : ∀ i : Int, i < 0 ∨ ∃ k : Nat, i = k := fun i =>
    (Decidable.em (i < 0)).imp_right fun h => Int.eq_ofNat_of_zero_le (Int.not_lt.1 h)
  obtain hn | ⟨n, rfl⟩ := hcases n
  · -- nothing is kept
    rw [textPrefix_of_neg s hn, textPrefix_nil, textPrefix_of_neg s (by omega)]
    refine ⟨?_, rfl, ⟨[], 0, List.nil_prefix, rfl⟩, rfl, fun _ => ⟨rfl, fun hlength => ?_⟩⟩
    · change 0 = min (max n 0) (length s : Int)
      omega
    · omega
  · refine ⟨?_, depth_textPrefix s n, ?_, ?_, fun hs => ⟨?_, fun hlength => ?_⟩⟩
    · rw [length_textPrefix]
      omega
    · obtain ⟨before, after, vs, k, hscan, -, -, hvs, htext⟩ := scan_textPrefix s n
      refine ⟨TexUnit.texts before, k, ⟨TexUnit.texts after, ?_⟩, htext.trans hvs.texts⟩
      rw [← texts_append, ← hscan, texts_scan]
    · obtain hm | ⟨m, rfl⟩ := hcases m
      · rw [textPrefix_of_neg _ hm, textPrefix_of_neg _ (by omega)]
      · have hmin : ((min n m : Nat) : Int) = min (n : Int) m := by omega
        rw [textPrefix_textPrefix, hmin]
    · rw [checkBraces_eq_ok_iff] at hs ⊢
      exact isBalanced_textPrefix hs n
    · rw [checkBraces_eq_ok_iff, isBalanced_iff] at hs
      rw [textPrefix_of_length_le (by omega), closeBraces_of_depth (depth_eq hs)]

/-- A balanced text of two units, with as many asked for. -/
theorem textPrefix_laws_whole :
    checkBraces "a\x7bb\x7d".toList = .ok () ∧ (length "a\x7bb\x7d".toList : Int) ≤ 2 ∧
      textPrefix "a\x7bb\x7d".toList 2 = "a\x7bb\x7d".toList := by
  have hbraces : checkBraces "a\x7bb\x7d".toList = .ok () := rfl
  have hlength : (length "a\x7bb\x7d".toList : Int) ≤ 2 := by decide
  obtain ⟨-, -, -, -, hbalanced⟩ := textPrefix_laws "a\x7bb\x7d".toList 2 2
  exact ⟨hbraces, hlength, (hbalanced hbraces).2 hlength⟩

/-- A text with a closing brace that closes nothing, cut before the special character that it leaves
open and behind it. -/
example : textPrefix "\x7da\x7b\x7db\x7b\\o".toList 2 = "\x7da\x7b\x7db".toList ∧
    textPrefix "\x7da\x7b\x7db\x7b\\o".toList 3 = "\x7da\x7b\x7db\x7b\\o\x7d".toList := by
  decide

end Bibliography.Tex
