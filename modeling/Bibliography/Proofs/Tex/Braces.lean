import Bibliography.NameFormat.Reader
import Bibliography.Proofs.Text.Words
import Bibliography.Tex.Measure

set_option autoImplicit false

/-! # Open braces

Whether a text is balanced is a matter of the number of its open braces: it rises and falls as the
text is read, must not fall below zero and has to be zero at the end. `openAfter? n s` is that
number after `s` if it was `n` before. What balance needs follows from four facts on it: it composes
(`openAfter?_append`), a part of a text cannot close what is not open
(`exists_openAfter?_of_prefix`), more open braces around a text do no harm (`openAfter?_add`), and
all characters but the braces could be left out (`openAfter?_filter`).

A text that is not balanced can be counted as well: `openBraces n s` lets a closing brace that finds
none open close nothing. Where no brace does that, the two numbers are the same
(`openAfter?_eq_some_iff`).
-/

namespace Bibliography.Tex

open NameFormat (isBrace)

/-! ## Characters that are no braces -/

theorem isBrace_eq_false_iff {c : Char} : isBrace c = false ↔ c ≠ '{' ∧ c ≠ '}' := by
  simp [isBrace]

theorem eq_of_isBrace {c : Char} (h : isBrace c = true) : c = '{' ∨ c = '}' := by
  simpa [isBrace] using h

/-- What holds of neither brace holds of no brace. -/
theorem isBrace_eq_false_of {P : Char → Bool} (hopen : P '{' = false) (hclose : P '}' = false)
    {c : Char} (h : P c = true) : isBrace c = false := by
  refine isBrace_eq_false_iff.2 ⟨?_, ?_⟩
  · rintro rfl
    exact Bool.false_ne_true (hopen.symm.trans h)
  · rintro rfl
    exact Bool.false_ne_true (hclose.symm.trans h)

theorem isBrace_eq_false_of_toNat {c : Char} (h : c.toNat < 0x7B ∨ 0x7D < c.toNat) :
    isBrace c = false :=
  isBrace_eq_false_of (P := fun d => decide (d.toNat < 0x7B ∨ 0x7D < d.toNat)) rfl rfl
    (decide_eq_true h)

/-- That a given text has no braces is a computation. -/
theorem isBrace_eq_false_of_all {s : Text} (h : s.all (!isBrace ·) = true) :
    ∀ c ∈ s, isBrace c = false := by
  simpa using h

theorem isBrace_eq_false_of_isWhiteSpace {c : Char} (h : Unicode.isWhiteSpace c = true) :
    isBrace c = false :=
  isBrace_eq_false_of (by decide) (by decide) h

/-! ## The number of open braces -/

/-- The number of open braces after a text at whose start `n` are open; nothing if it closes one
that is not open. -/
def openAfter? : Nat → Text → Option Nat
  | n, [] => some n
  | n, c :: s =>
    if c = '{' then openAfter? (n + 1) s
    else if c = '}' then if n = 0 then none else openAfter? (n - 1) s
    else openAfter? n s

@[simp] theorem openAfter?_nil (n : Nat) : openAfter? n [] = some n := rfl

@[simp] theorem openAfter?_cons_open (n : Nat) (s : Text) :
    openAfter? n ('{' :: s) = openAfter? (n + 1) s := rfl

@[simp] theorem openAfter?_cons_close (n : Nat) (s : Text) :
    openAfter? (n + 1) ('}' :: s) = openAfter? n s := rfl

theorem openAfter?_cons_other {c : Char} (hc : isBrace c = false) (n : Nat) (s : Text) :
    openAfter? n (c :: s) = openAfter? n s := by
  have h : c ≠ '{' ∧ c ≠ '}' := isBrace_eq_false_iff.1 hc
  rw [openAfter?, if_neg h.1, if_neg h.2]

/-- What a character of a text does that closes only braces that are open. -/
theorem openAfter?_cons_eq_some {n k : Nat} {c : Char} {s : Text}
    (h : openAfter? n (c :: s) = some k) :
    c = '{' ∧ openAfter? (n + 1) s = some k ∨
      (∃ m, n = m + 1 ∧ c = '}' ∧ openAfter? m s = some k) ∨
      isBrace c = false ∧ openAfter? n s = some k := by
  rw [openAfter?] at h
  split at h
  · next hopen => exact .inl ⟨hopen, h⟩
  · next hopen =>
    split at h
    · next hclose =>
      split at h
      · cases h
      · next hn =>
        obtain ⟨m, rfl⟩ := Nat.exists_eq_succ_of_ne_zero hn
        exact .inr (.inl ⟨m, rfl, hclose, h⟩)
    · next hclose => exact .inr (.inr ⟨isBrace_eq_false_iff.2 ⟨hopen, hclose⟩, h⟩)

theorem openAfter?_append (n : Nat) (s t : Text) :
    openAfter? n (s ++ t) = (openAfter? n s).bind (openAfter? · t) := by
  induction s generalizing n with
  | nil => rfl
  | cons c s ih =>
    simp only [List.cons_append, openAfter?, ih]
    split
    · rfl
    · split
      · split <;> rfl
      · rfl

/-- What a text does to the open braces does not depend on how many others are open around it. -/
theorem openAfter?_add {n k : Nat} {s : Text} (h : openAfter? n s = some k) (m : Nat) :
    openAfter? (n + m) s = some (k + m) := by
  induction s generalizing n with
  | nil =>
    cases h
    rfl
  | cons c s ih =>
    rcases openAfter?_cons_eq_some h with ⟨rfl, hs⟩ | ⟨n, rfl, rfl, hs⟩ | ⟨hc, hs⟩
    · rw [openAfter?_cons_open, Nat.add_right_comm]
      exact ih hs
    · rw [Nat.add_right_comm, openAfter?_cons_close]
      exact ih hs
    · rw [openAfter?_cons_other hc]
      exact ih hs

/-- Only braces count. -/
theorem openAfter?_filter (n : Nat) (s : Text) :
    openAfter? n (s.filter isBrace) = openAfter? n s := by
  induction s generalizing n with
  | nil => rfl
  | cons c s ih =>
    cases hc : isBrace c with
    | false => rw [List.filter_cons_of_neg (by simp [hc]), openAfter?_cons_other hc, ih]
    | true =>
      rw [List.filter_cons_of_pos hc]
      simp only [openAfter?, ih]

theorem openAfter?_congr {s t : Text} (h : s.filter isBrace = t.filter isBrace) (n : Nat) :
    openAfter? n s = openAfter? n t := by
  rw [← openAfter?_filter n s, h, openAfter?_filter]

/-- The start of a text closes no more than the text does. -/
theorem exists_openAfter?_of_prefix {n k : Nat} {s t : Text} (hst : s <+: t)
    (h : openAfter? n t = some k) : ∃ j, openAfter? n s = some j := by
  obtain ⟨u, rfl⟩ := hst
  rw [openAfter?_append] at h
  obtain ⟨j, hj, -⟩ := Option.bind_eq_some_iff.1 h
  exact ⟨j, hj⟩

theorem openAfter?_replicate_close (n : Nat) :
    openAfter? n (List.replicate n '}') = some 0 := by
  induction n with
  | zero => rfl
  | succ n ih => rw [List.replicate_succ, openAfter?_cons_close, ih]

theorem closes_eq_true_iff (n : Nat) (s : Text) : closes n s = true ↔ openAfter? n s = some 0 := by
  induction s generalizing n with
  | nil => simp [closes]
  | cons c s ih =>
    rw [closes, openAfter?]
    split
    · exact ih (n + 1)
    · split
      · by_cases hn : n = 0
        · simp [hn]
        · simp [hn, ih]
      · exact ih n

/-! ## Closing braces that close nothing -/

/-- The number of open braces after a text at whose start `n` are open; a closing brace that finds
none open closes none. -/
def openBraces : Nat → Text → Nat
  | n, [] => n
  | n, c :: s =>
    if c = '{' then openBraces (n + 1) s
    else if c = '}' then openBraces (n - 1) s
    else openBraces n s

@[simp] theorem openBraces_nil (n : Nat) : openBraces n [] = n := rfl

@[simp] theorem openBraces_cons_open (n : Nat) (s : Text) :
    openBraces n ('{' :: s) = openBraces (n + 1) s := rfl

@[simp] theorem openBraces_cons_close (n : Nat) (s : Text) :
    openBraces n ('}' :: s) = openBraces (n - 1) s := rfl

theorem openBraces_cons_other {c : Char} (hc : isBrace c = false) (n : Nat) (s : Text) :
    openBraces n (c :: s) = openBraces n s := by
  have h : c ≠ '{' ∧ c ≠ '}' := isBrace_eq_false_iff.1 hc
  rw [openBraces, if_neg h.1, if_neg h.2]

theorem openBraces_append (n : Nat) (s t : Text) :
    openBraces n (s ++ t) = openBraces (openBraces n s) t := by
  induction s generalizing n with
  | nil => rfl
  | cons c s ih =>
    simp only [List.cons_append, openBraces, ih]
    split
    · rfl
    · split <;> rfl

/-- A text that closes no brace that is not open counts its braces in the same way. -/
theorem openBraces_of_openAfter? {n k : Nat} {s : Text} (h : openAfter? n s = some k) :
    openBraces n s = k := by
  induction s generalizing n with
  | nil => exact Option.some.inj h
  | cons c s ih =>
    rcases openAfter?_cons_eq_some h with ⟨rfl, hs⟩ | ⟨n, rfl, rfl, hs⟩ | ⟨hc, hs⟩
    · exact ih hs
    · exact ih hs
    · rw [openBraces_cons_other hc]
      exact ih hs

/-- The count fails at a closing brace that finds none open. -/
theorem exists_stray_of_openAfter?_eq_none {n : Nat} {s : Text} (h : openAfter? n s = none) :
    ∃ a b, s = a ++ '}' :: b ∧ openBraces n a = 0 := by
  induction s generalizing n with
  | nil => cases h
  | cons c s ih =>
    rw [openAfter?] at h
    split at h
    · next hc =>
      obtain ⟨a, b, rfl, hzero⟩ := ih h
      exact ⟨c :: a, b, rfl, by rw [openBraces, if_pos hc, hzero]⟩
    · next hopen =>
      split at h
      · next hclose =>
        subst hclose
        split at h
        · next hn =>
          subst hn
          exact ⟨[], s, rfl, rfl⟩
        · obtain ⟨a, b, rfl, hzero⟩ := ih h
          exact ⟨'}' :: a, b, rfl, hzero⟩
      · next hclose =>
        obtain ⟨a, b, rfl, hzero⟩ := ih h
        exact ⟨c :: a, b, rfl, by rw [openBraces, if_neg hopen, if_neg hclose, hzero]⟩

/-- The two ways to count agree exactly on the texts of which every closing brace finds one open. -/
theorem openAfter?_eq_some_iff {n k : Nat} {s : Text} :
    openAfter? n s = some k ↔
      openBraces n s = k ∧ ∀ a b, s = a ++ '}' :: b → openBraces n a ≠ 0 := by
  constructor
  · intro h
    refine ⟨openBraces_of_openAfter? h, ?_⟩
    rintro a b rfl hzero
    obtain ⟨j, hj⟩ := exists_openAfter?_of_prefix (List.prefix_append a ('}' :: b)) h
    -- the closing brace behind `a` would find none open
    rw [openAfter?_append, hj, Option.bind_some, ← openBraces_of_openAfter? hj, hzero] at h
    cases h
  · rintro ⟨rfl, hstray⟩
    cases h : openAfter? n s with
    | some k => rw [openBraces_of_openAfter? h]
    | none =>
      obtain ⟨a, b, rfl, hzero⟩ := exists_stray_of_openAfter?_eq_none h
      exact absurd hzero (hstray a b rfl)

/-! ## Balanced texts -/

theorem isBalanced_iff (s : Text) : isBalanced s = true ↔ openAfter? 0 s = some 0 :=
  closes_eq_true_iff 0 s

theorem checkBraces_eq_ok_iff (s : Text) : checkBraces s = .ok () ↔ isBalanced s = true := by
  rw [checkBraces]
  split <;> simp_all

/-- Around a balanced text the number of open braces is the same. -/
theorem openAfter?_of_isBalanced {s : Text} (h : isBalanced s = true) (n : Nat) :
    openAfter? n s = some n := by
  simpa using openAfter?_add ((isBalanced_iff s).1 h) n

theorem isBalanced_nil : isBalanced [] = true := rfl

theorem isBalanced_append {s t : Text} (hs : isBalanced s = true) (ht : isBalanced t = true) :
    isBalanced (s ++ t) = true := by
  rw [isBalanced_iff, openAfter?_append, openAfter?_of_isBalanced hs, Option.bind_some,
    openAfter?_of_isBalanced ht]

theorem isBalanced_flatten {parts : List Text} (h : ∀ s ∈ parts, isBalanced s = true) :
    isBalanced parts.flatten = true := by
  induction parts with
  | nil => rfl
  | cons s parts ih =>
    rw [List.flatten_cons]
    exact isBalanced_append (h s (by simp)) (ih fun t ht => h t (List.mem_cons_of_mem _ ht))

theorem isBalanced_flatMap {α : Type} {xs : List α} {f : α → Text}
    (h : ∀ x ∈ xs, isBalanced (f x) = true) : isBalanced (xs.flatMap f) = true := by
  rw [List.flatMap_def]
  refine isBalanced_flatten fun s hs => ?_
  obtain ⟨x, hx, rfl⟩ := List.mem_map.1 hs
  exact h x hx

/-- Texts with the same braces are balanced alike. -/
theorem isBalanced_congr {s t : Text} (h : s.filter isBrace = t.filter isBrace) :
    isBalanced s = isBalanced t := by
  rw [Bool.eq_iff_iff, isBalanced_iff, isBalanced_iff, openAfter?_congr h]

/-- A text without braces is balanced. -/
theorem isBalanced_of_no_braces {s : Text} (h : ∀ c ∈ s, isBrace c = false) :
    isBalanced s = true := by
  have hfilter : s.filter isBrace = [] := List.filter_eq_nil_iff.2 fun c hc => by simp [h c hc]
  rw [isBalanced_congr (t := []) hfilter, isBalanced_nil]

theorem isBalanced_join {sep : Text} (hsep : isBalanced sep = true) {parts : List Text}
    (h : ∀ s ∈ parts, isBalanced s = true) : isBalanced (Text.join sep parts) = true := by
  induction parts with
  | nil => rfl
  | cons s parts ih =>
    cases parts with
    | nil => exact h s (by simp)
    | cons t parts =>
      have ht := ih fun u hu => h u (List.mem_cons_of_mem _ hu)
      exact isBalanced_append (isBalanced_append (h s (by simp)) hsep) ht

/-! ## White space -/

/-- The braces of a text are those of its words. -/
theorem filter_isBrace_words (s : Text) :
    (Text.words s).flatten.filter isBrace = s.filter isBrace := by
  rw [Text.flatten_words, List.filter_filter]
  refine List.filter_congr fun c _ => ?_
  cases hc : Unicode.isWhiteSpace c with
  | false => simp
  | true => simp [isBrace_eq_false_of_isWhiteSpace hc]

/-- Texts with the same words are balanced alike. -/
theorem isBalanced_of_words_eq {s t : Text} (h : Text.words s = Text.words t) :
    isBalanced s = isBalanced t :=
  isBalanced_congr (by rw [← filter_isBrace_words s, h, filter_isBrace_words])

/-- The lines of a balanced line are balanced together. -/
theorem isBalanced_unlines_wrap (line : Text) (width : Nat) :
    isBalanced (Text.unlines (line.wrap width)) = isBalanced line :=
  isBalanced_of_words_eq (Text.words_unlines_wrap line width)

end Bibliography.Tex
