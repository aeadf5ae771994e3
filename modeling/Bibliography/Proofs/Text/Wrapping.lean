import Bibliography.Proofs.Text.Words

set_option autoImplicit false

/-! # Where lines are broken

A line is broken at whole runs of white space, never at its start. Which runs these are is said
without the search for them by a relation (`Breaking`): what stands before a break fits the width or
could not be broken, and the word behind it would not have fitted. Wrapping finds such a breaking of
every line (`exists_breaking`), and each of the statements on its lines follows by going through the
breaks: nothing but white space is lost at them, no line could have taken the next word, and no line
is broken again.

Main statements: `wrap_breaks_at_runs`, `wrap_leaves_no_room`.
-/

namespace Bibliography.Text

/-! ## Runs of white space -/

/-- The text ends with a character that is no white space. -/
def EndsInWord (s : Text) : Prop := ∃ c, s.getLast? = some c ∧ Unicode.isWhiteSpace c = false

/-- The text does not start with white space. -/
def StartsApart (s : Text) : Prop := ∀ c, s.head? = some c → Unicode.isWhiteSpace c = false

/-- Between `before` and `after` stands `run`, a whole run of white space that is not at the
start. -/
structure IsRun (before run after : Text) : Prop where
  ne_nil : run ≠ []
  isBlank : run.isBlank = true
  before_ends : EndsInWord before
  after_starts : StartsApart after

/-- A run of white space starts behind the first `n` characters of the text. -/
def StartsRun (s : Text) (n : Nat) : Prop :=
  ∃ before c after, s = before ++ c :: after ∧ before.length = n ∧
    Unicode.isWhiteSpace c = true ∧ EndsInWord before

/-- There is no white space behind a first word. -/
def IsUnbreakable (s : Text) : Prop := ∀ c ∈ trimStart s, Unicode.isWhiteSpace c = false

def firstWord (s : Text) : Text := s.takeWhile (!Unicode.isWhiteSpace ·)

theorem EndsInWord.append {t : Text} (ht : EndsInWord t) (s : Text) : EndsInWord (s ++ t) := by
  obtain ⟨c, hlast, hc⟩ := ht
  exact ⟨c, by rw [List.getLast?_append, hlast, Option.some_or], hc⟩

theorem endsInWord_concat {c : Char} (hc : Unicode.isWhiteSpace c = false) (s : Text) :
    EndsInWord (s ++ [c]) :=
  ⟨c, List.getLast?_concat, hc⟩

theorem not_endsInWord_concat {c : Char} (hc : Unicode.isWhiteSpace c = true) (s : Text) :
    ¬ EndsInWord (s ++ [c]) := by
  rintro ⟨d, hlast, hd⟩
  rw [List.getLast?_concat] at hlast
  cases hlast
  rw [hc] at hd
  cases hd

theorem IsRun.prepend {before run after : Text} (h : IsRun before run after) (s : Text) :
    IsRun (s ++ before) run after :=
  { h with before_ends := h.before_ends.append s }

theorem startsApart_trimStart (s : Text) : StartsApart (trimStart s) :=
  fun _ => eq_false_of_mem_head?_dropWhile

theorem trimStart_append_of_isBlank {s : Text} (hs : s.isBlank = true) (t : Text) :
    trimStart (s ++ t) = trimStart t :=
  List.dropWhile_append_of_pos (List.all_eq_true.1 hs)

theorem isBlank_of_trimStart_eq_nil {s : Text} (h : trimStart s = []) : s.isBlank = true := by
  rw [trimStart] at h
  rw [← List.takeWhile_append_dropWhile (p := Unicode.isWhiteSpace) (l := s), h, List.append_nil]
  exact List.all_takeWhile

theorem EndsInWord.trimStart_append {s : Text} (h : EndsInWord s) (t : Text) :
    trimStart (s ++ t) = trimStart s ++ t := by
  obtain ⟨c, hlast, hc⟩ := h
  have hne : trimStart s ≠ [] := by
    intro hnil
    have hblank := List.all_eq_true.1 (isBlank_of_trimStart_eq_nil hnil) c
      (List.mem_of_getLast? hlast)
    rw [hc] at hblank
    cases hblank
  rw [trimStart] at hne
  rw [trimStart, List.dropWhile_append, if_neg (by simpa using hne), trimStart]

/-! ### First words -/

theorem of_mem_firstWord {s : Text} {c : Char} (h : c ∈ firstWord s) :
    Unicode.isWhiteSpace c = false := by
  have hall : (firstWord s).all (!Unicode.isWhiteSpace ·) = true := List.all_takeWhile
  simpa using List.all_eq_true.1 hall c h

/-- The first word ends where the text ends or at white space. -/
theorem exists_behind_firstWord (s : Text) :
    s = firstWord s ∨
      ∃ c after, s = firstWord s ++ c :: after ∧ Unicode.isWhiteSpace c = true := by
  have hsplit : firstWord s ++ s.dropWhile (!Unicode.isWhiteSpace ·) = s :=
    List.takeWhile_append_dropWhile
  have hdropped : ∀ c ∈ (s.dropWhile (!Unicode.isWhiteSpace ·)).head?,
      (!Unicode.isWhiteSpace c) = false :=
    fun _ => eq_false_of_mem_head?_dropWhile
  cases hrest : s.dropWhile (!Unicode.isWhiteSpace ·) with
  | nil => exact Or.inl (by rw [hrest, List.append_nil] at hsplit; exact hsplit.symm)
  | cons c after =>
    rw [hrest] at hsplit hdropped
    exact Or.inr ⟨c, after, hsplit.symm, by simpa using hdropped c rfl⟩

theorem endsInWord_firstWord {s : Text} (h : StartsApart s) (hne : s ≠ []) :
    EndsInWord (firstWord s) := by
  have hfirst : firstWord s ≠ [] := by
    obtain ⟨c, s, rfl⟩ := List.exists_cons_of_ne_nil hne
    rw [firstWord, List.takeWhile_cons_of_pos (by simp [h c rfl])]
    exact List.cons_ne_nil _ _
  exact ⟨_, List.getLast?_eq_some_getLast hfirst, of_mem_firstWord (List.getLast_mem hfirst)⟩

theorem splitWhere_eq_singleton {p : Char → Bool} {s : Text} (h : ∀ c ∈ s, p c = false) :
    splitWhere p s = [s] := by
  induction s with
  | nil => rfl
  | cons c s ih =>
    rw [List.forall_mem_cons] at h
    rw [splitWhere, ih h.2]
    simp [h.1]

theorem words_eq_singleton {w : Text} (h : ∀ c ∈ w, Unicode.isWhiteSpace c = false)
    (hne : w ≠ []) : words w = [w] := by
  simp [words, splitWhere_eq_singleton h, hne]

/-- What stands before the first white space is the first of the words. -/
theorem head?_words {s : Text} (h : StartsApart s) (hne : s ≠ []) :
    (words s).head? = some (firstWord s) := by
  obtain ⟨c, hlast, -⟩ := endsInWord_firstWord h hne
  have hword : words (firstWord s) = [firstWord s] :=
    words_eq_singleton (fun _ => of_mem_firstWord) (List.ne_nil_of_mem (List.mem_of_getLast? hlast))
  obtain hall | ⟨d, after, hsplit, hd⟩ := exists_behind_firstWord s
  · rw [← hall] at hword ⊢
    rw [hword]
    rfl
  · rw [hsplit, words_append_cons hd, ← hsplit, hword]
    rfl

/-! ### Where runs start -/

theorem startsRun_of_append {before : Text} {c : Char} (h : EndsInWord before)
    (hc : Unicode.isWhiteSpace c = true) (after : Text) :
    StartsRun (before ++ c :: after) before.length :=
  ⟨before, c, after, rfl, rfl, hc, h⟩

theorem StartsRun.lt_length {s : Text} {n : Nat} (h : StartsRun s n) : n < s.length := by
  obtain ⟨before, c, after, rfl, rfl, -, -⟩ := h
  simp

theorem StartsRun.append {s : Text} {n : Nat} (h : StartsRun s n) (t : Text) :
    StartsRun (s ++ t) n := by
  obtain ⟨before, c, after, rfl, hn, hc, hbefore⟩ := h
  exact ⟨before, c, after ++ t, by simp, hn, hc, hbefore⟩

/-- At a known place a run starts exactly if white space stands there behind a word. -/
theorem startsRun_append_cons_iff (before : Text) (c : Char) (after : Text) :
    StartsRun (before ++ c :: after) before.length ↔
      Unicode.isWhiteSpace c = true ∧ EndsInWord before := by
  constructor
  · rintro ⟨before', c', after', heq, hlength, hc, hbefore⟩
    obtain ⟨rfl, hcons⟩ := List.append_inj heq hlength.symm
    obtain ⟨rfl, -⟩ := List.cons.inj hcons
    exact ⟨hc, hbefore⟩
  · rintro ⟨hc, hbefore⟩
    exact startsRun_of_append hbefore hc after

/-- **A text can be broken unless it is a single word.** -/
theorem isUnbreakable_iff (s : Text) : IsUnbreakable s ↔ ∀ n, ¬ StartsRun s n := by
  constructor
  · rintro h n ⟨before, c, after, rfl, -, hc, hbefore⟩
    rw [IsUnbreakable, hbefore.trimStart_append] at h
    have hfree := h c (List.mem_append_right _ List.mem_cons_self)
    rw [hc] at hfree
    cases hfree
  · intro h c hc
    obtain hword | ⟨d, after, hsplit, hd⟩ := exists_behind_firstWord (trimStart s)
    · exact of_mem_firstWord (hword ▸ hc)
    · -- a run starts behind the first word
      have hends := endsInWord_firstWord (startsApart_trimStart s) (List.ne_nil_of_mem hc)
      have hstarts := startsRun_of_append (hends.append (s.takeWhile Unicode.isWhiteSpace)) hd after
      rw [List.append_assoc, ← hsplit, trimStart, List.takeWhile_append_dropWhile] at hstarts
      exact absurd hstarts (h _)

/-! ## The choice of a break -/

/-- What the search for a break finds: the last run that starts within the room, or else the first
run. -/
def IsChoice (room : Nat) (s : Text) : Option Nat → Prop
  | none => ∀ k, ¬ StartsRun s k
  | some n => StartsRun s n ∧
      (n ≤ room ∧ (∀ k, StartsRun s k → k ≤ n ∨ room < k) ∨
        room < n ∧ ∀ k, StartsRun s k → n ≤ k)

theorem isChoice_breakFrom {room : Nat} (before : Text) {rest : Text} {chosen : Option Nat}
    {inRun : Bool} (hrun : inRun = false ↔ EndsInWord before)
    (hchosen : ∀ n, chosen = some n → StartsRun (before ++ rest) n ∧ n ≤ room)
    (hlast : ∀ k < before.length, StartsRun (before ++ rest) k → ∃ n, chosen = some n ∧ k ≤ n) :
    IsChoice room (before ++ rest) (breakFrom room chosen before.length inRun rest) := by
  induction rest generalizing before chosen inRun with
  | nil =>
    rw [breakFrom]
    cases chosen with
    | none =>
      intro k hk
      obtain ⟨n, hn, -⟩ := hlast k (by simpa using hk.lt_length) hk
      cases hn
    | some n =>
      obtain ⟨hstarts, hroom⟩ := hchosen n rfl
      refine ⟨hstarts, Or.inl ⟨hroom, fun k hk => Or.inl ?_⟩⟩
      obtain ⟨m, hm, hkm⟩ := hlast k (by simpa using hk.lt_length) hk
      cases hm
      exact hkm
  | cons c rest ih =>
    have hassoc : before ++ c :: rest = (before ++ [c]) ++ rest := by simp
    have hlength : (before ++ [c]).length = before.length + 1 := by simp
    have hhere := startsRun_append_cons_iff before c rest
    -- reading on where no run starts changes nothing
    have hon : ∀ {inRun' : Bool}, (inRun' = false ↔ EndsInWord (before ++ [c])) →
        ¬ StartsRun (before ++ c :: rest) before.length →
        IsChoice room (before ++ c :: rest)
          (breakFrom room chosen (before.length + 1) inRun' rest) := by
      intro inRun' hrun' hno
      rw [← hlength, hassoc]
      refine ih (before ++ [c]) hrun' (hassoc ▸ hchosen) fun k hk hstarts => ?_
      rw [← hassoc] at hstarts
      have hne : k ≠ before.length := fun heq => hno (heq ▸ hstarts)
      exact hlast k (by omega) hstarts
    rw [breakFrom]
    by_cases hdone : room < before.length ∧ chosen.isSome
    · rw [if_pos hdone]
      obtain ⟨n, rfl⟩ := Option.isSome_iff_exists.1 hdone.2
      obtain ⟨hstarts, hroom⟩ := hchosen n rfl
      refine ⟨hstarts, Or.inl ⟨hroom, fun k hk => ?_⟩⟩
      by_cases hread : k < before.length
      · obtain ⟨m, hm, hkm⟩ := hlast k hread hk
        cases hm
        exact Or.inl hkm
      · exact Or.inr (by omega)
    rw [if_neg hdone]
    cases hc : Unicode.isWhiteSpace c with
    | false =>
      rw [hc] at hhere
      exact hon (by simp [endsInWord_concat hc]) (fun h => by simpa using hhere.1 h)
    | true =>
      have hblank : ¬ EndsInWord (before ++ [c]) := not_endsInWord_concat hc before
      cases inRun with
      | true =>
        have hbefore : ¬ EndsInWord before := fun h => by simpa using hrun.2 h
        exact hon (by simp [hblank]) (fun h => hbefore (hhere.1 h).2)
      | false =>
        -- a run starts here
        have hstarts := startsRun_of_append (hrun.1 rfl) hc rest
        simp only [Bool.not_true, Bool.false_eq_true, if_false]
        by_cases hroom : before.length ≤ room
        · rw [if_pos hroom, ← hlength, hassoc]
          refine ih (before ++ [c]) (by simp [hblank]) ?_ fun k hk hk' => ⟨_, rfl, by omega⟩
          rintro n ⟨⟩
          exact ⟨hassoc ▸ hstarts, hroom⟩
        · rw [if_neg hroom]
          refine ⟨hstarts, Or.inr ⟨by omega, fun k hk => Nat.le_of_not_lt fun hlt => ?_⟩⟩
          obtain ⟨n, rfl, -⟩ := hlast k hlt hk
          exact hdone ⟨by omega, rfl⟩

theorem isChoice_chooseBreak (room : Nat) (s : Text) :
    IsChoice room s (breakFrom room none 0 true s) := by
  refine isChoice_breakFrom [] ?_ nofun nofun
  simp [EndsInWord]

/-- No break is found in what cannot be broken, and only there. -/
theorem chooseBreak?_eq_none_iff (room : Nat) (s : Text) :
    chooseBreak? room s = none ↔ IsUnbreakable s := by
  have hchoice := isChoice_chooseBreak room s
  rw [chooseBreak?, Option.map_eq_none_iff, isUnbreakable_iff]
  cases hbreak : breakFrom room none 0 true s with
  | none =>
    rw [hbreak] at hchoice
    exact iff_of_true rfl hchoice
  | some n =>
    rw [hbreak] at hchoice
    exact iff_of_false nofun fun h => h n hchoice.1

/-- **A break is a run of white space.** What stands before it fits or cannot be broken, and what
fits together with the word behind it is all of the text. -/
theorem exists_of_chooseBreak? {room : Nat} {s head tail : Text}
    (h : chooseBreak? room s = some (head, tail)) :
    ∃ run, s = head ++ run ++ tail ∧ IsRun head run tail ∧
      (head.length ≤ room ∨ IsUnbreakable head) ∧
      (room < s.length → tail ≠ [] →
        room < head.length + run.length + (firstWord tail).length) := by
  have hchoice := isChoice_chooseBreak room s
  obtain ⟨n, hn, hparts⟩ := Option.map_eq_some_iff.1 h
  obtain ⟨rfl, rfl⟩ := Prod.mk.inj hparts
  rw [hn] at hchoice
  obtain ⟨⟨before, c, after, rfl, rfl, hc, hbefore⟩, hplace⟩ := hchoice
  rw [List.take_left, List.drop_left]
  have hsplit : (c :: after).takeWhile Unicode.isWhiteSpace ++ trimStart (c :: after) =
      c :: after := List.takeWhile_append_dropWhile
  have hrun : IsRun before ((c :: after).takeWhile Unicode.isWhiteSpace) (trimStart (c :: after)) :=
    { ne_nil := by
        rw [List.takeWhile_cons_of_pos hc]
        exact List.cons_ne_nil _ _
      isBlank := List.all_takeWhile
      before_ends := hbefore
      after_starts := startsApart_trimStart _ }
  generalize (c :: after).takeWhile Unicode.isWhiteSpace = run at hsplit hrun
  generalize trimStart (c :: after) = tail at hsplit hrun
  rw [← hsplit] at hplace ⊢
  refine ⟨run, (List.append_assoc _ _ _).symm, hrun, ?_, fun hlong hne => ?_⟩
  · refine hplace.imp And.left fun hfirst => ?_
    -- a run in what stands before would have been the first one
    rw [isUnbreakable_iff]
    intro k hk
    have := hfirst.2 k (hk.append _)
    have := hk.lt_length
    omega
  · obtain ⟨hroom, hlater⟩ | ⟨hroom, -⟩ := hplace
    · obtain hword | ⟨d, rest, hword, hd⟩ := exists_behind_firstWord tail
      · -- the word ends the text, which does not fit
        rw [← hword]
        simpa [Nat.add_assoc] using hlong
      · -- behind the word starts a later run
        have hends := (endsInWord_firstWord hrun.after_starts hne).append (before ++ run)
        have hstarts := startsRun_of_append hends hd rest
        rw [List.append_assoc _ (firstWord tail), ← hword, List.append_assoc] at hstarts
        have hpos := List.length_pos_iff.2 hrun.ne_nil
        have := hlater _ hstarts
        simp only [List.length_append] at this
        omega
    · omega

/-! ## Breakings -/

/-- A break in a line: the white space that is taken out, and the piece behind it. -/
structure LineBreak where
  run : Text
  piece : Text

/-- What the break took out, and the piece behind it. -/
def LineBreak.text (b : LineBreak) : Text := b.run ++ b.piece

/-- `Breaking width lead s first breaks`: behind `lead`, the text `s` is broken into `first` and the
pieces of `breaks`. What stands on a line fits it or cannot be broken, and has no room for the word
behind the break. -/
inductive Breaking (width : Nat) : Text → Text → Text → List LineBreak → Prop where
  | whole {lead s : Text} (h : lead.length + s.length ≤ width ∨ IsUnbreakable s) :
      Breaking width lead s s []
  | cut {lead head run tail first : Text} {breaks : List LineBreak} (hrun : IsRun head run tail)
      (hhead : lead.length + head.length ≤ width ∨ IsUnbreakable head)
      (hfull : tail ≠ [] →
        width < lead.length + head.length + run.length + (firstWord tail).length)
      (rest : Breaking width indent tail first breaks) :
      Breaking width lead (head ++ run ++ tail) head (⟨run, first⟩ :: breaks)

/-- The pieces that become lines: an empty one at the end does not. -/
def shownPieces (pieces : List Text) : List Text :=
  if pieces.getLast? = some [] then pieces.dropLast else pieces

def brokenLines (first : Text) (breaks : List LineBreak) : List Text :=
  first :: (shownPieces (breaks.map LineBreak.piece)).map (indent ++ ·)

theorem Breaking.ne_nil {width : Nat} {lead s first : Text} {breaks : List LineBreak}
    (h : Breaking width lead s first breaks) (hs : s ≠ []) : first ≠ [] := by
  cases h with
  | whole _ => exact hs
  | cut hrun _ _ _ =>
    obtain ⟨c, hlast, -⟩ := hrun.before_ends
    exact List.ne_nil_of_mem (List.mem_of_getLast? hlast)

/-- Where nothing is left, nothing is broken. -/
theorem Breaking.of_nil {width : Nat} {lead s first : Text} {breaks : List LineBreak}
    (h : Breaking width lead s first breaks) (hs : s = []) : first = [] ∧ breaks = [] := by
  cases h with
  | whole _ => exact ⟨hs, rfl⟩
  | cut hrun _ _ _ =>
    exact absurd (List.append_eq_nil_iff.1 (List.append_eq_nil_iff.1 hs).1).2 hrun.ne_nil

theorem shownPieces_cons {piece : Text} {pieces : List Text} (h : pieces = [] → piece ≠ []) :
    shownPieces (piece :: pieces) = piece :: shownPieces pieces := by
  cases pieces with
  | nil => simp [shownPieces, h rfl]
  | cons next pieces =>
    simp only [shownPieces, List.getLast?_cons_cons, List.dropLast_cons_cons]
    split <;> rfl

/-- A piece that is not empty has a line of its own. -/
theorem brokenLines_cons {first : Text} (h : first ≠ []) (line run : Text)
    (breaks : List LineBreak) :
    brokenLines line (⟨run, first⟩ :: breaks) = line :: brokenLines (indent ++ first) breaks := by
  rw [brokenLines, List.map_cons, shownPieces_cons fun _ => h]
  rfl

/-- **Wrapping breaks every text**, and shows the pieces as lines. -/
theorem exists_breaking (width : Nat) (lead s : Text) :
    ∃ first breaks, Breaking width lead s first breaks ∧
      wrapAfter width lead s = brokenLines (lead ++ first) breaks := by
  have hwhole : ∀ line, brokenLines line [] = [line] := fun _ => rfl
  fun_induction wrapAfter width lead s with
  | case1 lead s hfits =>
    rw [fits_eq_true_iff] at hfits
    exact ⟨s, [], .whole (Or.inl (by omega)), (hwhole _).symm⟩
  | case2 lead hfits =>
    exact ⟨[], [], .whole (Or.inr (List.forall_mem_nil _)), by rw [hwhole, List.append_nil]⟩
  | case3 lead c rest hbreak hfits =>
    have hword := (chooseBreak?_eq_none_iff _ _).1 hbreak
    exact ⟨c :: rest, [], .whole (Or.inr hword), (hwhole _).symm⟩
  | case4 lead c rest head tail hbreak hfits ih =>
    rw [fits_eq_true_iff] at hfits
    obtain ⟨run, hs, hrun, hhead, hfull⟩ := exists_of_chooseBreak? hbreak
    obtain ⟨first, breaks, hrest, hlines⟩ := ih
    have hpos : 0 < head.length := by
      obtain ⟨d, hlast, -⟩ := hrun.before_ends
      exact List.length_pos_of_mem (List.mem_of_getLast? hlast)
    have hlong : width - lead.length < (c :: rest).length ∨ width < lead.length := by omega
    refine ⟨head, ⟨run, first⟩ :: breaks, ?_, ?_⟩
    · rw [hs]
      refine .cut hrun (hhead.imp_left (by omega)) (fun hne => ?_) hrest
      obtain hlong | hlead := hlong
      · have := hfull hlong hne
        omega
      · omega
    · by_cases htail : tail = []
      · -- nothing stands behind the last break
        rw [if_pos htail]
        subst htail
        obtain ⟨rfl, rfl⟩ := hrest.of_nil rfl
        rfl
      · rw [if_neg htail, hlines, brokenLines_cons (hrest.ne_nil htail)]

/-! ## Where a breaking breaks -/

/-- The text `s` is `first` with the breaks behind it, and each of these takes out a whole run of
white space. -/
structure BrokenAtRuns (s first : Text) (breaks : List LineBreak) : Prop where
  text : s = first ++ breaks.flatMap LineBreak.text
  isRun : ∀ xs b ys, breaks = xs ++ b :: ys →
    IsRun (first ++ xs.flatMap LineBreak.text) b.run (b.piece ++ ys.flatMap LineBreak.text)

theorem Breaking.brokenAtRuns {width : Nat} {lead s first : Text} {breaks : List LineBreak}
    (h : Breaking width lead s first breaks) : BrokenAtRuns s first breaks := by
  induction h with
  | whole _ =>
    refine ⟨(List.append_nil _).symm, fun xs b ys hbreaks => ?_⟩
    exact absurd hbreaks.symm (by simp)
  | @cut lead head run tail first breaks hrun _ _ _ ih =>
    refine ⟨?_, fun xs b ys hbreaks => ?_⟩
    · rw [List.flatMap_cons, LineBreak.text, List.append_assoc head, List.append_assoc run,
        ← ih.text]
    · obtain ⟨rfl, hcons⟩ | ⟨xs, rfl, hrest⟩ := List.append_eq_cons_iff.1 hbreaks.symm
      · -- the first break
        obtain ⟨rfl, rfl⟩ := List.cons.inj hcons
        rw [List.flatMap_nil, List.append_nil]
        exact ih.text ▸ hrun
      · have hlater := (ih.isRun xs b ys hrest).prepend (head ++ run)
        rw [List.flatMap_cons, LineBreak.text]
        simpa only [List.append_assoc] using hlater

/-- The first piece is followed by white space. -/
theorem BrokenAtRuns.firstWord_eq {s first : Text} {breaks : List LineBreak}
    (h : BrokenAtRuns s first breaks) : firstWord s = firstWord first := by
  rw [h.text]
  cases breaks with
  | nil => rw [List.flatMap_nil, List.append_nil]
  | cons b breaks =>
    have hrun := h.isRun [] b breaks rfl
    obtain ⟨c, run, hb⟩ := List.exists_cons_of_ne_nil hrun.ne_nil
    have hc : Unicode.isWhiteSpace c = true :=
      List.all_eq_true.1 hrun.isBlank c (hb ▸ List.mem_cons_self)
    rw [List.flatMap_cons, LineBreak.text, hb, firstWord, firstWord, List.takeWhile_append]
    split
    · next hall =>
      rw [List.cons_append, List.cons_append, List.takeWhile_cons_of_neg (by simp [hc]),
        List.append_nil]
      exact (List.takeWhile_prefix _).eq_of_length hall |>.symm
    · rfl

theorem BrokenAtRuns.startsApart {s first : Text} {breaks : List LineBreak}
    (h : BrokenAtRuns s first breaks) (hs : StartsApart s) (hne : first ≠ []) :
    ∃ c t, first = c :: t ∧ Unicode.isWhiteSpace c = false := by
  obtain ⟨c, t, rfl⟩ := List.exists_cons_of_ne_nil hne
  exact ⟨c, t, rfl, hs c (by rw [h.text]; rfl)⟩

/-- Every piece that becomes a line starts with a word. -/
theorem Breaking.startsApart_of_mem {width : Nat} {lead s first : Text} {breaks : List LineBreak}
    (h : Breaking width lead s first breaks) {piece : Text}
    (hpiece : piece ∈ shownPieces (breaks.map LineBreak.piece)) :
    ∃ c t, piece = c :: t ∧ Unicode.isWhiteSpace c = false := by
  induction h with
  | whole _ => cases hpiece
  | @cut lead head run tail first breaks hrun _ _ hrest ih =>
    by_cases htail : tail = []
    · subst htail
      obtain ⟨rfl, rfl⟩ := hrest.of_nil rfl
      cases hpiece
    · have hne := hrest.ne_nil htail
      rw [List.map_cons, shownPieces_cons fun _ => hne] at hpiece
      rcases List.mem_cons.1 hpiece with rfl | hpiece
      · exact hrest.brokenAtRuns.startsApart hrun.after_starts hne
      · exact ih hpiece

/-- A continuation line is two blanks with a word behind them. -/
theorem Breaking.continuation {width : Nat} {lead s first : Text} {breaks : List LineBreak}
    (h : Breaking width lead s first breaks) {o : Text}
    (ho : o ∈ (brokenLines first breaks).tail) :
    ∃ c t, o = ' ' :: ' ' :: c :: t ∧ Unicode.isWhiteSpace c = false := by
  obtain ⟨piece, hpiece, rfl⟩ := List.mem_map.1 ho
  obtain ⟨c, t, rfl, hc⟩ := h.startsApart_of_mem hpiece
  exact ⟨c, t, rfl, hc⟩

/-! ## Full lines -/

/-- **No line has room for the next word**, whatever white space stood before it. -/
theorem Breaking.full {width : Nat} {lead s first : Text} {breaks : List LineBreak}
    (h : Breaking width lead s first breaks) {i : Nat} {o next : Text}
    (ho : (brokenLines (lead ++ first) breaks)[i]? = some o)
    (hnext : (brokenLines (lead ++ first) breaks)[i + 1]? = some next) :
    ∃ b w, breaks[i]? = some b ∧ (words next).head? = some w ∧
      width < o.length + b.run.length + w.length := by
  induction h generalizing i with
  | whole _ => cases hnext
  | @cut lead head run tail first breaks hrun _ hfull hrest ih =>
    by_cases htail : tail = []
    · obtain ⟨rfl, rfl⟩ := hrest.of_nil htail
      cases hnext
    · have hne := hrest.ne_nil htail
      rw [brokenLines_cons hne] at ho hnext
      cases i with
      | zero =>
        obtain rfl : lead ++ head = o := Option.some.inj ho
        obtain rfl : indent ++ first = next := Option.some.inj hnext
        refine ⟨_, firstWord tail, rfl, ?_, ?_⟩
        · obtain ⟨c, t, rfl, hc⟩ := hrest.brokenAtRuns.startsApart hrun.after_starts hne
          rw [words_append_of_isBlank (by decide), hrest.brokenAtRuns.firstWord_eq]
          exact head?_words (fun d hd => Option.some.inj hd ▸ hc) hne
        · rw [List.length_append]
          exact hfull htail
      | succ i => exact ih ho hnext

/-- Every line fits the width or is a single word. -/
theorem Breaking.fits_of_mem {width : Nat} {lead s first : Text} {breaks : List LineBreak}
    (h : Breaking width lead s first breaks) (hlead : lead.isBlank = true) {o : Text}
    (ho : o ∈ brokenLines (lead ++ first) breaks) : o.length ≤ width ∨ IsUnbreakable o := by
  have hline : ∀ {lead t : Text}, lead.isBlank = true →
      (lead.length + t.length ≤ width ∨ IsUnbreakable t) →
        (lead ++ t).length ≤ width ∨ IsUnbreakable (lead ++ t) := by
    intro lead t hlead ht
    rwa [List.length_append, IsUnbreakable, trimStart_append_of_isBlank hlead]
  induction h with
  | whole hfits =>
    obtain rfl := List.mem_singleton.1 ho
    exact hline hlead hfits
  | @cut lead head run tail first breaks hrun hhead _ hrest ih =>
    rcases List.mem_cons.1 ho with rfl | ho
    · exact hline hlead hhead
    · refine ih rfl ?_
      by_cases htail : tail = []
      · obtain ⟨rfl, rfl⟩ := hrest.of_nil htail
        cases ho
      · rwa [List.map_cons, shownPieces_cons fun _ => hrest.ne_nil htail] at ho

theorem wrap_of_length_le {line : Text} {width : Nat} (h : line.length ≤ width) :
    wrap line width = [line] := by
  rw [wrap, wrapAfter.eq_def, if_pos ⟨Nat.zero_le _, fits_eq_true_iff.2 h⟩]
  rfl

/-- A single word is not broken, however long. -/
theorem wrap_of_isUnbreakable {line : Text} (h : IsUnbreakable line) (width : Nat) :
    wrap line width = [line] := by
  obtain ⟨first, breaks, hbreaking, hlines⟩ := exists_breaking width [] line
  rw [wrap, hlines]
  cases hbreaking with
  | whole _ => rfl
  | @cut _ _ run tail _ _ hrun _ _ _ =>
    obtain ⟨c, run, rfl⟩ := List.exists_cons_of_ne_nil hrun.ne_nil
    have hc : Unicode.isWhiteSpace c = true :=
      List.all_eq_true.1 hrun.isBlank c List.mem_cons_self
    have hstarts := startsRun_of_append hrun.before_ends hc (run ++ tail)
    rw [← List.cons_append, ← List.append_assoc] at hstarts
    exact absurd hstarts ((isUnbreakable_iff _).1 h _)

/-! ## Words of lines -/

theorem words_ne_nil {s : Text} {c : Char} (hmem : c ∈ s) (hc : Unicode.isWhiteSpace c = false) :
    words s ≠ [] := by
  intro hnil
  have hflat := flatten_words s
  rw [hnil, List.flatten_nil] at hflat
  have hkept : c ∈ s.filter (!Unicode.isWhiteSpace ·) := List.mem_filter.2 ⟨hmem, by simp [hc]⟩
  rw [← hflat] at hkept
  cases hkept

theorem flatten_flatMap_words (lines : List Text) :
    (lines.flatMap words).flatten = lines.flatten.filter (!Unicode.isWhiteSpace ·) := by
  induction lines with
  | nil => rfl
  | cons line lines ih =>
    rw [List.flatMap_cons, List.flatten_append, flatten_words, ih, List.flatten_cons,
      List.filter_append]

theorem length_le_flatMap_words {lines : List Text} (h : ∀ o ∈ lines, words o ≠ []) :
    lines.length ≤ (lines.flatMap words).length := by
  induction lines with
  | nil => exact Nat.le_refl 0
  | cons line lines ih =>
    rw [List.forall_mem_cons] at h
    rw [List.flatMap_cons, List.length_append, List.length_cons]
    have := List.length_pos_iff.2 h.1
    have := ih h.2
    omega

/-- A text that is broken has as many words as lines, or more. -/
theorem Breaking.length_le {width : Nat} {lead s first : Text} {breaks : List LineBreak}
    (h : Breaking width lead s first breaks) :
    (brokenLines first breaks).length ≤
      max 1 ((brokenLines first breaks).flatMap words).length := by
  have hcontinued : ∀ o ∈ (brokenLines first breaks).tail, words o ≠ [] := by
    intro o ho
    obtain ⟨c, t, rfl, hc⟩ := h.continuation ho
    exact words_ne_nil (List.mem_append_right [' ', ' '] List.mem_cons_self) hc
  cases h with
  | whole _ => exact Nat.le_max_left _ _
  | cut hrun _ _ _ =>
    obtain ⟨c, hlast, hc⟩ := hrun.before_ends
    have hfirst := words_ne_nil (List.mem_of_getLast? hlast) hc
    exact Nat.le_trans (length_le_flatMap_words (List.forall_mem_cons.2 ⟨hfirst, hcontinued⟩))
      (Nat.le_max_right _ _)

/-! ## The laws -/

/-- **Wrapping breaks a line at runs of white space**, each taken out as a whole and none of them at
the start of the line. What stands before the first one is the first line; each further piece is a
line behind two blanks, but for an empty one at the end. So the characters that are no white space
stay as they are and in their order, words stay whole, every continuation line is two blanks with a
word behind them, and there are no more lines than words. -/
theorem wrap_breaks_at_runs (line : Text) (width : Nat) :
    ∃ first breaks,
      line = first ++ breaks.flatMap LineBreak.text ∧
      (∀ xs b ys, breaks = xs ++ b :: ys →
        IsRun (first ++ xs.flatMap LineBreak.text) b.run (b.piece ++ ys.flatMap LineBreak.text)) ∧
      line.wrap width =
        first :: (shownPieces (breaks.map LineBreak.piece)).map (fun piece => ' ' :: ' ' :: piece) ∧
      (line.wrap width).flatten.filter (!Unicode.isWhiteSpace ·) =
        line.filter (!Unicode.isWhiteSpace ·) ∧
      (line.wrap width).flatMap words = words line ∧
      (∀ o ∈ (line.wrap width).tail,
        ∃ c t, o = ' ' :: ' ' :: c :: t ∧ Unicode.isWhiteSpace c = false) ∧
      (line.wrap width).length ≤ max 1 (words line).length := by
  obtain ⟨first, breaks, h, hlines⟩ := exists_breaking width [] line
  have hwords : (line.wrap width).flatMap words = words line :=
    flatMap_words_wrapAfter width [] line rfl
  refine ⟨first, breaks, h.brokenAtRuns.text, h.brokenAtRuns.isRun, hlines, ?_, hwords, ?_, ?_⟩
  · rw [← flatten_flatMap_words, hwords, flatten_words]
  · rw [wrap, hlines]
    exact fun o => h.continuation
  · rw [← hwords, wrap, hlines]
    exact h.length_le

/-- A line that is broken once, behind its second word. -/
theorem wrap_breaks_at_runs_oneBreak :
    (wrap "ab cd ef".toList 5).tail = ["  ef".toList] ∧
    (∃ before run after, "ab cd ef".toList = before ++ run ++ after ∧ IsRun before run after) ∧
    ∃ c t, "  ef".toList = ' ' :: ' ' :: c :: t ∧ Unicode.isWhiteSpace c = false := by
  have hwrap : wrap "ab cd ef".toList 5 = ["ab cd".toList, "  ef".toList] := by cbv
  have htail : (wrap "ab cd ef".toList 5).tail = ["  ef".toList] := by rw [hwrap, List.tail_cons]
  obtain ⟨first, breaks, htext, hruns, hlines, -, -, hcontinued, -⟩ :=
    wrap_breaks_at_runs "ab cd ef".toList 5
  refine ⟨htail, ?_, hcontinued _ (htail ▸ List.mem_cons_self)⟩
  cases breaks with
  | nil =>
    rw [hlines] at htail
    cases htail
  | cons b breaks =>
    refine ⟨first, b.run, b.piece ++ breaks.flatMap LineBreak.text, ?_, ?_⟩
    · simpa [LineBreak.text] using htext
    · simpa using hruns [] b breaks rfl

/-- **Wrapping leaves no room and changes nothing twice.** With the breaks that take out the runs of
white space of a line: a line fits the width or has no white space behind its first word; a line,
the white space taken out behind it and the first word of the next line together do not fit; a line
that fits is the only one; and no line is broken again. -/
theorem wrap_leaves_no_room (line : Text) (width : Nat) :
    ∃ first breaks, BrokenAtRuns line first breaks ∧
      line.wrap width =
        first :: (shownPieces (breaks.map LineBreak.piece)).map (fun piece => ' ' :: ' ' :: piece) ∧
      (∀ o ∈ line.wrap width,
        o.length ≤ width ∨ ∀ c ∈ trimStart o, Unicode.isWhiteSpace c = false) ∧
      (∀ i o next, (line.wrap width)[i]? = some o → (line.wrap width)[i + 1]? = some next →
        ∃ b w, breaks[i]? = some b ∧ (words next).head? = some w ∧
          width < o.length + b.run.length + w.length) ∧
      (line.length ≤ width → line.wrap width = [line]) ∧
      ∀ o ∈ line.wrap width, o.wrap width = [o] := by
  obtain ⟨first, breaks, h, hlines⟩ := exists_breaking width [] line
  have hfits : ∀ o ∈ line.wrap width, o.length ≤ width ∨ IsUnbreakable o := by
    intro o ho
    rw [wrap, hlines] at ho
    exact h.fits_of_mem rfl ho
  refine ⟨first, breaks, h.brokenAtRuns, hlines, hfits, ?_, wrap_of_length_le, fun o ho => ?_⟩
  · intro i o next ho hnext
    rw [wrap, hlines] at ho hnext
    exact h.full ho hnext
  · exact (hfits o ho).elim wrap_of_length_le (wrap_of_isUnbreakable · width)

/-- A line of two lines, which has room in one that is wider. -/
theorem wrap_leaves_no_room_twoLines :
    (wrap "ab cd ef".toList 5)[0]? = some "ab cd".toList ∧
    (wrap "ab cd ef".toList 5)[1]? = some "  ef".toList ∧
    (∃ (b : LineBreak) (w : Text), (words "  ef".toList).head? = some w ∧
      5 < "ab cd".toList.length + b.run.length + w.length) ∧
    "ab cd ef".toList.length ≤ 8 ∧
    wrap "ab cd ef".toList 8 = ["ab cd ef".toList] ∧
    wrap "  ef".toList 5 = ["  ef".toList] := by
  obtain ⟨_, _, -, -, -, hfull, -, hagain⟩ := wrap_leaves_no_room "ab cd ef".toList 5
  obtain ⟨_, _, -, -, -, -, hwide, -⟩ := wrap_leaves_no_room "ab cd ef".toList 8
  have hfirst : (wrap "ab cd ef".toList 5)[0]? = some "ab cd".toList := by cbv
  have hsecond : (wrap "ab cd ef".toList 5)[1]? = some "  ef".toList := by cbv
  obtain ⟨b, w, -, hw, hroom⟩ := hfull 0 _ _ hfirst hsecond
  exact ⟨hfirst, hsecond, ⟨b, w, hw, hroom⟩, by decide, hwide (by decide),
    hagain _ (List.mem_of_getElem? hsecond)⟩

/-- A long first word, and white space at the end, between a wide line and none at all. -/
example : wrap "abcdefghij  klm no ".toList 8 =
      ["abcdefghij".toList, "  klm no".toList] ∧
    wrap " ab  c ".toList 0 = [" ab".toList, "  c".toList] :=
  ⟨by cbv, by cbv⟩

end Bibliography.Text
