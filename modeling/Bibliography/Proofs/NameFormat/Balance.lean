import Bibliography.NameFormat.Layout
import Bibliography.Proofs.RichText.Rendering
import Bibliography.Proofs.Tex.Splitting
import Bibliography.Style.Functions

set_option autoImplicit false

/-! # Printed names are balanced

A pattern that is accepted takes braces in pairs only: literals have none, and what stands before a
part, between its words and behind it closes all braces that it opens. What is printed is made of
these texts, of words of the name, and of ties and spaces, so a balanced name is printed as a
balanced text whatever the pattern. That a property goes from the parts to what is printed is shown
once, for every property that rows of trees inherit (`RichText.Inherited`).

Main statement: `Style.isBalanced_formatName`.
-/

namespace Bibliography

open Tex
open NameFormat (isBrace)

/-! ## What holds of a tree by its parts -/

namespace RichText

theorem mem_joinRest {tie space t : RichText} {words : List RichText}
    (h : t ∈ joinRest tie space words) : t = tie ∨ t = space ∨ t ∈ words := by
  fun_induction joinRest tie space words with
  | case1 => cases h
  | case2 word =>
    simp only [List.mem_cons, List.not_mem_nil, or_false] at h ⊢
    exact h.imp_right Or.inr
  | case3 word words hne ih =>
    simp only [List.mem_cons] at h ⊢
    rcases h with rfl | rfl | h
    · exact Or.inr (Or.inl rfl)
    · exact Or.inr (Or.inr (Or.inl rfl))
    · exact (ih h).imp_right (Or.imp_right Or.inr)

theorem of_tieOrSpace {P : RichText → Prop} {word tie space : RichText} (htie : P tie)
    (hspace : P space) : P (tieOrSpace word tie space) := by
  rw [tieOrSpace]
  split
  · exact htie
  · exact hspace

/-- A property of ties and of literals with balanced texts that goes over to rows of trees. -/
structure Inherited (P : RichText → Prop) : Prop where
  null : P .null
  tie : P .tie
  lit {s : Text} (hs : isBalanced s = true) : P (.lit s)
  row {ts : List RichText} (h : ∀ t ∈ ts, P t) : P (.row ts)

namespace Inherited

variable {P : RichText → Prop} (hP : Inherited P)
include hP

theorem literal {s : Text} (hs : isBalanced s = true) : P (literal s) := by
  rw [RichText.literal]
  split
  · exact hP.null
  · exact hP.lit hs

theorem seq {ts : List RichText} (h : ∀ t ∈ ts, P t) : P (seq ts) := by
  rw [RichText.seq]
  split
  · exact hP.null
  · exact hP.row fun t ht => h t (List.mem_filter.1 ht).1

theorem seq_intersperse {separator : RichText} {parts : List RichText} (hseparator : P separator)
    (hparts : ∀ t ∈ parts, P t) : P (RichText.seq (intersperse separator parts)) := by
  refine hP.seq fun t ht => ?_
  rcases mem_intersperse ht with rfl | ht
  · exact hseparator
  · exact hparts t ht

theorem joinWords {words : List RichText} {tie space : RichText} (hwords : ∀ w ∈ words, P w)
    (htie : P tie) (hspace : P space) : P (joinWords words tie space) := by
  unfold RichText.joinWords
  split
  · next first second third rest =>
    simp only [List.forall_mem_cons] at hwords
    obtain ⟨hfirst, hsecond, hrest⟩ := hwords
    refine hP.seq fun t ht => ?_
    simp only [List.mem_cons] at ht
    rcases ht with rfl | rfl | rfl | ht
    · exact hfirst
    · exact of_tieOrSpace htie hspace
    · exact hsecond
    · rcases mem_joinRest ht with rfl | rfl | ht
      · exact htie
      · exact hspace
      · exact List.forall_mem_cons.2 hrest t ht
  · exact hP.seq_intersperse htie hwords

end Inherited

def Balanced (t : RichText) : Prop := isBalanced (t.render .latex) = true

theorem inherited_balanced : Inherited Balanced where
  null := rfl
  tie := rfl
  lit {s} hs := by
    rw [Balanced, render]
    exact (congrArg isBalanced (List.flatMap_singleton' s)).trans hs
  row {ts} h := by
    rw [Balanced, render, renderAll_eq]
    exact isBalanced_flatMap h

theorem balanced_ofTex {s : Text} (hs : isBalanced s = true) : (ofTex s).Balanced := by
  rw [Balanced, render_latex_ofTex, hs]

end RichText

/-! ## Patterns -/

structure NameGroup.Balanced (g : NameGroup) : Prop where
  before : isBalanced g.before = true
  delimiter : ∀ s ∈ g.delimiter, isBalanced s = true
  after : isBalanced g.after = true

/-- An element whose texts are balanced. -/
def NameElement.Balanced : NameElement → Prop
  | .literal s => isBalanced s = true
  | .group g => g.Balanced

namespace NameFormat

/-- Unless it closes a brace that is not open, a character changes the number of open braces as
reading a group counts it, whether or not the braces of the group itself are counted. -/
theorem openAfter?_cons_of (level : Nat) (c : Char) (h : c = '}' → level ≠ 0) (s : Text) :
    openAfter? level (c :: s) = openAfter? (openAfter level c) s ∧
      openAfter (level + 1) c = openAfter level c + 1 := by
  rw [openAfter?, openAfter, openAfter]
  split
  · exact ⟨rfl, rfl⟩
  · split
    · next hc =>
      have := h hc
      exact ⟨if_neg this, by omega⟩
    · exact ⟨rfl, rfl⟩

/-- A braced string ends with its brace, before which all braces inside are closed. -/
theorem closes_of_takeBraced {level : Nat} {s taken rest : Text}
    (h : takeBraced (level + 1) s = .ok (taken, rest)) :
    ∃ inside, taken = inside ++ ['}'] ∧ openAfter? level inside = some 0 := by
  induction s generalizing level taken with
  | nil => cases h
  | cons c s ih =>
    rw [takeBraced] at h
    split at h
    · next hclose =>
      cases h
      obtain rfl : level = 0 := by omega
      exact ⟨[], by rw [hclose.1]; rfl, rfl⟩
    · next hclose =>
      -- the reader counts the brace of the string itself, `openAfter?` does not
      have hopen := openAfter?_cons_of level c fun hc hlevel => hclose ⟨hc, by omega⟩
      split at h
      · cases h
      · next taken rest heq =>
        cases h
        rw [(hopen []).2] at heq
        obtain ⟨inside, rfl, hinside⟩ := ih heq
        exact ⟨c :: inside, rfl, by rw [(hopen inside).1, hinside]⟩

/-- Text taken without its letters closes the braces that it opens. -/
theorem closes_of_takeVerbatim {level : Nat} {s taken rest : Text}
    (h : takeVerbatim level s = .ok (taken, rest)) : openAfter? level taken = some 0 := by
  induction s generalizing level taken with
  | nil =>
    rw [takeVerbatim] at h
    split at h
    · next hlevel =>
      cases h
      rw [hlevel, openAfter?_nil]
    · cases h
  | cons c s ih =>
    rw [takeVerbatim] at h
    split at h
    · next hstop =>
      cases h
      rw [hstop.1, openAfter?_nil]
    · next hstop =>
      have hopen := openAfter?_cons_of level c fun hc hlevel => hstop ⟨hlevel, Or.inl hc⟩
      split at h
      · cases h
      · next taken rest heq =>
        cases h
        rw [(hopen taken).1, ih heq]

theorem isBalanced_of_takeVerbatim {s taken rest : Text}
    (h : takeVerbatim 0 s = .ok (taken, rest)) : isBalanced taken = true :=
  (isBalanced_iff taken).2 (closes_of_takeVerbatim h)

theorem isBalanced_of_takeDelimiter {s delimiter rest : Text}
    (h : takeDelimiter s = .ok (some delimiter, rest)) : isBalanced delimiter = true := by
  unfold takeDelimiter at h
  split at h
  · split at h
    · cases h
    · next taken rest heq =>
      have htaken : takeBraced (0 + 1) _ = .ok (taken, rest) := heq
      obtain ⟨inside, rfl, hinside⟩ := closes_of_takeBraced htaken
      cases h
      rw [List.dropLast_concat]
      exact (isBalanced_iff inside).2 hinside
  · cases h

/-- A text without the ties at its end, of which none is left. -/
theorem exists_of_trailingTies (s : Text) :
    ∃ body, s = body ++ List.replicate (trailingTies s) '~' ∧ body.getLast? ≠ some '~' ∧
      s.take (s.length - trailingTies s) = body := by
  have hties : (s.reverse.takeWhile (· == '~')).reverse = List.replicate (trailingTies s) '~' := by
    refine List.eq_replicate_iff.2 ⟨List.length_reverse, fun c hc => ?_⟩
    exact eq_of_beq (List.all_eq_true.1 List.all_takeWhile c (List.mem_reverse.1 hc))
  have hsplit : (s.reverse.dropWhile (· == '~')).reverse ++ List.replicate (trailingTies s) '~' =
      s := by
    rw [← hties, ← List.reverse_append, List.takeWhile_append_dropWhile, List.reverse_reverse]
  generalize hbody : (s.reverse.dropWhile (· == '~')).reverse = body at hsplit
  refine ⟨body, hsplit.symm, fun hlast => ?_, ?_⟩
  · rw [← hbody, List.getLast?_reverse] at hlast
    cases Text.eq_false_of_mem_head?_dropWhile hlast
  · calc s.take (s.length - trailingTies s)
        = (body ++ List.replicate (trailingTies s) '~').take
            ((body ++ List.replicate (trailingTies s) '~').length - trailingTies s) := by
          rw [hsplit]
      _ = body := by
          rw [List.length_append, List.length_replicate, Nat.add_sub_cancel, List.take_left]

/-- The ties at the end of a balanced text can be left out. -/
theorem isBalanced_take_trailingTies {s : Text} (hs : isBalanced s = true) :
    isBalanced (s.take (s.length - trailingTies s)) = true := by
  obtain ⟨body, hsplit, -, hbody⟩ := exists_of_trailingTies s
  have hfilter : (List.replicate (trailingTies s) '~').filter isBrace = [] := by
    refine List.filter_eq_nil_iff.2 fun c hc => ?_
    rw [List.eq_of_mem_replicate hc]
    decide
  rw [hbody, isBalanced_congr (t := s), hs]
  rw [hsplit, List.filter_append, hfilter, List.append_nil]

/-- **The texts of a group that is accepted are balanced.** -/
theorem balanced_of_takeGroup {s rest : Text} {g : NameGroup} (h : takeGroup s = .ok (g, rest)) :
    g.Balanced := by
  obtain ⟨letters, delimited, after, hbefore, -, hdelimiter, hafter, htaken, -⟩ :=
    exists_of_takeGroup h
  refine ⟨isBalanced_of_takeVerbatim hbefore, fun d hd => ?_, ?_⟩
  · rw [Option.mem_def] at hd
    rw [hd] at hdelimiter
    exact isBalanced_of_takeDelimiter hdelimiter
  · rw [htaken]
    exact isBalanced_take_trailingTies (isBalanced_of_takeVerbatim hafter)

theorem eq_cons_of_map_eq_ok {e : NameElement} {x : Except PatternFault NameFormat}
    {f : NameFormat} (h : (e :: ·) <$> x = .ok f) : ∃ rest, x = .ok rest ∧ f = e :: rest := by
  cases x with
  | error fault => cases h
  | ok rest =>
    cases h
    exact ⟨rest, rfl, rfl⟩

/-- **The texts of a pattern that is accepted are balanced.** -/
theorem balanced_of_ofPattern {pattern : Text} {f : NameFormat} (h : ofPattern pattern = .ok f) :
    ∀ e ∈ f, e.Balanced := by
  -- a pattern goes on with a group, or with a literal up to the next brace
  fun_induction ofPattern pattern generalizing f with
  | case1 =>
    cases h
    exact List.forall_mem_nil _
  | case2 rest e heq => cases h
  | case3 rest g after heq ih =>
    obtain ⟨f, hf, rfl⟩ := eq_cons_of_map_eq_ok h
    exact List.forall_mem_cons.2 ⟨balanced_of_takeGroup heq, ih hf⟩
  | case4 => cases h
  | case5 c rest hopen hclose ih =>
    obtain ⟨f, hf, rfl⟩ := eq_cons_of_map_eq_ok h
    refine List.forall_mem_cons.2 ⟨isBalanced_of_no_braces fun d hd => ?_, ih hf⟩
    rcases List.mem_cons.1 hd with rfl | hd
    · simp [isBrace, hopen, hclose]
    · simpa using List.all_eq_true.1 List.all_takeWhile d hd

end NameFormat

/-! ## Printing -/

/-- The words of a group are words of the person. -/
theorem NameGroup.words_subset (g : NameGroup) (p : Person) : g.words p ⊆ p.allWords := by
  intro w hw
  rw [NameGroup.words] at hw
  simp only [Person.allWords, List.mem_append]
  split at hw
  · rcases List.mem_append.1 hw with hw | hw <;> simp [hw]
  all_goals simp [hw]

/-- A group whose texts, as trees, have a property. -/
structure NameGroup.TextsAre (P : RichText → Prop) (g : NameGroup) : Prop where
  before : P (.ofTex g.before)
  delimiter : ∀ s ∈ g.delimiter, P (.ofTex s)
  after : P (.ofTex g.after)

/-- An element whose texts, as trees, have a property. -/
def NameElement.TextsAre (P : RichText → Prop) : NameElement → Prop
  | .literal s => P (.ofTex s)
  | .group g => g.TextsAre P

namespace RichText.Inherited

variable {P : RichText → Prop} (hP : Inherited P)
include hP

theorem joined {g : NameGroup} (hg : g.TextsAre P) {words : List Text}
    (hwords : ∀ w ∈ words, isBalanced w = true) : P (g.joined words) := by
  have hprinted : ∀ t ∈ words.map fun w =>
      RichText.literal (if g.abbreviated then abbreviate w else w), P t := by
    refine List.forall_mem_map.2 fun w hw => hP.literal ?_
    split
    · exact isBalanced_abbreviate (hwords w hw)
    · exact hwords w hw
  rw [NameGroup.joined]
  generalize (words.map fun w => RichText.literal (if g.abbreviated then abbreviate w else w)) = ts
    at hprinted ⊢
  split
  · next delimiter hdelimiter => exact hP.seq_intersperse (hg.delimiter _ hdelimiter) hprinted
  · split
    · have hperiod : P (RichText.seq [RichText.literal ['.'], RichText.tie]) :=
        hP.seq (List.forall_mem_cons.2
          ⟨hP.literal (by decide), List.forall_mem_singleton.2 hP.tie⟩)
      exact hP.joinWords hprinted hperiod (hP.literal (by decide))
    · exact hP.joinWords hprinted hP.tie (hP.literal (by decide))

theorem tieAfter (g : NameGroup) (t : RichText) : P (g.tieAfter t) := by
  rw [NameGroup.tieAfter]
  split
  · exact hP.null
  · exact of_tieOrSpace hP.tie (hP.literal (by decide))
  · exact hP.tie

theorem body {g : NameGroup} (hg : g.TextsAre P) {p : Person} (hp : p.Balanced) :
    P (RichText.seq [.ofTex g.before, g.joined (g.words p), .ofTex g.after]) := by
  have hwords : ∀ w ∈ g.words p, isBalanced w = true := fun w hw => hp w (g.words_subset p hw)
  exact hP.seq (List.forall_mem_cons.2 ⟨hg.before, List.forall_mem_cons.2
    ⟨hP.joined hg hwords, List.forall_mem_singleton.2 hg.after⟩⟩)

theorem formatGroup {g : NameGroup} (hg : g.TextsAre P) {p : Person} (hp : p.Balanced) :
    P (g.format p) := by
  unfold NameGroup.format
  split
  · exact hP.null
  · exact hP.seq (List.forall_mem_cons.2
      ⟨hP.body hg hp, List.forall_mem_singleton.2 (hP.tieAfter g _)⟩)

/-- **What is inherited holds of a printed name if it holds of the texts of the format.** -/
theorem format {f : NameFormat} (hf : ∀ e ∈ f, e.TextsAre P) {p : Person} (hp : p.Balanced) :
    P (f.format p) := by
  refine hP.seq (List.forall_mem_map.2 fun e he => ?_)
  cases e with
  | literal s => exact hf _ he
  | group g => exact hP.formatGroup (hf _ he) hp

end RichText.Inherited

theorem NameElement.Balanced.textsAre {e : NameElement} (he : e.Balanced) :
    e.TextsAre RichText.Balanced := by
  cases e with
  | literal s => exact RichText.balanced_ofTex he
  | group g =>
    exact ⟨RichText.balanced_ofTex he.before,
      fun s hs => RichText.balanced_ofTex (he.delimiter s hs), RichText.balanced_ofTex he.after⟩

theorem NameFormat.isBalanced_formatLatex {f : NameFormat} (hf : ∀ e ∈ f, e.Balanced) {p : Person}
    (hp : p.Balanced) : isBalanced (f.formatLatex p) = true :=
  RichText.inherited_balanced.format (fun e he => (hf e he).textsAre) hp

/-- **A balanced name is printed as a balanced text, whatever the pattern.** -/
theorem Style.isBalanced_formatName {name pattern printed : Text} (hname : isBalanced name = true)
    (h : Style.formatName name pattern = .ok printed) : isBalanced printed = true := by
  rw [Style.formatName, Person.read] at h
  cases hp : Person.ofText? name with
  | none =>
    rw [hp] at h
    cases h
  | some p =>
    cases hf : NameFormat.ofPattern pattern with
    | error fault =>
      rw [hp, hf] at h
      cases h
    | ok f =>
      rw [hp, hf] at h
      cases h
      exact f.isBalanced_formatLatex (NameFormat.balanced_of_ofPattern hf)
        (Person.balanced_of_ofText? hname hp)

end Bibliography
