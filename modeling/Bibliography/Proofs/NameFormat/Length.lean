import Bibliography.Proofs.NameFormat.Grammar
import Bibliography.Proofs.Tex.Composition

set_option autoImplicit false

/-! # Lengths of printed names

The length of a tree is the sum of those of its parts, each scanned apart, while the length of its
text is that of one scan. A brace that is open where a part ends would make the difference: parts
that leave none open (`RichText.Piecewise`) have together the length of their text. Printed names
are such trees if no tie of the pattern stands inside a braced string of a group. For a tie is where
the text of a group is taken apart, and one in braces would leave a brace open.

So what follows a group, a tie after fewer than three units and a space after more, is chosen as if
the units of the text had been counted.

Main statement: `NameFormat.length_format_eq`.
-/

namespace Bibliography

open Tex
open NameFormat (isBrace)

/-! ## Trees -/

namespace RichText

/-- A tree of ties, rows and literals, each of which is balanced by itself. -/
inductive Piecewise : RichText → Prop where
  | null : Piecewise .null
  | tie : Piecewise .tie
  | lit {s : Text} (hs : isBalanced s = true) : Piecewise (.lit s)
  | row {ts : List RichText} (h : ∀ t ∈ ts, Piecewise t) : Piecewise (.row ts)

theorem inherited_piecewise : Inherited Piecewise := ⟨.null, .tie, .lit, .row⟩

theorem Piecewise.balanced {t : RichText} (h : t.Piecewise) : t.Balanced := by
  induction h with
  | null => exact inherited_balanced.null
  | tie => exact inherited_balanced.tie
  | lit hs => exact inherited_balanced.lit hs
  | row _ ih => exact inherited_balanced.row ih

/-- **A tree of balanced pieces is as long as its text.** -/
theorem Piecewise.length_eq {t : RichText} (h : t.Piecewise) :
    t.length = Tex.length (t.render .latex) := by
  induction h with
  | null => rfl
  | tie => decide
  | @lit s hs => exact congrArg Tex.length (List.flatMap_singleton' s).symm
  | @row ts h ih =>
    show lengths ts = Tex.length (renderAll .latex ts)
    induction ts with
    | nil => rfl
    | cons t ts ihrow =>
      rw [List.forall_mem_cons] at h ih
      have hdepth : depth (t.render .latex) = 0 := depth_of_isBalanced h.1.balanced
      calc lengths (t :: ts)
          = t.length + lengths ts := rfl
        _ = Tex.length (t.render .latex) + Tex.length (renderAll .latex ts) := by
          rw [ih.1, ihrow h.2 ih.2]
        _ = Tex.length (renderAll .latex (t :: ts)) := (Tex.length_append hdepth _).symm

end RichText

/-! ## Ties outside braces -/

/-- No tie of the text stands inside braces. -/
def TiesOutside (s : Text) : Prop := ∀ before after, s = before ++ '~' :: after → depth before = 0

/-- No tie stands inside a braced string of the group; the braces around a delimiter are none. -/
structure NameGroup.TiesOutside (g : NameGroup) : Prop where
  before : Bibliography.TiesOutside g.before
  delimiter : ∀ s ∈ g.delimiter, Bibliography.TiesOutside s
  after : Bibliography.TiesOutside g.after

/-- Where all ties stand outside braces, those outside braces are all ties. -/
theorem splitWhere_tie_eq {n : Nat} {s : Text} (hs : openAfter? n s = some 0)
    (hties : ∀ before after, s = before ++ '~' :: after → openAfter? n before = some 0) :
    Text.splitWhere (· == '~') s = splitAtLevel0From (· == '~') n s := by
  induction s generalizing n with
  | nil => rfl
  | cons c s ih =>
    obtain ⟨n', hlevel, hs', hopen⟩ := levelAfter_of_openAfter? hs
    have hrest : Text.splitWhere (· == '~') s = splitAtLevel0From (· == '~') n' s :=
      ih hs' fun before after heq => by
        rw [← hopen before]
        exact hties (c :: before) after (congrArg (c :: ·) heq)
    rw [Text.splitWhere, splitAtLevel0From, hlevel, hrest]
    cases splitAtLevel0From (· == '~') n' s with
    | nil => rfl
    | cons part parts =>
      by_cases hc : c = '~'
      · subst hc
        obtain rfl : n = 0 := Option.some.inj (hties [] s rfl)
        rfl
      · simp [hc]

/-- Between its ties outside braces a balanced text is balanced. -/
theorem TiesOutside.piecewise_ofTex {s : Text} (hties : TiesOutside s) (hs : isBalanced s = true) :
    (RichText.ofTex s).Piecewise := by
  have hopen := (isBalanced_iff s).1 hs
  have hsplit : Text.splitWhere (· == '~') s = splitAtLevel0 (· == '~') s := by
    refine splitWhere_tie_eq hopen fun before after heq => ?_
    obtain ⟨n, hn⟩ := exists_openAfter?_of_prefix ⟨'~' :: after, heq.symm⟩ hopen
    rw [hn, ← depth_eq hn, hties before after heq]
  rw [RichText.ofTex, hsplit]
  refine RichText.inherited_piecewise.seq_intersperse .tie
    (List.forall_mem_map.2 fun part hpart => ?_)
  exact RichText.inherited_piecewise.literal (isBalanced_of_mem_splitAtLevel0 hs hpart)

theorem NameGroup.TiesOutside.textsAre {g : NameGroup} (hties : g.TiesOutside) (hg : g.Balanced) :
    g.TextsAre RichText.Piecewise :=
  ⟨hties.before.piecewise_ofTex hg.before,
    fun s hs => (hties.delimiter s hs).piecewise_ofTex (hg.delimiter s hs),
    hties.after.piecewise_ofTex hg.after⟩

theorem tiesOutside_of_no_braces {s : Text} (hs : ∀ c ∈ s, isBrace c = false) : TiesOutside s := by
  rintro before after rfl
  have hbefore : isBalanced before = true :=
    isBalanced_of_no_braces fun c hc => hs c (List.mem_append_left _ hc)
  exact depth_of_isBalanced hbefore

/-! ## Ties of a pattern -/

namespace NameFormat

/-- A balanced text that stands inside a brace of a pattern. -/
theorem tiesOutside_of_pattern {a s b : Text} {n : Nat} (ha : openAfter? 0 a = some (n + 1))
    (hs : isBalanced s = true)
    (hties : ∀ before after, a ++ (s ++ b) = before ++ '~' :: after → depth before ≤ 1) :
    TiesOutside s := by
  rintro before after rfl
  obtain ⟨k, hk⟩ := exists_openAfter?_of_prefix (List.prefix_append before ('~' :: after))
    ((isBalanced_iff _).1 hs)
  have hopen : openAfter? 0 (a ++ before) = some (k + (n + 1)) := by
    rw [openAfter?_append, ha, Option.bind_some]
    simpa using openAfter?_add hk (n + 1)
  have hdepth := hties (a ++ before) (after ++ b) (by simp)
  rw [depth_eq hopen] at hdepth
  rw [depth_eq hk]
  omega

/-- A tie inside a braced string of a group has two braces open before it, so the pattern shows
whether there is one. -/
theorem GroupTree.Denotes.tiesOutside {t : GroupTree} {g : NameGroup} (hg : t.Denotes g)
    (ht : t.IsGrammatical) {a b : Text} (ha : isBalanced a = true)
    (hties : ∀ before after, a ++ ('{' :: (t.text ++ b)) = before ++ '~' :: after →
      depth before ≤ 1) : g.TiesOutside := by
  have hopen : ∀ {s : Text} {n : Nat}, openAfter? 1 s = some n →
      openAfter? 0 (a ++ '{' :: s) = some n := by
    intro s n hs
    rw [openAfter?_append, openAfter?_of_isBalanced ha, Option.bind_some, openAfter?_cons_open, hs]
  have hfirst : isBalanced (t.before ++ t.letters) = true :=
    isBalanced_append ht.before.isBalanced ht.isBalanced_letters
  refine ⟨?_, fun d hd => ?_, ?_⟩
  · rw [hg.before]
    refine tiesOutside_of_pattern (hopen (openAfter?_nil 1)) ht.before.isBalanced (b := t.letters ++
      (delimiterText t.delimiter ++ (t.after ++ b))) ?_
    simpa [GroupTree.text] using hties
  · rw [hg.delimiter] at hd
    have hd' : t.delimiter = some d := hd
    have hinside : openAfter? 1 (t.before ++ t.letters ++ ['{']) = some (1 + 1) := by
      rw [openAfter?_append, openAfter?_of_isBalanced hfirst]
      rfl
    refine tiesOutside_of_pattern (b := '}' :: (t.after ++ b)) (hopen hinside)
      (ht.delimiter d hd) ?_
    simpa [GroupTree.text, hd', delimiterText] using hties
  · obtain ⟨ties, hafter, -, -⟩ := hg.after
    have hbefore :=
      openAfter?_of_isBalanced (isBalanced_append hfirst ht.isBalanced_delimiterText) 1
    have hwhole : TiesOutside t.after := by
      refine tiesOutside_of_pattern (hopen hbefore) ht.after.isBalanced (b := b) ?_
      simpa [GroupTree.text] using hties
    intro before after heq
    refine hwhole before (after ++ List.replicate ties '~') ?_
    rw [hafter, heq, List.append_assoc, List.cons_append]

variable {pattern : Text} {f : NameFormat}

/-- An element of a format is denoted by a piece that stands in the pattern behind a balanced
text. -/
theorem exists_piece_of_mem (hf : ofPattern pattern = .ok f) {e : NameElement} (he : e ∈ f) :
    ∃ (piece : Piece) (a b : Text), piece.IsGrammatical ∧ piece.Denotes e ∧
      isBalanced a = true ∧ pattern = a ++ (piece.text ++ b) := by
  obtain ⟨row, hrow, hdenotes⟩ := Derives.exists_of_ofPattern hf
  obtain ⟨hgrammatical, rfl⟩ := hrow.pieces
  obtain ⟨f₁, f₂, rfl⟩ := List.append_of_mem he
  obtain ⟨piece, later, hpiece, -, hdrop⟩ :=
    List.forall₂_cons_right_iff.1 (List.forall₂_drop_append row f₁ (e :: f₂) hdenotes)
  have hsplit : row = row.take f₁.length ++ piece :: later := by
    rw [← hdrop, List.take_append_drop]
  refine ⟨piece, (row.take f₁.length).flatMap Piece.text, later.flatMap Piece.text,
    hgrammatical piece ?_, hpiece, ?_, ?_⟩
  · rw [hsplit]
    simp
  · exact isBalanced_flatMap fun q hq =>
      (hgrammatical q (List.mem_of_mem_take hq)).isBalanced_text
  · conv_lhs => rw [hsplit]
    rw [List.flatMap_append, List.flatMap_cons]

/-- What is read off the pattern: ties with at most one brace open before them are no ties in a
braced string of a group. -/
theorem tiesOutside_of_ofPattern (hf : ofPattern pattern = .ok f)
    (hties : ∀ before after, pattern = before ++ '~' :: after → depth before ≤ 1) {g : NameGroup}
    (hg : .group g ∈ f) : g.TiesOutside := by
  obtain ⟨piece, a, b, hpiece, hdenotes, ha, rfl⟩ := exists_piece_of_mem hf hg
  cases piece with
  | literal s => exact hdenotes.elim
  | group t =>
    refine GroupTree.Denotes.tiesOutside hdenotes hpiece ha (b := '}' :: b) ?_
    simpa [Piece.text] using hties

/-- The texts of an accepted pattern without ties in braced strings are taken apart where no brace
is open. -/
theorem textsAre_piecewise (hf : ofPattern pattern = .ok f)
    (hties : ∀ g, .group g ∈ f → g.TiesOutside) : ∀ e ∈ f, e.TextsAre RichText.Piecewise := by
  intro e he
  have hbalanced := balanced_of_ofPattern hf e he
  cases e with
  | literal s =>
    obtain ⟨piece, a, b, hpiece, hdenotes, -⟩ := exists_piece_of_mem hf he
    cases piece with
    | literal s' =>
      obtain rfl : s = s' := hdenotes
      exact (tiesOutside_of_no_braces hpiece).piecewise_ofTex hbalanced
    | group t => exact hdenotes.elim
  | group g => exact (hties g he).textsAre hbalanced

end NameFormat

/-! ## Printed names -/

def NameGroup.printed (g : NameGroup) (p : Person) : Text :=
  g.before ++ ((g.joined (g.words p)).render .latex ++ g.after)

/-- What follows the text that a group prints: a discretionary tie is a tie only behind a text that
is shorter than three units. -/
def NameGroup.tieText (g : NameGroup) (printed : Text) : Text :=
  match g.tie with
  | .absent => []
  | .discretionary => if Tex.length printed < 3 then ['~'] else [' ']
  | .forced => ['~']

theorem NameGroup.render_tieAfter (g : NameGroup) {t : RichText} (ht : t.Piecewise) :
    (g.tieAfter t).render .latex = g.tieText (t.render .latex) := by
  rw [NameGroup.tieAfter, NameGroup.tieText]
  cases g.tie with
  | absent => rfl
  | discretionary =>
    dsimp only
    rw [RichText.tieOrSpace, ht.length_eq]
    split <;> rfl
  | forced => rfl

theorem NameGroup.render_format {g : NameGroup} (hg : g.TextsAre RichText.Piecewise) {p : Person}
    (hp : p.Balanced) (hwords : g.words p ≠ []) :
    (g.format p).render .latex = g.printed p ++ g.tieText (g.printed p) := by
  have hbody := RichText.inherited_piecewise.body hg hp
  have hprinted : (RichText.seq [.ofTex g.before, g.joined (g.words p), .ofTex g.after]).render
      .latex = g.printed p := by
    rw [RichText.render_seq]
    simp only [List.flatMap_cons, List.flatMap_nil, List.append_nil, RichText.render_latex_ofTex]
    rfl
  unfold NameGroup.format
  split
  · next hnil => exact absurd hnil hwords
  · rw [RichText.render_seq]
    simp only [List.flatMap_cons, List.flatMap_nil, List.append_nil]
    rw [g.render_tieAfter hbody, hprinted]

/-- **Printed names are as long as their texts.** A tree of balanced literals, ties and rows is as
long as its text. Such a tree is what an accepted pattern prints for a person with balanced words if
no tie of the pattern stands in a braced string of a group, and then the tie or space behind each
group is chosen by the length of the text before it. -/
theorem NameFormat.length_format_eq {pattern : Text} {f : NameFormat}
    (hf : ofPattern pattern = .ok f) :
    (∀ t : RichText, t.Piecewise → t.length = Tex.length (t.render .latex)) ∧
    ((∀ before after, pattern = before ++ '~' :: after → depth before ≤ 1) →
      ∀ g, .group g ∈ f → g.TiesOutside) ∧
    ((∀ g, .group g ∈ f → g.TiesOutside) → ∀ p : Person, p.Balanced →
      (f.format p).length = Tex.length (f.formatLatex p) ∧
      ∀ g, .group g ∈ f → g.words p ≠ [] →
        (g.format p).render .latex = g.printed p ++ g.tieText (g.printed p)) := by
  refine ⟨fun t => RichText.Piecewise.length_eq, fun hties g => tiesOutside_of_ofPattern hf hties,
    fun hties p hp => ⟨?_, fun g hg hwords => ?_⟩⟩
  · have htexts := textsAre_piecewise hf hties
    exact (RichText.inherited_piecewise.format htexts hp).length_eq
  · exact NameGroup.render_format (textsAre_piecewise hf hties _ hg) hp hwords

/-- The pattern `{f.~}{ll}`: an initial, if it is short, is tied to the last name. -/
def initialAndLast : NameFormat :=
  [.group ⟨[], .given, true, none, ['.'], .discretionary⟩,
    .group ⟨[], .last, false, none, [], .absent⟩]

/-- A special character is one unit, so the initial of an accented name is tied. -/
theorem NameFormat.length_format_eq_zola :
    ofPattern "\x7bf.~\x7d\x7bll\x7d".toList = .ok initialAndLast ∧
      initialAndLast.formatLatex ⟨["\x7b\\'E\x7dmile".toList], [], [], ["Zola".toList], []⟩ =
        "\x7b\\'E\x7d.~Zola".toList ∧
      (initialAndLast.format
        ⟨["\x7b\\'E\x7dmile".toList], [], [], ["Zola".toList], []⟩).length = 7 := by
  have hgiven : takeGroup "f.~\x7d\x7bll\x7d".toList =
      .ok (⟨[], .given, true, none, ['.'], .discretionary⟩, "\x7bll\x7d".toList) := rfl
  have hlast : takeGroup "ll\x7d".toList = .ok (⟨[], .last, false, none, [], .absent⟩, []) := rfl
  have hf : ofPattern "\x7bf.~\x7d\x7bll\x7d".toList = .ok initialAndLast := by
    have hrest : ofPattern "\x7bll\x7d".toList = (_ :: ·) <$> ofPattern [] :=
      ofPattern_group hlast
    rw [ofPattern] at hrest
    exact (ofPattern_group hgiven).trans (congrArg _ hrest)
  have hties : ∀ g, .group g ∈ initialAndLast → g.TiesOutside := by
    intro g hg
    simp only [initialAndLast, List.mem_cons, NameElement.group.injEq, List.not_mem_nil,
      or_false] at hg
    rcases hg with rfl | rfl
    all_goals
      exact ⟨tiesOutside_of_no_braces (isBrace_eq_false_of_all rfl), by rintro d ⟨⟩,
        tiesOutside_of_no_braces (isBrace_eq_false_of_all rfl)⟩
  have hlatex : initialAndLast.formatLatex
      ⟨["\x7b\\'E\x7dmile".toList], [], [], ["Zola".toList], []⟩ =
        "\x7b\\'E\x7d.~Zola".toList := by decide
  refine ⟨hf, hlatex, ?_⟩
  rw [((length_format_eq hf).2.2 hties _ (by unfold Person.Balanced; decide)).1, hlatex]
  decide

end Bibliography
