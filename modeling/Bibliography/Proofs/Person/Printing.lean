import Bibliography.Proofs.Tex.Parts

set_option autoImplicit false

/-! # Names that are written and read again

A name is written with commas, but with no more of them than its parts ask for, so it may be read
again in another of the three forms than the one it came in. What it is read as depends on the words
of its segments alone (`ofText?_eq_ofWords?`), and the words of a person that was read are found
again (`ofText?_toText_of_isWord`). With a comma, reading them arranges them as they were
(`Arranged`). Without one the whole name is read as `First von Last`, which leaves all its words in
the last name only if it is one word or starts with a small one.

Main statement: `ofText?_toText_eq_some_iff`.
-/

namespace Bibliography.Person

open Tex

/-! ## Names by their words -/

/-- The person of a name whose segments have the given words. -/
def ofWords? : List (List Text) → Option Person
  | [whole] => some (ofFirstVonLast whole)
  | [vonLast, first] => some (withFirst first (ofVonLast vonLast))
  | [vonLast, lineage, first] =>
    some (withFirst first { ofVonLast vonLast with lineage := lineage })
  | _ => none

/-- A name is read by the words of its segments, white space around it left out. -/
theorem ofText?_eq_ofWords?_splitSegments (name : Text) :
    ofText? name = ofWords? ((Tex.splitSegments name.trim).map splitWords) := by
  rw [ofText?]
  dsimp only
  split
  · next hempty =>
    -- an empty name has one segment, without words
    rw [hempty]
    rfl
  · rcases splitSegments name.trim with _ | ⟨_, _ | ⟨_, _ | ⟨_, _ | ⟨_, _⟩⟩⟩⟩ <;> rfl

/-- **A balanced name is read by the words of its segments.** -/
theorem ofText?_eq_ofWords? {name : Text} (hname : isBalanced name = true) :
    ofText? name = ofWords? (segmentWords name) := by
  rw [← segmentWords_trim hname, ← map_splitWords_splitSegments (isBalanced_trim hname),
    ofText?_eq_ofWords?_splitSegments]

def segments (p : Person) : List (List Text) :=
  (p.prelast ++ p.last) ::
    if p.lineage ≠ [] then [p.lineage, p.givenNames]
    else if p.givenNames ≠ [] then [p.givenNames]
    else []

theorem mem_allWords_of_mem_segments {p : Person} {words : List Text} {w : Text}
    (hwords : words ∈ p.segments) (hw : w ∈ words) : w ∈ p.allWords := by
  have hparts : words = p.prelast ++ p.last ∨ words = p.lineage ∨ words = p.givenNames := by
    rcases List.mem_cons.1 hwords with hwords | hwords
    · exact Or.inl hwords
    · split at hwords
      · simpa using Or.inr hwords
      · split at hwords
        · simpa using Or.inr (Or.inr hwords)
        · cases hwords
  rcases hparts with rfl | rfl | rfl
  · simp only [allWords, List.mem_append] at hw ⊢
    tauto
  · exact List.mem_append_right _ hw
  · simp only [allWords, givenNames, List.mem_append] at hw ⊢
    tauto

theorem joinWords_eq_nil_iff {words : List Text} (h : ∀ w ∈ words, w ≠ []) :
    joinWords words = [] ↔ words = [] := by
  cases words with
  | nil => simp [joinWords, Text.join]
  | cons w words =>
    have hw := h w List.mem_cons_self
    cases words <;> simp [joinWords, Text.join, hw]

theorem toText_eq_join {p : Person} (h : ∀ w ∈ p.allWords, w ≠ []) :
    p.toText = Text.join ", ".toList (p.segments.map joinWords) := by
  have hgiven : joinWords p.givenNames = [] ↔ p.givenNames = [] :=
    joinWords_eq_nil_iff fun w hw => h w (by
      rcases List.mem_append.1 hw with hw | hw <;> simp [allWords, hw])
  rw [toText, segments, List.map_cons]
  simp only [ne_eq, hgiven]
  split
  · rfl
  · split <;> rfl

/-- **What is written of words is read by them.** -/
theorem ofText?_toText_of_isWord {p : Person} (h : ∀ w ∈ p.allWords, IsWord w) :
    ofText? p.toText = ofWords? p.segments := by
  have hsegments : ∀ words ∈ p.segments, ∀ w ∈ words, IsWord w := fun words hwords w hw =>
    h w (mem_allWords_of_mem_segments hwords hw)
  have hbalanced : isBalanced p.toText = true := Balanced.toText fun w hw => (h w hw).balanced
  have hjoined : ∀ s ∈ p.segments.map joinWords,
      isBalanced s = true ∧ OnlyInBraces (· == ',') 0 s := by
    intro s hs
    obtain ⟨words, hwords, rfl⟩ := List.mem_map.1 hs
    have hwords := hsegments words hwords
    exact ⟨isBalanced_join (by decide) fun w hw => (hwords w hw).balanced,
      onlyInBraces_join (by decide)
        (onlyInBraces_of_no_separator (List.forall_mem_singleton.2 rfl) 0)
        (fun w hw => (hwords w hw).balanced) fun w hw => (hwords w hw).commas⟩
  rw [ofText?_eq_ofWords? hbalanced, toText_eq_join fun w hw => (h w hw).ne_nil,
    segmentWords_join (by simp [segments]) hjoined, List.map_map]
  congr 1
  calc p.segments.map (splitWords ∘ joinWords)
      = p.segments.map id :=
        List.map_congr_left fun words hwords => splitWords_join (hsegments words hwords)
    _ = p.segments := List.map_id _

/-! ## How words are arranged -/

theorem append_splitAfterLast (q : Text → Bool) (words : List Text) :
    (splitAfterLast q words).1 ++ (splitAfterLast q words).2 = words := by
  rw [splitAfterLast, ← List.reverse_append, List.takeWhile_append_dropWhile, List.reverse_reverse]

theorem ofVonLast_concat (init : List Text) (final : Text) :
    ofVonLast (init ++ [final]) = withLast init final {} := by
  simp [ofVonLast]

theorem ofFirstVonLast_concat (init : List Text) (final : Text) :
    ofFirstVonLast (init ++ [final]) =
      withFirst (init.takeWhile (!isSmallWord ·))
        (withLast (init.dropWhile (!isSmallWord ·)) final {}) := by
  simp [ofFirstVonLast]

theorem prelast_append_last_withLast (init : List Text) (final : Text) :
    (withLast init final {}).prelast ++ (withLast init final {}).last = init ++ [final] := by
  rw [withLast]
  dsimp only
  rw [← List.append_assoc, append_splitAfterLast]

/-- A person whose parts are those of its words: reading the small words with the last name gives
them again, and the first name is one word if there are given names at all. -/
structure Arranged (p : Person) : Prop where
  vonLast : ofVonLast (p.prelast ++ p.last) = { prelast := p.prelast, last := p.last }
  first : p.givenNames.take 1 = p.first
  middle : p.givenNames.drop 1 = p.middle

theorem Arranged.withFirst_lineage {p : Person}
    (hp : ofVonLast (p.prelast ++ p.last) = { prelast := p.prelast, last := p.last })
    (words lineage : List Text) : (withFirst words { p with lineage := lineage }).Arranged := by
  have hgiven : (withFirst words { p with lineage := lineage }).givenNames = words :=
    List.take_append_drop 1 words
  exact { vonLast := hp, first := by rw [hgiven]; rfl, middle := by rw [hgiven]; rfl }

theorem ofVonLast_of_withLast (init : List Text) (final : Text) :
    ofVonLast ((withLast init final {}).prelast ++ (withLast init final {}).last) =
      { prelast := (withLast init final {}).prelast, last := (withLast init final {}).last } := by
  rw [prelast_append_last_withLast, ofVonLast_concat]
  rfl

theorem ofVonLast_of_ofVonLast (words : List Text) :
    ofVonLast ((ofVonLast words).prelast ++ (ofVonLast words).last) =
      { prelast := (ofVonLast words).prelast, last := (ofVonLast words).last } := by
  rcases List.eq_nil_or_concat' words with rfl | ⟨init, final, rfl⟩
  · rfl
  · rw [ofVonLast_concat]
    exact ofVonLast_of_withLast init final

theorem arranged_ofFirstVonLast (words : List Text) : (ofFirstVonLast words).Arranged := by
  rcases List.eq_nil_or_concat' words with rfl | ⟨init, final, rfl⟩
  · exact { vonLast := rfl, first := rfl, middle := rfl }
  · rw [ofFirstVonLast_concat]
    exact Arranged.withFirst_lineage (ofVonLast_of_withLast _ final) _ []

/-- **Whatever form a name has, its person is arranged.** -/
theorem arranged_of_ofWords? {names : List (List Text)} {p : Person}
    (h : ofWords? names = some p) : p.Arranged := by
  unfold ofWords? at h
  split at h
  · next whole => exact Option.some.inj h ▸ arranged_ofFirstVonLast whole
  · next vonLast first =>
    obtain rfl := Option.some.inj h
    exact Arranged.withFirst_lineage (ofVonLast_of_ofVonLast vonLast) first
      (ofVonLast vonLast).lineage
  · next vonLast lineage first =>
    obtain rfl := Option.some.inj h
    exact Arranged.withFirst_lineage (ofVonLast_of_ofVonLast vonLast) first lineage
  · cases h

/-- With commas the words are arranged as they were. -/
theorem Arranged.withFirst_ofVonLast {p : Person} (hp : p.Arranged) :
    withFirst p.givenNames { ofVonLast (p.prelast ++ p.last) with lineage := p.lineage } = p := by
  rw [hp.vonLast, withFirst, hp.first, hp.middle]

/-! ## Names without a comma -/

/-- Several words that are all in the last name, the first of them being no small one: only a comma
behind them would keep it there. -/
def NeedsTrailingComma (p : Person) : Prop :=
  p.first = [] ∧ p.middle = [] ∧ p.lineage = [] ∧
    ∃ w w' words, p.prelast ++ p.last = w :: w' :: words ∧ isSmallWord w = false

/-- The words of a name are arranged with and without a comma alike if it has one word or starts
with a small one. -/
theorem ofFirstVonLast_eq_ofVonLast_iff (words : List Text) :
    ofFirstVonLast words = ofVonLast words ↔
      ¬ ∃ w w' rest, words = w :: w' :: rest ∧ isSmallWord w = false := by
  rcases List.eq_nil_or_concat' words with rfl | ⟨init, final, rfl⟩
  · simp [ofFirstVonLast, ofVonLast]
  · rw [ofFirstVonLast_concat, ofVonLast_concat]
    cases init with
    | nil => simp [withFirst, withLast]
    | cons w init =>
      cases hw : isSmallWord w with
      | true =>
        refine iff_of_true (by simp [hw, withFirst, withLast]) ?_
        rintro ⟨v, w', rest, heq, hv⟩
        obtain ⟨rfl, -⟩ := List.cons.inj heq
        exact Bool.false_ne_true (hv.symm.trans hw)
      | false =>
        refine iff_of_false (fun heq => ?_) (not_not_intro ?_)
        · -- the first word becomes a first name
          have hfirst := congrArg Person.first heq
          simp [hw, withFirst, withLast] at hfirst
        · obtain ⟨w', rest, hrest⟩ :=
            List.exists_cons_of_ne_nil (l := init ++ [final]) (by simp)
          exact ⟨w, w', rest, congrArg (w :: ·) hrest, hw⟩

/-- A name that was read without a comma needs none behind it. -/
theorem not_needsTrailingComma_ofFirstVonLast (words : List Text) :
    ¬ (ofFirstVonLast words).NeedsTrailingComma := by
  rcases List.eq_nil_or_concat' words with rfl | ⟨init, final, rfl⟩
  · rintro ⟨-, -, -, _, _, _, hnil, -⟩
    cases hnil
  · intro hneeds
    have hnone : init.takeWhile (!isSmallWord ·) = [] := by
      have hfirst := hneeds.1
      rw [ofFirstVonLast_concat] at hfirst
      simpa only [withFirst, List.take_eq_nil_iff, Nat.one_ne_zero, false_or] using hfirst
    have hall : init.dropWhile (!isSmallWord ·) = init := by
      have happend := List.takeWhile_append_dropWhile (p := (!isSmallWord ·)) (l := init)
      rwa [hnone, List.nil_append] at happend
    -- there is no first name, so the words are arranged as before a comma
    have halike : ofFirstVonLast (init ++ [final]) = ofVonLast (init ++ [final]) := by
      rw [ofFirstVonLast_concat, ofVonLast_concat, hnone, hall]
      rfl
    obtain ⟨-, -, -, hwords⟩ := hneeds
    rw [halike, ofVonLast_concat, prelast_append_last_withLast] at hwords
    exact (ofFirstVonLast_eq_ofVonLast_iff _).1 halike hwords

/-! ## Reading again -/

/-- With a comma between its words a person is read as it was. -/
theorem ofWords?_segments_of_comma {p : Person} (hp : p.Arranged)
    (hcomma : p.lineage ≠ [] ∨ p.givenNames ≠ []) : ofWords? p.segments = some p := by
  by_cases hlineage : p.lineage = []
  · have hgiven := hcomma.resolve_left (not_not_intro hlineage)
    have hread := hp.withFirst_ofVonLast
    rw [hlineage, hp.vonLast] at hread
    rw [segments, if_neg (not_not_intro hlineage), if_pos hgiven, ofWords?, hp.vonLast]
    exact congrArg some hread
  · rw [segments, if_pos hlineage, ofWords?]
    exact congrArg some hp.withFirst_ofVonLast

/-- Without a comma the words are read as a whole name. -/
theorem ofWords?_segments_of_no_comma {p : Person} (hlineage : p.lineage = [])
    (hgiven : p.givenNames = []) :
    ofWords? p.segments = some (ofFirstVonLast (p.prelast ++ p.last)) := by
  rw [segments, if_neg (not_not_intro hlineage), if_neg (not_not_intro hgiven), ofWords?]

theorem Arranged.ofVonLast_eq {p : Person} (hp : p.Arranged) (hlineage : p.lineage = [])
    (hgiven : p.givenNames = []) : ofVonLast (p.prelast ++ p.last) = p := by
  obtain ⟨hfirst, hmiddle⟩ := List.append_eq_nil_iff.1 hgiven
  rw [hp.vonLast]
  cases p
  simp_all

/-- **An arranged person is written so that it can be read, and is read as it was unless it needs a
comma that is not written.** -/
theorem ofWords?_segments {p : Person} (hp : p.Arranged) :
    (∃ q, ofWords? p.segments = some q) ∧
      (ofWords? p.segments = some p ↔ ¬ p.NeedsTrailingComma) := by
  by_cases hcomma : p.lineage ≠ [] ∨ p.givenNames ≠ []
  · have hread := ofWords?_segments_of_comma hp hcomma
    refine ⟨⟨p, hread⟩, iff_of_true hread ?_⟩
    rintro ⟨hfirst, hmiddle, hlineage, -⟩
    exact hcomma.elim (· hlineage) (· (List.append_eq_nil_iff.2 ⟨hfirst, hmiddle⟩))
  · rw [not_or, not_not, not_not] at hcomma
    obtain ⟨hlineage, hgiven⟩ := hcomma
    have hread := ofWords?_segments_of_no_comma hlineage hgiven
    refine ⟨⟨_, hread⟩, ?_⟩
    obtain ⟨hfirst, hmiddle⟩ := List.append_eq_nil_iff.1 hgiven
    calc ofWords? p.segments = some p
        ↔ ofFirstVonLast (p.prelast ++ p.last) = ofVonLast (p.prelast ++ p.last) := by
          rw [hread, Option.some.injEq, hp.ofVonLast_eq hlineage hgiven]
      _ ↔ _ := ofFirstVonLast_eq_ofVonLast_iff _
      _ ↔ ¬ p.NeedsTrailingComma := by
          rw [NeedsTrailingComma, hfirst, hmiddle, hlineage]
          simp only [true_and]

/-- The person of a balanced name, and the words that it is made of. -/
theorem isWord_of_ofText? {name : Text} (hname : isBalanced name = true) {p : Person}
    (h : ofText? name = some p) : ∀ w ∈ p.allWords, IsWord w := by
  intro w hw
  obtain ⟨s, hs, hw⟩ := mem_segment_of_mem_allWords h hw
  have hwords : splitWords s ∈ segmentWords name.trim := by
    rw [← map_splitWords_splitSegments (isBalanced_trim hname)]
    exact List.mem_map_of_mem hs
  exact isWord_of_mem_segmentWords (isBalanced_trim hname) hwords hw

/-- **A name that was read is written so that it can be read again**, and as the same person unless
all its words, several of them, belong to the last name and the first is no small word. That is
never so of a name without a comma. -/
theorem ofText?_toText_eq_some_iff {name : Text} (hname : isBalanced name = true) {p : Person}
    (h : ofText? name = some p) :
    (∃ q, ofText? p.toText = some q) ∧
      (ofText? p.toText = some p ↔
        ¬ (p.first = [] ∧ p.middle = [] ∧ p.lineage = [] ∧
          ∃ w w' words, p.prelast ++ p.last = w :: w' :: words ∧ isSmallWord w = false)) ∧
      (OnlyInBraces (· == ',') 0 name → ofText? p.toText = some p) := by
  have hread := h
  rw [ofText?_eq_ofWords? hname] at hread
  obtain ⟨hsome, hsame⟩ := ofWords?_segments (arranged_of_ofWords? hread)
  rw [← ofText?_toText_of_isWord (isWord_of_ofText? hname h)] at hsome hsame
  refine ⟨hsome, hsame, fun hno_comma => hsame.2 ?_⟩
  rw [segmentWords, splitAtLevel0_of_onlyInBraces hname hno_comma] at hread
  obtain rfl := Option.some.inj hread
  exact not_needsTrailingComma_ofFirstVonLast (splitWords name)

/-- A last name of two words, the first of which is no small one. -/
def valleePoussin : Person := { last := ["Vall\x7b\\'e\x7de".toList, "Poussin".toList] }

/-- The same last name with all that can stand around it. -/
def charlesLouis : Person :=
  { first := ["Charles".toList], middle := ["Louis".toList], prelast := ["de".toList, "la".toList]
    last := valleePoussin.last, lineage := ["\x7bJr., II\x7d".toList] }

theorem ofText?_toText_valleePoussin :
    (ofText? "Vall\x7b\\'e\x7de Poussin,".toList = some valleePoussin ∧
      (∃ q, ofText? valleePoussin.toText = some q) ∧
      ofText? valleePoussin.toText ≠ some valleePoussin) ∧
    ofText? "de~la Vall\x7b\\'e\x7de Poussin,\x7bJr., II\x7d, Charles Louis".toList =
        some charlesLouis ∧
      ofText? charlesLouis.toText = some charlesLouis := by
  have hlast : ofText? "Vall\x7b\\'e\x7de Poussin,".toList = some valleePoussin := by
    decide +kernel
  have hfull : ofText? "de~la Vall\x7b\\'e\x7de Poussin,\x7bJr., II\x7d, Charles Louis".toList =
      some charlesLouis := by decide +kernel
  obtain ⟨hsome, hlost, -⟩ := ofText?_toText_eq_some_iff (by decide) hlast
  obtain ⟨-, hkept, -⟩ := ofText?_toText_eq_some_iff (by decide) hfull
  refine ⟨⟨hlast, hsome, ?_⟩, hfull, hkept.2 fun hnone => List.cons_ne_nil _ _ hnone.1⟩
  rw [Ne, hlost, not_not]
  exact ⟨rfl, rfl, rfl, _, _, [], rfl, by decide +kernel⟩

end Bibliography.Person
