import Bibliography.Database.Entry
import Bibliography.Proofs.Tex.Scan

set_option autoImplicit false

/-! # Parts between separators outside braces

A balanced text is split only where no brace is open, so its parts are balanced: the names of a
list, the segments and words of a name, and the first letters to which words are abbreviated. The
words of a person are such parts, and the text of a person is made of its words.
-/

namespace Bibliography.Tex

open NameFormat (isBrace)

/-! ## White space -/

theorem filter_isBrace_trimStart (s : Text) :
    (Text.trimStart s).filter isBrace = s.filter isBrace := by
  induction s with
  | nil => rfl
  | cons c s ih =>
    rw [Text.trimStart, List.dropWhile_cons]
    split
    · next hc =>
      rw [List.filter_cons_of_neg (by simp [isBrace_eq_false_of_isWhiteSpace hc])]
      exact ih
    · rfl

theorem isBalanced_trim {s : Text} (hs : isBalanced s = true) : isBalanced s.trim = true := by
  have hfilter : s.trim.filter isBrace = s.filter isBrace := by
    rw [Text.trim, Text.trimEnd, List.filter_reverse, filter_isBrace_trimStart,
      List.filter_reverse, List.reverse_reverse, filter_isBrace_trimStart]
  rw [isBalanced_congr hfilter, hs]

/-! ## Separators that are characters -/

theorem levelAfter_of_other {c : Char} (hc : isBrace c = false) (level : Int) :
    levelAfter level c = level := by
  have h : c ≠ '{' ∧ c ≠ '}' := isBrace_eq_false_iff.1 hc
  rw [levelAfter, if_neg h.1, if_neg h.2]

/-- The level counts opening braces less closing ones. -/
theorem foldl_levelAfter (level : Int) (s : Text) :
    s.foldl levelAfter level = level + (s.count '{' - s.count '}') := by
  induction s generalizing level with
  | nil => simp
  | cons c s ih =>
    rw [List.foldl_cons, ih, levelAfter, List.count_cons, List.count_cons]
    by_cases hopen : c = '{'
    · subst hopen
      simp
      omega
    · by_cases hclose : c = '}'
      · subst hclose
        simp
        omega
      · simp [hopen, hclose]

/-- What the level of a split does is what the number of open braces does, as long as no brace is
closed that is not open. -/
theorem levelAfter_of_openAfter? {n k : Nat} {c : Char} {s : Text}
    (h : openAfter? n (c :: s) = some k) :
    ∃ n' : Nat, levelAfter n c = n' ∧ openAfter? n' s = some k ∧
      ∀ t, openAfter? n (c :: t) = openAfter? n' t := by
  rcases openAfter?_cons_eq_some h with ⟨rfl, hs⟩ | ⟨n, rfl, rfl, hs⟩ | ⟨hc, hs⟩
  · exact ⟨n + 1, by simp [levelAfter], hs, fun _ => rfl⟩
  · exact ⟨n, by simp [levelAfter], hs, fun _ => rfl⟩
  · exact ⟨n, levelAfter_of_other hc n, hs, openAfter?_cons_other hc n⟩

theorem splitAtLevel0From_balanced (isSep : Char → Bool) {n : Nat} {s : Text}
    (h : openAfter? n s = some 0) :
    ∃ part parts, splitAtLevel0From isSep n s = part :: parts ∧ openAfter? n part = some 0 ∧
      ∀ p ∈ parts, isBalanced p = true := by
  induction s generalizing n with
  | nil =>
    cases h
    exact ⟨[], [], rfl, rfl, List.forall_mem_nil _⟩
  | cons c s ih =>
    obtain ⟨n', hlevel, h', hopen⟩ := levelAfter_of_openAfter? h
    obtain ⟨part, parts, hsplit, hpart, hparts⟩ := ih h'
    rw [splitAtLevel0From, hlevel, hsplit]
    dsimp only
    split
    · next hsep =>
      -- a separator stands where no brace is open, and is no brace
      obtain ⟨hbrace, hn, -⟩ := hsep
      obtain rfl : n = 0 := by exact_mod_cast hn
      have hother : isBrace c = false := by
        rw [not_or] at hbrace
        simp [isBrace, hbrace.1, hbrace.2]
      have hn' : openAfter? 0 [c] = openAfter? n' [] := hopen []
      rw [openAfter?_cons_other hother, openAfter?_nil, openAfter?_nil, Option.some.injEq] at hn'
      subst hn'
      refine ⟨[], part :: parts, rfl, rfl, List.forall_mem_cons.2 ⟨?_, hparts⟩⟩
      exact (isBalanced_iff _).2 hpart
    · exact ⟨c :: part, parts, rfl, by rw [hopen, hpart], hparts⟩

/-- **The parts of a balanced text are balanced.** -/
theorem isBalanced_of_mem_splitAtLevel0 {isSep : Char → Bool} {s p : Text}
    (hs : isBalanced s = true) (hp : p ∈ splitAtLevel0 isSep s) : isBalanced p = true := by
  obtain ⟨part, parts, hsplit, hpart, hparts⟩ :=
    splitAtLevel0From_balanced isSep ((isBalanced_iff s).1 hs)
  have hsplit : splitAtLevel0 isSep s = part :: parts := hsplit
  rw [hsplit] at hp
  rcases List.mem_cons.1 hp with rfl | hp
  · exact (isBalanced_iff p).2 hpart
  · exact hparts p hp

theorem isBalanced_of_mem_splitWords {s w : Text} (hs : isBalanced s = true)
    (hw : w ∈ splitWords s) : isBalanced w = true :=
  isBalanced_of_mem_splitAtLevel0 hs (List.mem_filter.1 hw).1

theorem isBalanced_of_mem_splitSegments {s p : Text} (hs : isBalanced s = true)
    (hp : p ∈ splitSegments s) : isBalanced p = true := by
  obtain ⟨q, hq, rfl⟩ := List.mem_map.1 hp
  exact isBalanced_trim (isBalanced_of_mem_splitAtLevel0 hs hq)

/-! ## Separators that are texts -/

/-- A separator stands at the start of a text if something follows it. -/
theorem separates_eq_true_iff {sep s : Text} : separates sep s = true ↔
    ∃ p r, s = p ++ r ∧ Text.asciiLower p = Text.asciiLower sep ∧ r ≠ [] := by
  induction sep generalizing s with
  | nil =>
    rw [separates]
    constructor
    · intro hs
      exact ⟨[], s, rfl, rfl, by simpa using hs⟩
    · rintro ⟨p, r, rfl, hp, hr⟩
      obtain rfl : p = [] := List.map_eq_nil_iff.1 hp
      simpa using hr
  | cons a sep ih =>
    cases s with
    | nil =>
      refine iff_of_false Bool.false_ne_true ?_
      rintro ⟨p, r, heq, -, hr⟩
      exact hr (List.append_eq_nil_iff.1 heq.symm).2
    | cons c s =>
      rw [separates, Bool.and_eq_true, ih, beq_iff_eq]
      constructor
      · rintro ⟨hc, p, r, rfl, hp, hr⟩
        exact ⟨c :: p, r, rfl, List.cons_eq_cons.2 ⟨hc.symm, hp⟩, hr⟩
      · rintro ⟨p, r, heq, hp, hr⟩
        cases p with
        | nil => cases hp
        | cons d p =>
          obtain ⟨rfl, hs⟩ := List.cons.inj heq
          obtain ⟨hd, hp⟩ := List.cons.inj hp
          exact ⟨hd.symm, p, r, hs, hp, hr⟩

/-- What belongs to a separator is passed over, but its braces count. -/
theorem splitTextFrom_skip (sep skipped : Text) (level : Int) (part rest : Text) :
    splitTextFrom sep false level skipped.length part (skipped ++ rest) =
      splitTextFrom sep false (skipped.foldl levelAfter level) 0 part rest := by
  induction skipped generalizing level with
  | nil => rfl
  | cons c skipped ih =>
    rw [List.cons_append, List.length_cons, splitTextFrom, ih, List.foldl_cons]

theorem foldl_levelAfter_of_no_braces {s : Text} (hs : ∀ c ∈ s, isBrace c = false) (level : Int) :
    s.foldl levelAfter level = level := by
  induction s with
  | nil => rfl
  | cons c s ih =>
    rw [List.forall_mem_cons] at hs
    rw [List.foldl_cons, levelAfter_of_other hs.1, ih hs.2]

/-- A letter in another case is no brace. -/
theorem isBrace_toLower (c : Char) : isBrace c.toLower = isBrace c := by
  delta Char.toLower
  split
  · next h =>
    -- the codes of the small letters end before those of the braces
    have hle : c.val.toNat ≤ 90 := UInt32.le_iff_toNat_le.1 h.2
    have hcode : (c.val + ('a'.val - 'A'.val)).toNat = c.val.toNat + 32 := by
      have hadd : (c.val + ('a'.val - 'A'.val)).toNat = (c.val.toNat + 32) % 2 ^ 32 :=
        UInt32.toNat_add _ _
      omega
    have hsmall : ∀ d : Char, d.val.toNat ≤ 122 → isBrace d = false :=
      fun d hd => isBrace_eq_false_of_toNat (Or.inl (Nat.lt_succ_of_le hd))
    rw [hsmall c (by omega), hsmall _ (by rw [hcode]; omega)]
  · rfl

/-- The characters of a separator that stands in a text are no braces. -/
theorem isBrace_of_separates {sep s : Text} (hsep : ∀ c ∈ sep, isBrace c = false)
    (h : separates sep s = true) : ∀ c ∈ s.take sep.length, isBrace c = false := by
  induction sep generalizing s with
  | nil => simp
  | cons a sep ih =>
    cases s with
    | nil => cases h
    | cons c s =>
      rw [separates, Bool.and_eq_true] at h
      rw [List.forall_mem_cons] at hsep
      rw [List.length_cons, List.take_succ_cons, List.forall_mem_cons]
      refine ⟨?_, ih hsep.2 h.2⟩
      have hlower : a.toLower = c.toLower := by simpa using h.1
      rw [← isBrace_toLower, ← hlower, isBrace_toLower, hsep.1]

theorem isBalanced_of_mem_splitTextFrom {sep : Text} (hsep : ∀ c ∈ sep, isBrace c = false)
    {atStart : Bool} {n skip : Nat} {part rest : Text} (hpart : openAfter? 0 part.reverse = some n)
    (hrest : openAfter? n rest = some 0) (hskip : ∀ c ∈ rest.take skip, isBrace c = false)
    {p : Text} (hp : p ∈ splitTextFrom sep atStart n skip part rest) : isBalanced p = true := by
  induction rest generalizing atStart n skip part with
  | nil =>
    cases hrest
    rw [splitTextFrom, List.mem_singleton] at hp
    exact hp ▸ (isBalanced_iff _).2 hpart
  | cons c rest ih =>
    obtain ⟨n', hlevel, hrest', hopen⟩ := levelAfter_of_openAfter? hrest
    cases skip with
    | succ skip =>
      -- a character of the separator changes no level
      rw [List.take_succ_cons, List.forall_mem_cons] at hskip
      rw [openAfter?_cons_other hskip.1] at hrest
      rw [splitTextFrom, levelAfter_of_other hskip.1] at hp
      exact ih hpart hrest hskip.2 hp
    | zero =>
      unfold splitTextFrom at hp
      dsimp only at hp
      split at hp
      · next h =>
        obtain ⟨hopen', hclose', hn, -, hseparates⟩ := h
        obtain rfl : n = 0 := by exact_mod_cast hn
        have hother : isBrace c = false := isBrace_eq_false_iff.2 ⟨hopen', hclose'⟩
        rw [openAfter?_cons_other hother] at hrest
        rcases List.mem_cons.1 hp with rfl | hp
        · exact (isBalanced_iff _).2 hpart
        · -- behind a separator a part starts anew, unless the separator is empty
          cases sep with
          | nil =>
            have hpart : openAfter? 0 [c].reverse = some 0 := by
              simpa using openAfter?_cons_other hother 0 []
            exact ih hpart hrest (by simp) hp
          | cons a sep =>
            have htake := isBrace_of_separates hsep hseparates
            rw [List.length_cons, List.take_succ_cons, List.forall_mem_cons] at htake
            have hpart : openAfter? 0 ([] : Text).reverse = some 0 := rfl
            exact ih hpart hrest htake.2 hp
      · -- the part goes on with a character that is no separator
        rw [hlevel] at hp
        have hlonger : openAfter? 0 (c :: part).reverse = some n' := by
          rw [List.reverse_cons, openAfter?_append, hpart, Option.bind_some, hopen []]
          rfl
        exact ih hlonger hrest' (by simp) hp

/-- Where the separator has no braces, the parts of a balanced text are balanced. -/
theorem isBalanced_of_mem_splitText {s sep : Text} (hsep : ∀ c ∈ sep, isBrace c = false)
    (hs : isBalanced s = true) {part : Text} (hpart : part ∈ splitText s sep) :
    isBalanced part = true := by
  obtain ⟨untrimmed, hmem, rfl⟩ := List.mem_map.1 hpart
  have hstart : openAfter? 0 ([] : Text).reverse = some 0 := rfl
  exact isBalanced_trim (isBalanced_of_mem_splitTextFrom hsep hstart ((isBalanced_iff s).1 hs)
    (by simp) hmem)

/-- **The names of a balanced name list are balanced.** -/
theorem isBalanced_of_mem_splitNameList {s name : Text} (hs : isBalanced s = true)
    (hname : name ∈ splitNameList s) : isBalanced name = true := by
  rw [splitNameList] at hname
  split at hname
  · cases hname
  · exact isBalanced_of_mem_splitText (isBrace_eq_false_of_all (by decide)) hs hname

/-! ## First letters -/

theorem isBalanced_firstLetter {word : Text} (hword : isBalanced word = true) :
    isBalanced (firstLetter word) = true := by
  rw [firstLetter]
  cases hfind : (scan word).find? (!·.isBrace) with
  | none => rfl
  | some u =>
    have hbrace : u.isBrace = false := by simpa using List.find?_some hfind
    exact isBalanced_text_of_mem_scan hword (List.mem_of_find?_eq_some hfind) hbrace

theorem isBalanced_abbreviate {word : Text} (hword : isBalanced word = true) :
    isBalanced (abbreviate word) = true := by
  refine isBalanced_join (by decide) fun letter hletter => ?_
  obtain ⟨part, hpart, rfl⟩ := List.mem_map.1 (List.mem_filter.1 hletter).1
  exact isBalanced_firstLetter (isBalanced_of_mem_splitAtLevel0 hword hpart)

end Bibliography.Tex

/-! ## Persons -/

namespace Bibliography.Person

open Tex

def allWords (p : Person) : List Text := p.first ++ p.middle ++ p.prelast ++ p.last ++ p.lineage

theorem mem_of_mem_splitAfterLast {q : Text → Bool} {words : List Text} {w : Text}
    (hw : w ∈ (splitAfterLast q words).1 ∨ w ∈ (splitAfterLast q words).2) : w ∈ words := by
  rw [splitAfterLast, List.mem_reverse, List.mem_reverse] at hw
  rcases hw with hw | hw
  · exact List.mem_reverse.1 ((List.dropWhile_sublist _).mem hw)
  · exact List.mem_reverse.1 ((List.takeWhile_sublist _).mem hw)

theorem mem_of_mem_withLast {init : List Text} {final w : Text}
    (hw : w ∈ (withLast init final {}).allWords) : w ∈ init ∨ w = final := by
  simp only [withLast, allWords, List.nil_append, List.append_nil, List.mem_append,
    List.mem_singleton] at hw
  rcases hw with hw | hw | hw
  · exact Or.inl (mem_of_mem_splitAfterLast (Or.inl hw))
  · exact Or.inl (mem_of_mem_splitAfterLast (Or.inr hw))
  · exact Or.inr hw

/-- The parts of a name with a comma are words before the comma. -/
theorem allWords_ofVonLast_subset (words : List Text) : (ofVonLast words).allWords ⊆ words := by
  intro w hw
  rw [ofVonLast] at hw
  split at hw
  · cases hw
  · next final hfinal =>
    rcases mem_of_mem_withLast hw with hw | rfl
    · exact List.dropLast_subset _ hw
    · exact List.mem_of_getLast? hfinal

/-- First and middle names come with their words. -/
theorem mem_allWords_withFirst {words : List Text} {p : Person} {w : Text}
    (hw : w ∈ (withFirst words p).allWords) : w ∈ words ∨ w ∈ p.allWords := by
  simp only [withFirst, allWords, List.mem_append] at hw ⊢
  rcases hw with (((hw | hw) | hw) | hw) | hw
  · exact Or.inl (List.mem_of_mem_take hw)
  · exact Or.inl (List.mem_of_mem_drop hw)
  · exact Or.inr (Or.inl (Or.inl (Or.inr hw)))
  · exact Or.inr (Or.inl (Or.inr hw))
  · exact Or.inr (Or.inr hw)

/-- The parts of a name without commas are its words. -/
theorem allWords_ofFirstVonLast_subset (words : List Text) :
    (ofFirstVonLast words).allWords ⊆ words := by
  intro w hw
  rw [ofFirstVonLast] at hw
  split at hw
  · cases hw
  · next final hfinal =>
    rcases mem_allWords_withFirst hw with hw | hw
    · exact List.dropLast_subset _ ((List.takeWhile_sublist _).mem hw)
    · rcases mem_of_mem_withLast hw with hw | rfl
      · exact List.dropLast_subset _ ((List.dropWhile_sublist _).mem hw)
      · exact List.mem_of_getLast? hfinal

/-- Every word of a person is a word of a segment of the name, the name being trimmed. -/
theorem mem_segment_of_mem_allWords {name : Text} {p : Person} (h : ofText? name = some p)
    {w : Text} (hw : w ∈ p.allWords) : ∃ s ∈ splitSegments name.trim, w ∈ splitWords s := by
  rw [ofText?] at h
  split at h
  · cases h
    cases hw
  · split at h
    · next whole hsegments =>
      cases h
      exact ⟨whole, by simp [hsegments], allWords_ofFirstVonLast_subset _ hw⟩
    · next vonLast first hsegments =>
      cases h
      rcases mem_allWords_withFirst hw with hw | hw
      · exact ⟨first, by simp [hsegments], hw⟩
      · exact ⟨vonLast, by simp [hsegments], allWords_ofVonLast_subset _ hw⟩
    · next vonLast lineage first hsegments =>
      cases h
      rcases mem_allWords_withFirst hw with hw | hw
      · exact ⟨first, by simp [hsegments], hw⟩
      · -- the lineage stands in place of the empty one
        rcases List.mem_append.1 hw with hw | hw
        · exact ⟨vonLast, by simp [hsegments],
            allWords_ofVonLast_subset _ (List.mem_append_left _ hw)⟩
        · exact ⟨lineage, by simp [hsegments], hw⟩
    · cases h

def Balanced (p : Person) : Prop := ∀ w ∈ p.allWords, isBalanced w = true

/-- **The words of a balanced name are balanced.** -/
theorem balanced_of_ofText? {name : Text} (hname : isBalanced name = true) {p : Person}
    (h : ofText? name = some p) : p.Balanced := by
  intro w hw
  obtain ⟨s, hs, hw⟩ := mem_segment_of_mem_allWords h hw
  exact isBalanced_of_mem_splitWords
    (isBalanced_of_mem_splitSegments (isBalanced_trim hname) hs) hw

/-- The name of a person with balanced words, written with commas, is balanced. -/
theorem Balanced.toText {p : Person} (hp : p.Balanced) : isBalanced p.toText = true := by
  have hjoin : ∀ words : List Text, words ⊆ p.allWords → isBalanced (joinWords words) = true :=
    fun words hwords => isBalanced_join (by decide) fun w hw => hp w (hwords hw)
  have hgiven : p.givenNames ⊆ p.allWords := fun w hw => by
    rcases List.mem_append.1 hw with hw | hw <;> simp [allWords, hw]
  have hlast : p.prelast ++ p.last ⊆ p.allWords := fun w hw => by
    rcases List.mem_append.1 hw with hw | hw <;> simp [allWords, hw]
  have hlineage : p.lineage ⊆ p.allWords := List.subset_append_right _ _
  refine isBalanced_join (by decide) fun segment hsegment => ?_
  rcases List.mem_cons.1 hsegment with rfl | hsegment
  · exact hjoin _ hlast
  · split at hsegment
    · simp only [List.mem_cons, List.not_mem_nil, or_false] at hsegment
      rcases hsegment with rfl | rfl
      · exact hjoin _ hlineage
      · exact hjoin _ hgiven
    · split at hsegment
      · rw [List.mem_singleton] at hsegment
        exact hsegment ▸ hjoin _ hgiven
      · cases hsegment

end Bibliography.Person
