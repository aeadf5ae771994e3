import Bibliography.Unicode.CaseMap
import Bibliography.Unicode.Property

set_option autoImplicit false

/-! # Case mappings of single characters

What the tables of lower-case and of upper-case letters say about the characters that they lead to.
Both lead to characters that they lead no further (`TablesSettle`), which is checked run by run: the
images of a run lie before or behind the codes of another one, or their ranges overlap and they
differ in the remainder of their codes (`CaseRun.alternates`). Which characters cannot come about by
a mapping, and which have no image, is checked for spans of codes. So neither table has anything to
do with the characters that part and group text, white space among them (`IsDelimiter`): these stand
for themselves, and no other character becomes one.
-/

namespace Bibliography.Unicode

def CaseRun.lastImage (r : CaseRun) : Nat := r.target + (r.last - r.first)

/-! ## Runs that lead no further -/

/-- No code that the run `r` leads to belongs to the run `q`, although both lie in the same range:
the codes of `r` lie between two of `q`, or have another remainder. -/
def CaseRun.alternates (r q : CaseRun) : Bool :=
  (Nat.ble q.first r.target && Nat.blt 0 ((r.target - q.first) % q.stride) &&
      Nat.blt ((r.target - q.first) % q.stride + (r.last - r.first)) q.stride) ||
    ((Nat.beq r.first r.last || Nat.beq (r.stride % q.stride) 0) &&
      !Nat.beq (r.target % q.stride) (q.first % q.stride))

/-- No code that the run `r` leads to belongs to one of the sorted runs. -/
def CaseRun.misses (r : CaseRun) : List CaseRun → Bool
  | [] => true
  | q :: runs =>
    bif Nat.ble q.first r.lastImage then
      (bif Nat.ble r.target q.last then r.alternates q else true) && r.misses runs
    else true

theorem CaseRun.alternates_image {r q : CaseRun} (h : r.alternates q = true) {n : Nat}
    (hlast : n ≤ r.last) (hfirst : r.first ≤ n) (hstride : (n - r.first) % r.stride = 0)
    (hlow : q.first ≤ r.target + (n - r.first)) :
    (r.target + (n - r.first) - q.first) % q.stride ≠ 0 := by
  simp only [alternates, Bool.or_eq_true, Bool.and_eq_true, Nat.blt_eq, Nat.ble_eq,
    Nat.beq_eq, Bool.not_eq_true', ← Bool.not_eq_true] at h
  intro hheld
  rcases h with ⟨⟨hstart, hpos⟩, hroom⟩ | ⟨hone, hremainder⟩
  · have hsplit : r.target + (n - r.first) - q.first = r.target - q.first + (n - r.first) := by
      omega
    have hsmall : (r.target - q.first) % q.stride + (n - r.first) < q.stride := by omega
    rw [hsplit, ← Nat.mod_add_mod, Nat.mod_eq_of_lt hsmall] at hheld
    omega
  · -- a code of `q` has the remainder of its first one, an image that of the target
    have hdvd : q.stride ∣ n - r.first := by
      rcases hone with hsingle | hmultiple
      · have hzero : n - r.first = 0 := by omega
        exact hzero ▸ Nat.dvd_zero _
      · exact Nat.dvd_trans (Nat.dvd_of_mod_eq_zero hmultiple) (Nat.dvd_of_mod_eq_zero hstride)
    have hsplit : r.target + (n - r.first) = q.first + (r.target + (n - r.first) - q.first) := by
      omega
    refine hremainder ?_
    calc r.target % q.stride
        = (r.target + (n - r.first)) % q.stride := by
          rw [Nat.add_mod, Nat.mod_eq_zero_of_dvd hdvd, Nat.add_zero, Nat.mod_mod]
      _ = q.first % q.stride := by
          rw [hsplit, Nat.add_mod, hheld, Nat.add_zero, Nat.mod_mod]

theorem CaseRun.image?_eq_none_of_misses {r : CaseRun} {runs : List CaseRun}
    (h : r.misses runs = true) {n : Nat} (hlast : n ≤ r.last) (hfirst : r.first ≤ n)
    (hstride : (n - r.first) % r.stride = 0) :
    CaseRun.image? runs (r.target + (n - r.first)) = none := by
  induction runs with
  | nil => rfl
  | cons q runs ih =>
    rw [image?]
    by_cases hbefore : r.target + (n - r.first) < q.first
    · rw [if_pos hbefore]
    · have hlastImage : q.first ≤ r.lastImage := by
        rw [lastImage]
        omega
      rw [misses, Nat.ble_eq_true_of_le hlastImage, cond_true, Bool.and_eq_true] at h
      rw [if_neg hbefore, if_neg, ih h.2]
      rintro ⟨hbehind, hheld⟩
      rw [Nat.ble_eq_true_of_le (by omega), cond_true] at h
      exact alternates_image h.1 hlast hfirst hstride (by omega) hheld

/-- Where an image comes from. -/
theorem CaseRun.exists_of_image? {runs : List CaseRun} {n n' : Nat}
    (h : CaseRun.image? runs n = some n') :
    ∃ r ∈ runs, n ≤ r.last ∧ r.first ≤ n ∧ (n - r.first) % r.stride = 0 ∧
      n' = r.target + (n - r.first) := by
  induction runs with
  | nil => cases h
  | cons r runs ih =>
    rw [image?] at h
    split at h
    · cases h
    · next hfirst =>
      split at h
      · next hrun =>
        exact ⟨r, List.mem_cons_self, hrun.1, by omega, hrun.2, (Option.some.inj h).symm⟩
      · obtain ⟨q, hq, hheld⟩ := ih h
        exact ⟨q, List.mem_cons_of_mem _ hq, hheld⟩

/-! ## Tables that lead no further -/

/-- A run leads to codes of characters that the two tables lead no further. -/
def CaseRun.settles (runs : List CaseRun) (expansions : List (Nat × List Nat)) (r : CaseRun) :
    Bool :=
  decide (r.lastImage < 0xD800 ∨ 0xDFFF < r.target ∧ r.lastImage < 0x110000) &&
    expansions.all (fun p => bif Nat.ble r.target p.1 then Nat.blt r.lastImage p.1 else true) &&
    r.misses runs

/-- Two tables lead to codes of characters that they lead no further. A code of an expansion is a
run of its own, and many expansions share theirs. -/
structure TablesSettle (runs : List CaseRun) (expansions : List (Nat × List Nat)) : Prop where
  runs_settle : runs.all (CaseRun.settles runs expansions) = true
  expansions_ne_nil : expansions.all (fun p => !p.2.isEmpty) = true
  expansions_settle : (expansions.flatMap Prod.snd).eraseDups.all
    (fun n => CaseRun.settles runs expansions ⟨n, n, 1, n⟩) = true

/-- A code of a character that two tables lead no further. -/
structure IsSettledCode (runs : List CaseRun) (expansions : List (Nat × List Nat)) (n : Nat) :
    Prop where
  valid : n.isValidChar
  image : CaseRun.image? runs n = none
  expansion : expansions.lookup n = none

/-- A code in the range of the images of a run, or in an expansion. -/
def IsImage (runs : List CaseRun) (expansions : List (Nat × List Nat)) (n : Nat) : Prop :=
  (∃ r ∈ runs, r.target ≤ n ∧ n ≤ r.lastImage) ∨ ∃ p ∈ expansions, n ∈ p.2

theorem toNat_ofNat {n : Nat} (h : n.isValidChar) : (Char.ofNat n).toNat = n :=
  congrArg Char.toNat (dif_pos h)

/-- A key that the list has not has no value. -/
theorem lookup_eq_none_of_all {α : Type} {table : List (Nat × α)} {n : Nat}
    (h : ∀ p ∈ table, p.1 ≠ n) : table.lookup n = none := by
  induction table with
  | nil => rfl
  | cons p table ih =>
    rw [List.forall_mem_cons] at h
    obtain ⟨key, value⟩ := p
    rw [List.lookup_cons, beq_eq_false_iff_ne.2 (Ne.symm h.1)]
    exact ih h.2

theorem mem_of_lookup_eq_some {α : Type} {table : List (Nat × α)} {n : Nat} {value : α}
    (h : table.lookup n = some value) : (n, value) ∈ table := by
  obtain ⟨before, after, rfl, -⟩ := List.lookup_eq_some_iff.1 h
  exact List.mem_append_right _ List.mem_cons_self

section

variable {runs : List CaseRun} {expansions : List (Nat × List Nat)}

theorem CaseRun.isSettledCode_of_settles {r : CaseRun} (h : r.settles runs expansions = true)
    {n : Nat} (hlast : n ≤ r.last) (hfirst : r.first ≤ n)
    (hstride : (n - r.first) % r.stride = 0) :
    IsSettledCode runs expansions (r.target + (n - r.first)) := by
  simp only [settles, Bool.and_eq_true, decide_eq_true_eq, List.all_eq_true] at h
  obtain ⟨⟨hvalid, hexpansions⟩, hmisses⟩ := h
  have hlastImage : r.target + (n - r.first) ≤ r.lastImage := by
    rw [lastImage]
    omega
  refine ⟨?_, image?_eq_none_of_misses hmisses hlast hfirst hstride,
    lookup_eq_none_of_all fun p hp heq => ?_⟩
  · rw [Nat.isValidChar]
    omega
  · have hkey := hexpansions p hp
    rw [Nat.ble_eq_true_of_le (by omega), cond_true, Nat.blt_eq] at hkey
    omega

theorem TablesSettle.of_image? (h : TablesSettle runs expansions) {n n' : Nat}
    (himage : CaseRun.image? runs n = some n') :
    IsSettledCode runs expansions n' ∧ IsImage runs expansions n' := by
  obtain ⟨r, hr, hlast, hfirst, hstride, rfl⟩ := CaseRun.exists_of_image? himage
  have hsettles := List.all_eq_true.1 h.runs_settle r hr
  refine ⟨CaseRun.isSettledCode_of_settles hsettles hlast hfirst hstride, Or.inl ⟨r, hr, ?_⟩⟩
  rw [CaseRun.lastImage]
  omega

theorem TablesSettle.of_lookup (h : TablesSettle runs expansions) {n : Nat} {ns : List Nat}
    (hlookup : expansions.lookup n = some ns) :
    ns ≠ [] ∧ ∀ n' ∈ ns, IsSettledCode runs expansions n' ∧ IsImage runs expansions n' := by
  have hmem := mem_of_lookup_eq_some hlookup
  refine ⟨?_, fun n' hn' => ⟨?_, Or.inr ⟨_, hmem, hn'⟩⟩⟩
  · have hsome := List.all_eq_true.1 h.expansions_ne_nil _ hmem
    simpa using hsome
  · have hcodes : n' ∈ (expansions.flatMap Prod.snd).eraseDups :=
      List.mem_eraseDups.2 (List.mem_flatMap.2 ⟨_, hmem, hn'⟩)
    have hsettles := List.all_eq_true.1 h.expansions_settle n' hcodes
    have hcode := CaseRun.isSettledCode_of_settles hsettles (Nat.le_refl n') (Nat.le_refl n')
      (Nat.mod_one _)
    simpa using hcode

/-- A character with a code that the tables lead no further stands for itself. -/
theorem IsSettledCode.mapCase_eq {d : Char} (h : IsSettledCode runs expansions d.toNat) :
    mapCase runs expansions d = [d] := by
  rw [mapCase, h.image]
  dsimp only
  rw [h.expansion]

/-- A character that `c` is mapped to is `c` itself, which then stands in no table, or an image that
is led no further. -/
theorem TablesSettle.of_mem_mapCase (h : TablesSettle runs expansions) {c d : Char}
    (hd : d ∈ mapCase runs expansions c) :
    d = c ∧ mapCase runs expansions c = [c] ∨
      IsSettledCode runs expansions d.toNat ∧ IsImage runs expansions d.toNat := by
  rw [mapCase] at hd ⊢
  cases himage : CaseRun.image? runs c.toNat with
  | some n =>
    rw [himage] at hd
    have hn := h.of_image? himage
    rw [List.mem_singleton.1 hd, toNat_ofNat hn.1.valid]
    exact Or.inr hn
  | none =>
    rw [himage] at hd
    dsimp only at hd ⊢
    cases hlookup : expansions.lookup c.toNat with
    | some ns =>
      rw [hlookup] at hd
      obtain ⟨n, hn, rfl⟩ := List.mem_map.1 hd
      have hcode := (h.of_lookup hlookup).2 n hn
      rw [toNat_ofNat hcode.1.valid]
      exact Or.inr hcode
    | none =>
      rw [hlookup] at hd
      exact Or.inl ⟨List.mem_singleton.1 hd, rfl⟩

/-- **What a character is mapped to stands for itself.** -/
theorem TablesSettle.mapCase_of_mem_mapCase (h : TablesSettle runs expansions) {c d : Char}
    (hd : d ∈ mapCase runs expansions c) : mapCase runs expansions d = [d] := by
  rcases h.of_mem_mapCase hd with ⟨rfl, hc⟩ | ⟨hcode, -⟩
  · exact hc
  · exact hcode.mapCase_eq

theorem TablesSettle.mapCase_ne_nil (h : TablesSettle runs expansions) (c : Char) :
    mapCase runs expansions c ≠ [] := by
  rw [mapCase]
  cases CaseRun.image? runs c.toNat with
  | some n => exact List.cons_ne_nil _ _
  | none =>
    cases hlookup : expansions.lookup c.toNat with
    | none => exact List.cons_ne_nil _ _
    | some ns => simp [(h.of_lookup hlookup).1]

/-! ## Spans that the tables avoid -/

/-- A code lies in the range of one of the spans. -/
def InSpans (spans : List Span) (n : Nat) : Prop := ∃ s ∈ spans, s.first ≤ n ∧ n ≤ s.last

instance (spans : List Span) (n : Nat) : Decidable (InSpans spans n) :=
  inferInstanceAs (Decidable (∃ s ∈ spans, s.first ≤ n ∧ n ≤ s.last))

/-- No code that the tables lead to lies in the spans. -/
def leadOutside (runs : List CaseRun) (expansions : List (Nat × List Nat)) (spans : List Span) :
    Bool :=
  spans.all fun s =>
    runs.all (fun r => Nat.blt r.lastImage s.first || Nat.blt s.last r.target) &&
      expansions.all (fun p => p.2.all fun n => Nat.blt n s.first || Nat.blt s.last n)

/-- No code that the tables lead from lies in the spans. -/
def leadFromOutside (runs : List CaseRun) (expansions : List (Nat × List Nat))
    (spans : List Span) : Bool :=
  spans.all fun s =>
    runs.all (fun r => Nat.blt r.last s.first || Nat.blt s.last r.first) &&
      expansions.all (fun p => Nat.blt p.1 s.first || Nat.blt s.last p.1)

/-- A code that one of the spans holds lies in its range. -/
theorem inSpans_of_covers {spans : List Span} {n : Nat} (h : covers spans n = true) :
    InSpans spans n := by
  induction spans with
  | nil => cases h
  | cons s spans ih =>
    rw [covers] at h
    split at h
    · cases h
    · rw [Bool.or_eq_true] at h
      rcases h with hholds | hrest
      · simp only [Span.holds, Bool.and_eq_true, decide_eq_true_eq] at hholds
        exact ⟨s, List.mem_cons_self, hholds.1⟩
      · obtain ⟨q, hq, hbetween⟩ := ih hrest
        exact ⟨q, List.mem_cons_of_mem _ hq, hbetween⟩

theorem not_isImage_of_leadOutside {spans : List Span}
    (h : leadOutside runs expansions spans = true) {n : Nat} (hn : InSpans spans n) :
    ¬ IsImage runs expansions n := by
  obtain ⟨s, hs, hfirst, hlast⟩ := hn
  have hspan := List.all_eq_true.1 h s hs
  simp only [Bool.and_eq_true, List.all_eq_true, Bool.or_eq_true, Nat.blt_eq] at hspan
  rintro (⟨r, hr, hbetween⟩ | ⟨p, hp, hmem⟩)
  · have := hspan.1 r hr
    omega
  · have := hspan.2 p hp n hmem
    omega

/-- No other character becomes one of spans that the tables do not lead to. -/
theorem TablesSettle.eq_of_mem_mapCase (h : TablesSettle runs expansions) {spans : List Span}
    (hspans : leadOutside runs expansions spans = true) {c d : Char}
    (hmem : d ∈ mapCase runs expansions c) (hd : InSpans spans d.toNat) : d = c := by
  rcases h.of_mem_mapCase hmem with ⟨heq, -⟩ | ⟨-, himage⟩
  · exact heq
  · exact absurd himage (not_isImage_of_leadOutside hspans hd)

/-- A character of spans that the tables do not lead from stands for itself. -/
theorem mapCase_of_leadFromOutside {spans : List Span}
    (h : leadFromOutside runs expansions spans = true) {c : Char} (hc : InSpans spans c.toNat) :
    mapCase runs expansions c = [c] := by
  obtain ⟨s, hs, hfirst, hlast⟩ := hc
  have hspan := List.all_eq_true.1 h s hs
  simp only [Bool.and_eq_true, List.all_eq_true, Bool.or_eq_true, Nat.blt_eq] at hspan
  rw [mapCase]
  cases himage : CaseRun.image? runs c.toNat with
  | some n =>
    obtain ⟨r, hr, hbelow, habove, -, -⟩ := CaseRun.exists_of_image? himage
    have := hspan.1 r hr
    omega
  | none =>
    dsimp only
    cases hlookup : expansions.lookup c.toNat with
    | some ns =>
      have := hspan.2 _ (mem_of_lookup_eq_some hlookup)
      omega
    | none => rfl

end

/-! ## Lower case and upper case -/

theorem tablesSettle_lower : TablesSettle lowerRuns lowerExpansions := by
  constructor <;> decide +kernel

theorem tablesSettle_upper : TablesSettle upperRuns upperExpansions := by
  constructor <;> decide +kernel

/-- **The lower case of a character is its own lower case.** -/
theorem lowerOf_of_mem_lowerOf {c d : Char} (h : d ∈ lowerOf c) : lowerOf d = [d] :=
  tablesSettle_lower.mapCase_of_mem_mapCase h

/-- **The upper case of a character is its own upper case.** -/
theorem upperOf_of_mem_upperOf {c d : Char} (h : d ∈ upperOf c) : upperOf d = [d] :=
  tablesSettle_upper.mapCase_of_mem_mapCase h

theorem lowerOf_ne_nil (c : Char) : lowerOf c ≠ [] := tablesSettle_lower.mapCase_ne_nil c

theorem upperOf_ne_nil (c : Char) : upperOf c ≠ [] := tablesSettle_upper.mapCase_ne_nil c

/-! ### ASCII characters -/

/-- What holds of all ASCII codes holds of all ASCII characters. -/
theorem of_ascii {P : Char → Prop} (h : ∀ n < 0x80, P (Char.ofNat n)) {c : Char}
    (hc : c.toNat < 0x80) : P c := by
  have hcode := h c.toNat hc
  rwa [Char.ofNat_toNat] at hcode

/-- On ASCII characters the mappings are those of ASCII letters. -/
theorem lowerOf_upperOf_of_ascii {c : Char} (h : c.toNat < 0x80) :
    lowerOf c = [c.toLower] ∧ upperOf c = [c.toUpper] :=
  of_ascii (P := fun d => lowerOf d = [d.toLower] ∧ upperOf d = [d.toUpper]) (by decide +kernel) h

/-! ### Delimiters -/

/-- The colon, the backslash, the two braces and white space. -/
def delimiterSpans : List Span :=
  [⟨0x3A, 0x3A, 1⟩, ⟨0x5C, 0x5C, 1⟩, ⟨0x7B, 0x7B, 1⟩, ⟨0x7D, 0x7D, 1⟩] ++ whiteSpaceSpans

/-- Whether a character parts or groups text: a colon, a backslash, a brace or white space. -/
def IsDelimiter (c : Char) : Prop := InSpans delimiterSpans c.toNat

instance (c : Char) : Decidable (IsDelimiter c) :=
  inferInstanceAs (Decidable (InSpans delimiterSpans c.toNat))

theorem isDelimiter_of_isWhiteSpace {c : Char} (h : isWhiteSpace c = true) : IsDelimiter c := by
  obtain ⟨s, hs, hbetween⟩ := inSpans_of_covers h
  exact ⟨s, List.mem_append_right _ hs, hbetween⟩

/-- **A delimiter stands for itself.** -/
theorem lowerOf_upperOf_of_isDelimiter {c : Char} (h : IsDelimiter c) :
    lowerOf c = [c] ∧ upperOf c = [c] := by
  have hspans : leadFromOutside lowerRuns lowerExpansions delimiterSpans = true ∧
      leadFromOutside upperRuns upperExpansions delimiterSpans = true := by
    decide +kernel
  exact ⟨mapCase_of_leadFromOutside hspans.1 h, mapCase_of_leadFromOutside hspans.2 h⟩

/-- **No other character becomes a delimiter.** -/
theorem eq_of_isDelimiter {c d : Char} (hmem : d ∈ lowerOf c ∨ d ∈ upperOf c)
    (hd : IsDelimiter d) : d = c := by
  have hspans : leadOutside lowerRuns lowerExpansions delimiterSpans = true ∧
      leadOutside upperRuns upperExpansions delimiterSpans = true := by
    decide +kernel
  rcases hmem with hlower | hupper
  · exact tablesSettle_lower.eq_of_mem_mapCase hspans.1 hlower hd
  · exact tablesSettle_upper.eq_of_mem_mapCase hspans.2 hupper hd

end Bibliography.Unicode
