import Bibliography.Proofs.Person.Printing

set_option autoImplicit false

/-! # How a name is divided

Reading a name divides the words of its segments among the five parts of a person. None is lost, put
twice or moved, and what is said of the parts (`DividesWhole`, `DividesParted`) leaves no choice: a
person divides the words of a name exactly if it is the one that is read. The three searches of the
reader come down to two facts about rows of words, where a row starts that has to start with a small
word, and where one ends that has to end with one.

Main statement: `read_divides`.
-/

namespace Bibliography.Person

open Tex

/-! ## What a division is -/

/-- The parts of a person are in the order that every form has. The last name is taken from the
words `source`, and only its final word may be a small one. -/
structure Ordered (source : List Text) (p : Person) : Prop where
  first : p.first.length ≤ 1
  middle : p.first = [] → p.middle = []
  last : p.last = [] → source = []
  smallLast : ∀ w ∈ p.last.dropLast, isSmallWord w = false
  prelast : ∀ w ∈ p.prelast.getLast?, isSmallWord w = true

/-- A person divides the words of a name without commas. -/
structure DividesWhole (words : List Text) (p : Person) : Prop extends Ordered words p where
  words : p.first ++ p.middle ++ p.prelast ++ p.last = words
  lineage : p.lineage = []
  given : ∀ w ∈ p.first ++ p.middle, isSmallWord w = false
  prelastStart : ∀ w ∈ p.prelast.head?, isSmallWord w = true
  /-- Without small words all but one of the words are given names. -/
  lastAlone : p.prelast = [] → p.last.length ≤ 1

/-- A person divides the words of a name with commas, segment by segment. -/
structure DividesParted (vonLast lineage given : List Text) (p : Person) : Prop
    extends Ordered vonLast p where
  vonLast : p.prelast ++ p.last = vonLast
  given : p.first ++ p.middle = given
  lineage : p.lineage = lineage

/-- A person divides the words of the segments of a name, of which there are three at most. -/
def Divides : List (List Text) → Person → Prop
  | [whole], p => DividesWhole whole p
  | [vonLast, given], p => DividesParted vonLast [] given p
  | [vonLast, lineage, given], p => DividesParted vonLast lineage given p
  | _, _ => False

/-! ## Rows of words -/

/-- Where a list is cut before its first element with a property. -/
theorem takeWhile_dropWhile_eq_iff {q : Text → Bool} {words a b : List Text} :
    (words.takeWhile (!q ·) = a ∧ words.dropWhile (!q ·) = b) ↔
      a ++ b = words ∧ (∀ w ∈ a, q w = false) ∧ ∀ w ∈ b.head?, q w = true := by
  constructor
  · rintro ⟨rfl, rfl⟩
    refine ⟨List.takeWhile_append_dropWhile, fun w hw => ?_, fun w hw => ?_⟩
    · simpa using List.all_eq_true.1 List.all_takeWhile w hw
    · simpa using Text.eq_false_of_mem_head?_dropWhile hw
  · rintro ⟨rfl, ha, hb⟩
    have ha : ∀ w ∈ a, (!q w) = true := fun w hw => by rw [ha w hw, Bool.not_false]
    rw [List.takeWhile_append_of_pos ha, List.dropWhile_append_of_pos ha]
    cases b with
    | nil => exact ⟨List.append_nil a, rfl⟩
    | cons w b =>
      have hw : ¬ (!q w) = true := by simp [hb w rfl]
      rw [List.takeWhile_cons_of_neg (p := (!q ·)) hw,
        List.dropWhile_cons_of_neg (p := (!q ·)) hw, List.append_nil]
      exact ⟨rfl, rfl⟩

/-- Where a list is cut after its last element with a property. -/
theorem splitAfterLast_eq_iff {q : Text → Bool} {words a b : List Text} :
    splitAfterLast q words = (a, b) ↔
      a ++ b = words ∧ (∀ w ∈ b, q w = false) ∧ ∀ w ∈ a.getLast?, q w = true := by
  -- from behind, the list is cut before the first such element
  have hcut : words.reverse.takeWhile (!q ·) = b.reverse ∧
      words.reverse.dropWhile (!q ·) = a.reverse ↔ _ := takeWhile_dropWhile_eq_iff
  rw [← List.reverse_append, List.reverse_inj, List.head?_reverse] at hcut
  simp only [List.mem_reverse] at hcut
  rw [← hcut, splitAfterLast, Prod.mk.injEq, List.reverse_eq_iff, List.reverse_eq_iff, and_comm]

/-- The first word of a row and the others. -/
theorem take_drop_eq_iff {words first middle : List Text} :
    (words.take 1 = first ∧ words.drop 1 = middle) ↔
      first ++ middle = words ∧ first.length ≤ 1 ∧ (first = [] → middle = []) := by
  constructor
  · rintro ⟨rfl, rfl⟩
    refine ⟨List.take_append_drop 1 words, List.length_take_le 1 words, fun hnil => ?_⟩
    cases words with
    | nil => rfl
    | cons w words => cases hnil
  · rintro ⟨rfl, hlength, hnil⟩
    match first with
    | [] => rw [hnil rfl]; exact ⟨rfl, rfl⟩
    | [w] => exact ⟨rfl, rfl⟩
    | _ :: _ :: _ => simp at hlength

/-! ## The small words and the last name -/

/-- The words before a comma are divided in one way. -/
theorem ofVonLast_eq_iff {words prelast last : List Text} :
    ofVonLast words = { prelast := prelast, last := last } ↔
      prelast ++ last = words ∧ (last = [] → words = []) ∧
        (∀ w ∈ last.dropLast, isSmallWord w = false) ∧
        ∀ w ∈ prelast.getLast?, isSmallWord w = true := by
  rcases List.eq_nil_or_concat' words with rfl | ⟨init, final, rfl⟩
  · -- no word belongs to either
    constructor
    · intro h
      obtain ⟨rfl, rfl⟩ : [] = prelast ∧ [] = last := by simpa [ofVonLast] using h
      simp
    · rintro ⟨hwords, -⟩
      obtain ⟨rfl, rfl⟩ := List.append_eq_nil_iff.1 hwords
      rfl
  · have hconcat : ofVonLast (init ++ [final]) = { prelast := prelast, last := last } ↔
        ∃ rest, last = rest ++ [final] ∧ splitAfterLast isSmallWord init = (prelast, rest) := by
      rw [ofVonLast_concat, withLast]
      constructor
      · intro h
        obtain ⟨rfl, rfl⟩ : _ = prelast ∧ _ = last := by simpa using h
        exact ⟨_, rfl, rfl⟩
      · rintro ⟨rest, rfl, hsplit⟩
        rw [hsplit]
    rw [hconcat]
    constructor
    · rintro ⟨rest, rfl, hsplit⟩
      obtain ⟨rfl, hrest, hprelast⟩ := splitAfterLast_eq_iff.1 hsplit
      refine ⟨(List.append_assoc _ _ _).symm, by simp, ?_, hprelast⟩
      rwa [List.dropLast_concat]
    · rintro ⟨hwords, hne, hlast, hprelast⟩
      -- the last name has a word, since there is one, and ends with the final word
      rcases List.eq_nil_or_concat' last with rfl | ⟨rest, w, rfl⟩
      · exact absurd (hne rfl) (by simp)
      · rw [← List.append_assoc] at hwords
        obtain ⟨rfl, hw⟩ := List.append_inj' hwords rfl
        obtain rfl := List.singleton_inj.1 hw
        rw [List.dropLast_concat] at hlast
        exact ⟨rest, rfl, splitAfterLast_eq_iff.2 ⟨rfl, hlast, hprelast⟩⟩

/-- Before a comma there are small words and a last name only. -/
theorem ofVonLast_eq_mk (words : List Text) :
    ofVonLast words = { prelast := (ofVonLast words).prelast, last := (ofVonLast words).last } := by
  rw [ofVonLast]
  split <;> rfl

/-! ## Names -/

/-- With commas the segments are divided one by one. -/
theorem withFirst_eq_iff_dividesParted {vonLast lineage given : List Text} {p : Person} :
    withFirst given { ofVonLast vonLast with lineage := lineage } = p ↔
      DividesParted vonLast lineage given p := by
  have hparts : withFirst given { ofVonLast vonLast with lineage := lineage } = p ↔
      (given.take 1 = p.first ∧ given.drop 1 = p.middle) ∧
        ofVonLast vonLast = { prelast := p.prelast, last := p.last } ∧ p.lineage = lineage := by
    rw [ofVonLast_eq_mk]
    obtain ⟨first, middle, prelast, last, lineage'⟩ := p
    simp only [withFirst, mk.injEq, true_and, and_true, and_assoc, eq_comm (a := lineage)]
  rw [hparts, take_drop_eq_iff, ofVonLast_eq_iff]
  constructor
  · rintro ⟨⟨hgiven, hfirst, hmiddle⟩, ⟨hwords, hlast, hsmall, hprelast⟩, hlineage⟩
    exact ⟨⟨hfirst, hmiddle, hlast, hsmall, hprelast⟩, hwords, hgiven, hlineage⟩
  · rintro ⟨⟨hfirst, hmiddle, hlast, hsmall, hprelast⟩, hwords, hgiven, hlineage⟩
    exact ⟨⟨hgiven, hfirst, hmiddle⟩, ⟨hwords, hlast, hsmall, hprelast⟩, hlineage⟩

/-- The person of a name without commas, by where the small words start. -/
theorem ofFirstVonLast_eq_iff {init : List Text} {final : Text} {p : Person} :
    ofFirstVonLast (init ++ [final]) = p ↔
      ∃ given rest, (init.takeWhile (!isSmallWord ·) = given ∧
          init.dropWhile (!isSmallWord ·) = rest) ∧
        withFirst given { ofVonLast (rest ++ [final]) with lineage := [] } = p := by
  simp only [ofFirstVonLast_concat, ofVonLast_concat]
  constructor
  · rintro rfl
    exact ⟨_, _, ⟨rfl, rfl⟩, rfl⟩
  · rintro ⟨given, rest, ⟨rfl, rfl⟩, rfl⟩
    rfl

/-- Words of which no small one follows the small words start with a small one if these do and
nothing else is left without them. -/
theorem head?_append_isSmallWord_iff {prelast rest : List Text}
    (hrest : ∀ w ∈ rest, isSmallWord w = false) :
    (∀ w ∈ (prelast ++ rest).head?, isSmallWord w = true) ↔
      (∀ w ∈ prelast.head?, isSmallWord w = true) ∧ (prelast = [] → rest = []) := by
  cases prelast with
  | nil =>
    cases rest with
    | nil => simp
    | cons w rest => simp [hrest w List.mem_cons_self]
  | cons w prelast => simp

/-- Where the parts behind the given names end. -/
theorem exists_of_append_eq_concat {prelast last rest : List Text} {final : Text}
    (hne : last ≠ []) (h : prelast ++ last = rest ++ [final]) :
    ∃ inner, last = inner ++ [final] ∧ prelast ++ inner = rest := by
  rcases List.eq_nil_or_concat' last with rfl | ⟨inner, w, rfl⟩
  · exact absurd rfl hne
  · rw [← List.append_assoc] at h
    obtain ⟨hrest, hw⟩ := List.append_inj' h rfl
    exact ⟨inner, by rw [List.singleton_inj.1 hw], hrest⟩

/-- Without commas the given names go up to the first small word, and the rest is divided as before
a comma. -/
theorem dividesWhole_concat_iff {init : List Text} {final : Text} {p : Person} :
    DividesWhole (init ++ [final]) p ↔
      ∃ given rest, (given ++ rest = init ∧ (∀ w ∈ given, isSmallWord w = false) ∧
          ∀ w ∈ rest.head?, isSmallWord w = true) ∧
        DividesParted (rest ++ [final]) [] given p := by
  constructor
  · intro h
    have hne : p.last ≠ [] := fun hnil => by simpa using h.last hnil
    obtain ⟨inner, hlast, hinit⟩ := exists_of_append_eq_concat hne h.words
    have hinner : ∀ w ∈ inner, isSmallWord w = false := by
      simpa [hlast] using h.smallLast
    have hstart : ∀ w ∈ (p.prelast ++ inner).head?, isSmallWord w = true := by
      refine (head?_append_isSmallWord_iff hinner).2 ⟨h.prelastStart, fun hnil => ?_⟩
      simpa [hlast] using h.lastAlone hnil
    refine ⟨p.first ++ p.middle, p.prelast ++ inner, ⟨?_, h.given, hstart⟩, ?_⟩
    · rw [← List.append_assoc, hinit]
    · exact { h with
        last := fun hnil => absurd hnil hne
        vonLast := by rw [hlast, List.append_assoc]
        given := rfl }
  · rintro ⟨given, rest, ⟨rfl, hgiven, hstart⟩, h⟩
    have hne : p.last ≠ [] := fun hnil => by simpa using h.last hnil
    obtain ⟨inner, hlast, rfl⟩ := exists_of_append_eq_concat hne h.vonLast
    have hinner : ∀ w ∈ inner, isSmallWord w = false := by
      simpa [hlast] using h.smallLast
    obtain ⟨hprelastStart, halone⟩ := (head?_append_isSmallWord_iff hinner).1 hstart
    exact { h with
      last := fun hnil => absurd hnil hne
      words := by rw [h.given, hlast]; simp only [List.append_assoc]
      given := h.given ▸ hgiven
      prelastStart := hprelastStart
      lastAlone := fun hnil => by simp [hlast, halone hnil] }

/-- **The words of a name without commas are divided in one way.** -/
theorem ofFirstVonLast_eq_iff_dividesWhole {words : List Text} {p : Person} :
    ofFirstVonLast words = p ↔ DividesWhole words p := by
  rcases List.eq_nil_or_concat' words with rfl | ⟨init, final, rfl⟩
  · constructor
    · rintro rfl
      exact ⟨⟨Nat.zero_le 1, fun _ => rfl, fun _ => rfl, by simp [ofFirstVonLast],
        by simp [ofFirstVonLast]⟩, rfl, rfl, by simp [ofFirstVonLast], by simp [ofFirstVonLast],
        fun _ => Nat.zero_le 1⟩
    · intro h
      -- a name without words has no parts
      have hwords := h.words
      have hlineage := h.lineage
      cases p
      simp_all [ofFirstVonLast]
  · rw [ofFirstVonLast_eq_iff, dividesWhole_concat_iff]
    refine exists_congr fun given => exists_congr fun rest => ?_
    rw [takeWhile_dropWhile_eq_iff, withFirst_eq_iff_dividesParted]

/-- **The words of the segments of a name are divided in one way**, if there are not too many
segments. -/
theorem ofWords?_eq_some_iff_divides {names : List (List Text)} {p : Person} :
    ofWords? names = some p ↔ Divides names p := by
  match names with
  | [] => simp [ofWords?, Divides]
  | [whole] => rw [ofWords?, Divides, Option.some_inj, ofFirstVonLast_eq_iff_dividesWhole]
  | [vonLast, given] =>
    rw [ofWords?, Divides, Option.some_inj, ← withFirst_eq_iff_dividesParted, ofVonLast_eq_mk]
  | [vonLast, lineage, given] =>
    rw [ofWords?, Divides, Option.some_inj, withFirst_eq_iff_dividesParted]
  | _ :: _ :: _ :: _ :: _ => simp [ofWords?, Divides]

theorem ofWords?_eq_none_iff {names : List (List Text)} (hne : names ≠ []) :
    ofWords? names = none ↔ 3 < names.length := by
  match names with
  | [] => exact absurd rfl hne
  | [_] | [_, _] | [_, _, _] => simp [ofWords?]
  | _ :: _ :: _ :: _ :: _ => simp [ofWords?]

/-! ## Segments -/

/-- **A name that is read is divided, and in no other way.** Reading fails exactly if the trimmed
name has more than three segments between its commas. Otherwise the person is the one that divides
the words of the segments; if there is one segment, that is the trimmed name. -/
theorem read_divides (name : Text) :
    (∀ e, read name = .error e ↔
      e = .invalidName name.trim ∧ 3 < (splitSegments name.trim).length) ∧
    (∀ p, read name = .ok p ↔ Divides ((splitSegments name.trim).map splitWords) p) ∧
    ∀ whole, splitSegments name.trim = [whole] → whole = name.trim := by
  have hne : (splitSegments name.trim).map splitWords ≠ [] := by
    rw [splitSegments, Ne, List.map_eq_nil_iff, List.map_eq_nil_iff]
    exact splitAtLevel0From_ne_nil _ 0 _
  have hnone := ofWords?_eq_none_iff hne
  rw [List.length_map, ← ofText?_eq_ofWords?_splitSegments] at hnone
  refine ⟨fun e => ?_, fun p => ?_, fun whole hwhole => ?_⟩
  · rw [← hnone, Person.read]
    cases ofText? name with
    | none => simp [eq_comm]
    | some p => simp
  · rw [← ofWords?_eq_some_iff_divides, ← ofText?_eq_ofWords?_splitSegments, Person.read]
    cases ofText? name <;> simp
  · obtain ⟨part, hpart, rfl⟩ := List.map_eq_singleton_iff.1 hwhole
    rw [eq_of_splitAtLevel0From_eq_singleton hpart, trim_trim]

/-- A name with a small word in braces, which is none, with a capital one between the small words,
and with a small one at its end. -/
def laFontaineName : Text := " Jean {du} de~Saint la fontaine".toList

def laFontaine : Person :=
  { first := ["Jean".toList], middle := ["{du}".toList]
    prelast := ["de".toList, "Saint".toList, "la".toList], last := ["fontaine".toList] }

/-- The name has one segment, and its words are divided in no other way. -/
theorem read_divides_laFontaine :
    splitSegments laFontaineName.trim = [laFontaineName.trim] ∧
      ∀ p, Divides [splitWords laFontaineName.trim] p ↔ p = laFontaine := by
  have hone : splitSegments laFontaineName.trim =
      ["Jean {du} de~Saint la fontaine".toList] := by decide +kernel
  have hread : read laFontaineName = .ok laFontaine := by decide +kernel
  obtain ⟨-, hdivides, hwhole⟩ := read_divides laFontaineName
  have hwhole := hwhole _ hone
  rw [hone, hread, hwhole] at hdivides
  refine ⟨hwhole ▸ hone, fun p => (hdivides p).symm.trans ?_⟩
  exact ⟨fun h => (Except.ok.inj h).symm, fun h => h ▸ rfl⟩

end Bibliography.Person
