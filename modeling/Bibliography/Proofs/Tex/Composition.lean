import Bibliography.Proofs.Tex.Scan
import Bibliography.Tex.Case
import Bibliography.Tex.Measure
import Bibliography.Tex.Purified

set_option autoImplicit false

/-! # Texts put together

A text can be read in two parts if the first leaves no brace open: the units of both are the units
of the whole, the second ones further on by the bytes of the first part. No other cut is as good,
because a unit of the second part would sit at another level (`scan_append_iff`). What is computed
unit by unit is then computed from both parts: length, width, purified texts, and changes of case
that do not remember what stood before.

Main statement: `scanPlaced_append`.
-/

namespace Bibliography.Tex

/-! ## Units -/

/-- **Where no brace is open, and only there, any text can be read apart from what follows.** -/
theorem scan_append_iff (a : Text) :
    (∀ b, scan (a ++ b) = scan a ++ scan b) ↔ depth a = 0 := by
  constructor
  · intro h
    -- a character behind the text has the level 0 only if the text ends there
    have hrow := row_scan (a ++ ['x'])
    rw [h] at hrow
    obtain ⟨n, hfirst, hlast⟩ := hrow.split
    have hdepth := hfirst.openBraces_texts
    rw [texts_scan, ← depth_eq_openBraces] at hdepth
    rw [hdepth]
    cases hlast
    rfl
  · intro h b
    have hfirst := row_scan a
    rw [h] at hfirst
    have hscan := (hfirst.append (row_scan b)).scan_texts
    rwa [texts_append, texts_scan, texts_scan] at hscan

/-! ## Places -/

/-- A unit further on by a number of bytes. -/
def PlacedUnit.shift (n : Nat) (p : PlacedUnit) : PlacedUnit := ⟨p.unit, n + p.start, n + p.stop⟩

theorem place_append (start : Nat) (us vs : List TexUnit) :
    place start (us ++ vs) = place start us ++ place (start + (TexUnit.texts us).size) vs := by
  induction us generalizing start with
  | nil => rfl
  | cons u us ih =>
    rw [List.cons_append, place, place, ih, texts_cons, Text.size_append, Nat.add_assoc]
    rfl

theorem place_add (n start : Nat) (us : List TexUnit) :
    place (n + start) us = (place start us).map (PlacedUnit.shift n) := by
  induction us generalizing start with
  | nil => rfl
  | cons u us ih =>
    rw [place, place, List.map_cons, Nat.add_assoc, ih]
    rfl

/-! ## What is computed unit by unit -/

/-- The width of a row is that of its units together. -/
theorem foldr_width (us : List TexUnit) (n : Nat) :
    us.foldr (fun u total => u.width + total) n =
      us.foldr (fun u total => u.width + total) 0 + n := by
  induction us with
  | nil => rw [List.foldr_nil, List.foldr_nil, Nat.zero_add]
  | cons u us ih => rw [List.foldr_cons, List.foldr_cons, ih, Nat.add_assoc]

/-- Only titles remember what stood before a unit. -/
theorem changeCase_of_ne_title {mode : CaseMode} (hmode : mode ≠ .title) (u : TexUnit)
    (st st' : TitleState) : u.changeCase mode st = u.changeCase mode st' := by
  simp [TexUnit.changeCase, hmode]

theorem changeUnits_of_ne_title {mode : CaseMode} (hmode : mode ≠ .title) (st : TitleState)
    (us : List TexUnit) : changeUnits mode st us = us.flatMap (TexUnit.changeCase mode .start) := by
  induction us generalizing st with
  | nil => rfl
  | cons u us ih =>
    rw [changeUnits, List.flatMap_cons, ih, changeCase_of_ne_title hmode u st .start]

section

variable {a : Text} (ha : depth a = 0)
include ha

theorem length_append (b : Text) : length (a ++ b) = length a + length b := by
  rw [length, (scan_append_iff a).2 ha b, List.countP_append]
  rfl

theorem purify_append (b : Text) : purify (a ++ b) = purify a ++ purify b := by
  rw [purify, (scan_append_iff a).2 ha b, List.flatMap_append]
  rfl

end

/-- **A text that leaves no brace open can be put before any other.** The units of both are those of
the whole, the second ones further on by the bytes of the first text. So lengths and widths add up,
and purified texts and those in lower or upper case are put together of their parts. -/
theorem scanPlaced_append {a : Text} (ha : depth a = 0) (b : Text) :
    scanPlaced (a ++ b) = scanPlaced a ++ (scanPlaced b).map (PlacedUnit.shift a.size) ∧
    length (a ++ b) = length a + length b ∧
    width (a ++ b) = width a + width b ∧
    purify (a ++ b) = purify a ++ purify b ∧
    ∀ mode, mode ≠ .title → changeCase (a ++ b) mode = changeCase a mode ++ changeCase b mode := by
  have hscan := (scan_append_iff a).2 ha b
  refine ⟨?_, ?_, ?_, ?_, fun mode hmode => ?_⟩
  · rw [scanPlaced, hscan, place_append, texts_scan, Nat.add_comm, place_add]
    rfl
  · exact length_append ha b
  · rw [width, hscan, List.foldr_append, foldr_width]
    rfl
  · exact purify_append ha b
  · simp only [changeCase, changeUnits_of_ne_title hmode, hscan, List.flatMap_append]

/-- A text with a closing brace that closes nothing stands before one that leaves a special
character open. -/
theorem scanPlaced_append_unbalanced :
    depth "\x7d\x7b\\v E\x7d".toList = 0 ∧
      scanPlaced ("\x7d\x7b\\v E\x7d".toList ++ "\x7b\\O B".toList) =
        scanPlaced "\x7d\x7b\\v E\x7d".toList ++
          (scanPlaced "\x7b\\O B".toList).map (PlacedUnit.shift 7) ∧
      changeCase ("\x7d\x7b\\v E\x7d".toList ++ "\x7b\\O B".toList) .lower =
        "\x7d\x7b\\v e\x7d\x7b\\O b".toList :=
  ⟨by decide, (scanPlaced_append (by decide) _).1,
    ((scanPlaced_append (by decide) _).2.2.2.2 .lower (by decide)).trans (by decide)⟩

end Bibliography.Tex
