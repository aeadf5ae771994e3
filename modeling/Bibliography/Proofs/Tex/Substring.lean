import Bibliography.Integer
import Bibliography.Proofs.Tex.Composition
import Bibliography.Proofs.Tex.Prefix
import Bibliography.Proofs.Tex.Structure

set_option autoImplicit false

/-! # Parts of a text

A part of a text is cut out between two of its units. Which units these are is computed from a
position and a length (`rangeOf?`); here it is computed once more with integers of 64 bits, one
operation at a time, and from the units the bytes where the part starts and ends. No operation
leaves the 64 bits, and the bytes are ends of characters with the part between them
(`exists_byteBounds?`).

Between two parts that take up all units of a text stand nothing but braces, and a part that is
counted from the end is a part that is counted from the start.

Main statement: `substring_laws`.
-/

namespace Bibliography.Tex

open NameFormat (isBrace)

/-! ## Rows cut at a unit -/

theorem takeUnits_append_dropUnits (n : Nat) (us : List TexUnit) :
    takeUnits n us ++ dropUnits n us = us := by
  induction us generalizing n with
  | nil => cases n <;> rfl
  | cons u us ih =>
    cases n with
    | zero => rfl
    | succ n =>
      rw [takeUnits, dropUnits]
      split <;> rw [List.cons_append, ih]

/-- A row with the unit number `n` that is no brace, counted from 0: what stands before it, the
unit, and what stands behind it. -/
structure SplitAt (us : List TexUnit) (n : Nat) (before : List TexUnit) (u : TexUnit)
    (after : List TexUnit) : Prop where
  eq : us = before ++ u :: after
  count : countUnits before = n
  not_isBrace : u.isBrace = false

theorem exists_splitAt {us : List TexUnit} {n : Nat} (h : n < countUnits us) :
    ∃ before u after, SplitAt us n before u after := by
  induction us generalizing n with
  | nil => cases h
  | cons u us ih =>
    cases hbrace : u.isBrace with
    | true =>
      rw [countUnits_cons_of_isBrace hbrace] at h
      obtain ⟨before, v, after, rfl, rfl, hv⟩ := ih h
      exact ⟨u :: before, v, after, rfl, countUnits_cons_of_isBrace hbrace before, hv⟩
    | false =>
      rw [countUnits_cons_of_not_isBrace hbrace] at h
      cases n with
      | zero => exact ⟨[], u, us, rfl, rfl, hbrace⟩
      | succ n =>
        obtain ⟨before, v, after, rfl, rfl, hv⟩ := ih (Nat.lt_of_succ_lt_succ h)
        exact ⟨u :: before, v, after, rfl, countUnits_cons_of_not_isBrace hbrace before, hv⟩

/-- Units are taken beyond a start of the row as they are from its rest. -/
theorem takeUnits_append (before us : List TexUnit) (k : Nat) :
    takeUnits (countUnits before + (k + 1)) (before ++ us) = before ++ takeUnits (k + 1) us := by
  induction before with
  | nil => rw [countUnits_nil, Nat.zero_add, List.nil_append, List.nil_append]
  | cons u before ih =>
    cases hbrace : u.isBrace with
    | true =>
      rw [countUnits_cons_of_isBrace hbrace, ← Nat.add_assoc, List.cons_append, takeUnits,
        if_pos hbrace, Nat.add_assoc, ih]
      rfl
    | false =>
      rw [countUnits_cons_of_not_isBrace hbrace, Nat.add_right_comm, List.cons_append, takeUnits,
        hbrace, if_neg Bool.false_ne_true, ih]
      rfl

theorem SplitAt.takeUnits_eq {us before after : List TexUnit} {n : Nat} {u : TexUnit}
    (h : SplitAt us n before u after) : takeUnits (n + 1) us = before ++ [u] := by
  obtain ⟨rfl, rfl, hu⟩ := h
  rw [takeUnits_append before (u :: after) 0, takeUnits, hu, if_neg Bool.false_ne_true, takeUnits]

theorem SplitAt.dropUnits_eq {us before after : List TexUnit} {n : Nat} {u : TexUnit}
    (h : SplitAt us n before u after) :
    (dropUnits n us).dropWhile TexUnit.isBrace = u :: after := by
  obtain ⟨rfl, rfl, hu⟩ := h
  induction before with
  | nil => exact List.dropWhile_cons_of_neg (by simp [hu])
  | cons v before ih =>
    cases hbrace : v.isBrace with
    | true =>
      rw [countUnits_cons_of_isBrace hbrace, List.cons_append]
      cases hn : countUnits before with
      | zero =>
        rw [hn, dropUnits] at ih
        rw [dropUnits, List.dropWhile_cons_of_pos hbrace, ih]
      | succ n =>
        rw [hn] at ih
        rw [dropUnits, if_pos hbrace, ih]
    | false =>
      rw [countUnits_cons_of_not_isBrace hbrace, List.cons_append, dropUnits, hbrace,
        if_neg Bool.false_ne_true, ih]

/-- **A range of units** stands between the units before its first one and those up to its last one;
where it touches an end of the row, it takes in the braces there. -/
theorem exists_of_unitRange {us a b a' b' : List TexUnit} {u v : TexUnit} {first last : Nat}
    (hfirst : SplitAt us first a u b) (hlast : SplitAt us last a' v b') (hle : first ≤ last) :
    ∃ after, us = (if first = 0 then [] else a) ++
        unitRange us (countUnits us) first last ++ after ∧
      (if first = 0 then [] else a) ++ unitRange us (countUnits us) first last =
        if last + 1 = countUnits us then us else a' ++ [v] := by
  -- the row from the first unit of the range on, with the braces before it if it is the first one
  obtain ⟨tail, htail, hcount, hsplit⟩ : ∃ tail,
      (if first = 0 then us else (dropUnits first us).dropWhile TexUnit.isBrace) = tail ∧
      countUnits (if first = 0 then [] else a) = first ∧
      (if first = 0 then [] else a) ++ tail = us := by
    by_cases h0 : first = 0
    · exact ⟨us, if_pos h0, by rw [if_pos h0, h0]; rfl, by rw [if_pos h0]; rfl⟩
    · refine ⟨u :: b, by rw [if_neg h0, hfirst.dropUnits_eq], ?_, ?_⟩
      · rw [if_neg h0, hfirst.count]
      · rw [if_neg h0, ← hfirst.eq]
  generalize (if first = 0 then [] else a) = before at hcount hsplit ⊢
  rw [unitRange, htail]
  by_cases hend : last + 1 = countUnits us
  · rw [if_pos hend, if_pos hend]
    exact ⟨[], by rw [hsplit, List.append_nil], hsplit⟩
  · rw [if_neg hend, if_neg hend]
    have htaken : before ++ takeUnits (last + 1 - first) tail = a' ++ [v] := by
      have hlength : last + 1 - first = (last - first) + 1 := by omega
      have htotal : countUnits before + (last - first + 1) = last + 1 := by omega
      rw [hlength, ← takeUnits_append, htotal, hsplit, hlast.takeUnits_eq]
    exact ⟨b', by rw [htaken, hlast.eq, List.append_assoc]; rfl, htaken⟩

/-! ## Places of units -/

def placedUnits (s : Text) : List PlacedUnit := (scanPlaced s).filter (!·.unit.isBrace)

theorem length_filter_place (start : Nat) (us : List TexUnit) :
    ((place start us).filter (!·.unit.isBrace)).length = countUnits us := by
  rw [← List.countP_eq_length_filter, countUnits]
  conv_rhs => rw [← map_unit_place start us]
  rw [List.countP_map]
  rfl

theorem SplitAt.getElem?_place {us before after : List TexUnit} {n : Nat} {u : TexUnit}
    (h : SplitAt us n before u after) (start : Nat) :
    ((place start us).filter (!·.unit.isBrace))[n]? =
      some ⟨u, start + (TexUnit.texts before).size,
        start + (TexUnit.texts (before ++ [u])).size⟩ := by
  obtain ⟨rfl, rfl, hu⟩ := h
  rw [place_append, place, List.filter_append, List.filter_cons_of_pos (by simp [hu]),
    ← length_filter_place start before, List.getElem?_append_right (Nat.le_refl _), Nat.sub_self,
    List.getElem?_cons_zero, texts_append, Text.size_append, texts_cons]
  simp [TexUnit.texts, Nat.add_assoc]

/-! ## Computed with 64 bits -/

/-- An integer, if 64 bits hold it. -/
def word? (n : Int) : Option Int := if inRange n then some n else none

/-- The range of units of `rangeOf?` for `0 < count`, computed one operation at a time. The outer
`none` is an operation that leaves the 64 bits, the inner one a range without units. -/
def wordRange? (count start len : Int) : Option (Option (Int × Int)) :=
  if 0 < start then do
    let first ← word? (start - 1)
    if count ≤ first then
      return none
    else
      let room ← word? (count - first)
      let stop ← word? (first + min len room)
      let last ← word? (stop - 1)
      return some (first, last)
  else do
    let last ← word? (count + start)
    if last < 0 then
      return none
    else
      let room ← word? (last + 1)
      let before ← word? (last - min len room)
      let first ← word? (before + 1)
      return some (first, last)

/-- The unit with a given number, counted from 0; there is none with a negative number. -/
def unitAt? (units : List PlacedUnit) (n : Int) : Option PlacedUnit :=
  if n < 0 then none else units[n.toNat]?

/-- The byte where the unit number `first` starts, or the text if it is the first one. -/
def startByte? (s : Text) (first : Int) : Option Nat :=
  if first = 0 then some 0 else (unitAt? (placedUnits s) first).map PlacedUnit.start

/-- The byte where the unit number `last` ends, or the text if it is the last of `count` ones. -/
def stopByte? (s : Text) (count last : Int) : Option Nat :=
  if last = count - 1 then some s.size else (unitAt? (placedUnits s) last).map PlacedUnit.stop

/-- The bytes where a part of a text starts and ends, computed with 64 bits. The outer `none` is an
operation that leaves them or a unit that is not there, the inner one an empty part. -/
def byteBounds? (s : Text) (start len : Int) : Option (Option (Nat × Nat)) := do
  let count ← word? (placedUnits s).length
  if len ≤ 0 ∨ count = 0 then
    return none
  else
    match ← wordRange? count start len with
    | none => return none
    | some (first, last) =>
      let startByte ← startByte? s first
      let _ ← word? (count - 1)
      let stopByte ← stopByte? s count last
      return some (startByte, stopByte)

/-- The part is what stands between the two bytes, in this order and at ends of characters; it is
empty where there are none. -/
def CutsOut (s : Text) : Option (Nat × Nat) → Text → Prop
  | none, part => part = []
  | some (startByte, stopByte), part => ∃ before after, s = before ++ part ++ after ∧
      before.size = startByte ∧ (before ++ part).size = stopByte

theorem cutsOut_append {s pre part rest : Text} (hs : s = pre ++ (part ++ rest)) :
    CutsOut s (some (pre.size, pre.size + part.size)) part :=
  ⟨pre, rest, by rw [hs, List.append_assoc], rfl, Text.size_append pre part⟩

theorem inRange_iff (n : Int) :
    inRange n = true ↔ -9223372036854775808 ≤ n ∧ n ≤ 9223372036854775807 := by
  simp [inRange]

theorem word?_of_inRange {n : Int} (h : inRange n = true) : word? n = some n := if_pos h

/-- A range lies within the units. -/
theorem rangeOf?_bounds {count first last : Nat} {start len : Int}
    (h : rangeOf? count start len = some (first, last)) : first ≤ last ∧ last < count := by
  rw [rangeOf?] at h
  split at h
  · cases h
  · split at h
    · split at h
      · cases h
      · cases h
        omega
    · split at h
      · cases h
      · cases h
        omega

/-- **No operation leaves the 64 bits**, and the range is the one without this limit. -/
theorem wordRange?_eq {count : Nat} {start len : Int} (hcount : inRange count = true)
    (hstart : inRange start = true) (hne : start ≠ 0) (hlen : 0 < len) :
    wordRange? count start len =
      some ((rangeOf? count start len).map fun p => ((p.1 : Int), (p.2 : Int))) := by
  have hwords : ∀ n : Int, -9223372036854775808 ≤ n → n ≤ 9223372036854775807 →
      word? n = some n := fun n hlow hhigh => word?_of_inRange ((inRange_iff n).2 ⟨hlow, hhigh⟩)
  rw [inRange_iff] at hcount hstart
  have hsome : ¬ len ≤ 0 := Int.not_le.2 hlen
  rw [wordRange?, rangeOf?, if_neg hsome]
  by_cases hpos : 0 < start
  · rw [if_pos hpos, if_pos hpos, hwords (start - 1) (by omega) (by omega)]
    simp only [Option.bind_eq_bind, Option.bind_some]
    by_cases hbeyond : (count : Int) < start
    · have hbeyond' : (count : Int) ≤ start - 1 := by omega
      rw [if_pos hbeyond, if_pos hbeyond']
      rfl
    · have hwithin : ¬ (count : Int) ≤ start - 1 := by omega
      rw [if_neg hbeyond, if_neg hwithin, hwords (count - (start - 1)) (by omega) (by omega)]
      simp only [Option.bind_some]
      rw [hwords (start - 1 + min len (count - (start - 1))) (by omega) (by omega)]
      simp only [Option.bind_some]
      rw [hwords (start - 1 + min len (count - (start - 1)) - 1) (by omega) (by omega)]
      refine congrArg (fun p => some (some p)) (Prod.ext ?_ ?_) <;> dsimp only <;> omega
  · rw [if_neg hpos, if_neg hpos, hwords (count + start) (by omega) (by omega)]
    simp only [Option.bind_eq_bind, Option.bind_some]
    by_cases hbeyond : (count : Int) + start < 0
    · rw [if_pos hbeyond, if_pos (Or.inl hbeyond)]
      rfl
    · have hwithin : ¬ ((count : Int) + start < 0 ∨ start = 0) := by omega
      rw [if_neg hbeyond, if_neg hwithin, hwords (count + start + 1) (by omega) (by omega)]
      simp only [Option.bind_some]
      rw [hwords (count + start - min len (count + start + 1)) (by omega) (by omega)]
      simp only [Option.bind_some]
      rw [hwords (count + start - min len (count + start + 1) + 1) (by omega) (by omega)]
      refine congrArg (fun p => some (some p)) (Prod.ext ?_ ?_) <;> dsimp only <;> omega

theorem substring_of_rangeOf? {s : Text} {start len : Int} {first last : Nat} (hne : start ≠ 0)
    (h : rangeOf? (length s) start len = some (first, last)) :
    substring s start len =
      .ok (TexUnit.texts (unitRange (scan s) (length s) first last)) := by
  rw [substring, if_neg hne, h]

theorem substring_of_no_range {s : Text} {start len : Int} (hne : start ≠ 0)
    (h : rangeOf? (length s) start len = none) : substring s start len = .ok [] := by
  rw [substring, if_neg hne, h]

theorem unitAt?_natCast (units : List PlacedUnit) (n : Nat) : unitAt? units n = units[n]? := by
  rw [unitAt?, if_neg (by omega), Int.toNat_natCast]

/-- A text has no more units than bytes. -/
theorem length_le_size (s : Text) : length s ≤ s.size := by
  have hrow : ∀ us : List TexUnit, (∀ u ∈ us, u.text ≠ []) →
      countUnits us ≤ (TexUnit.texts us).size := by
    intro us
    induction us with
    | nil => exact fun _ => Nat.le_refl 0
    | cons u us ih =>
      intro hus
      rw [List.forall_mem_cons] at hus
      have hrest := ih hus.2
      have hpos := Text.size_pos hus.1
      rw [texts_cons, Text.size_append, countUnits, List.countP_cons, ← countUnits]
      split <;> omega
  have hscan := hrow (scan s) (row_scan s).text_ne_nil
  rwa [texts_scan] at hscan

/-- The bytes of a range of units stand before the range and behind it. -/
theorem exists_bytes_of_range {s : Text} {first last : Nat} (hle : first ≤ last)
    (hlast : last < length s) :
    ∃ startByte stopByte, startByte? s first = some startByte ∧
      stopByte? s (length s) last = some stopByte ∧
      CutsOut s (some (startByte, stopByte))
        (TexUnit.texts (unitRange (scan s) (length s) first last)) := by
  obtain ⟨a, u, b, hfirst⟩ := exists_splitAt (Nat.lt_of_le_of_lt hle hlast)
  obtain ⟨a', v, b', hsplit⟩ := exists_splitAt hlast
  obtain ⟨after, hwhole, hend⟩ := exists_of_unitRange hfirst hsplit hle
  have hstart := hfirst.getElem?_place 0
  have hstop := hsplit.getElem?_place 0
  rw [Nat.zero_add, Nat.zero_add] at hstart hstop
  refine ⟨(TexUnit.texts (if first = 0 then [] else a)).size,
    (TexUnit.texts (if last + 1 = length s then scan s else a' ++ [v])).size, ?_, ?_,
    TexUnit.texts (if first = 0 then [] else a), TexUnit.texts after, ?_, rfl, ?_⟩
  · rw [startByte?, unitAt?_natCast]
    by_cases h0 : first = 0
    · rw [if_pos (Int.natCast_eq_zero.2 h0), if_pos h0]
      rfl
    · rw [if_neg (Int.natCast_eq_zero.not.2 h0), if_neg h0]
      exact congrArg (Option.map PlacedUnit.start) hstart
  · rw [stopByte?, unitAt?_natCast]
    by_cases hlen : last + 1 = length s
    · rw [if_pos (by omega), if_pos hlen, texts_scan]
    · rw [if_neg (by omega), if_neg hlen]
      exact congrArg (Option.map PlacedUnit.stop) hstop
  · rw [← texts_append, ← texts_append]
    exact (texts_scan s).symm.trans (congrArg TexUnit.texts hwhole)
  · rw [← texts_append]
    exact congrArg (fun us => (TexUnit.texts us).size) hend

/-- **The bytes of a part of a text**, computed with 64 bits, cut out the part. -/
theorem exists_byteBounds? {s : Text} (hsize : inRange s.size = true) {start len : Int}
    (hstart : inRange start = true) (hne : start ≠ 0) :
    ∃ bounds? part, byteBounds? s start len = some bounds? ∧ substring s start len = .ok part ∧
      CutsOut s bounds? part := by
  have hcount : inRange (length s) = true ∧ inRange ((length s : Int) - 1) = true := by
    simp only [inRange_iff] at hsize ⊢
    have := length_le_size s
    omega
  have hunits : (placedUnits s).length = length s := length_filter_place 0 (scan s)
  rw [byteBounds?, hunits, word?_of_inRange hcount.1]
  simp only [Option.bind_eq_bind, Option.bind_some]
  by_cases hnone : len ≤ 0 ∨ (length s : Int) = 0
  · -- nothing is asked for, or nothing is there
    rw [if_pos hnone]
    have hrange : rangeOf? (length s) start len = none := by
      rw [rangeOf?]
      grind
    exact ⟨none, [], rfl, substring_of_no_range hne hrange, rfl⟩
  · rw [if_neg hnone, wordRange?_eq hcount.1 hstart hne (by omega)]
    cases hrange : rangeOf? (length s) start len with
    | none => exact ⟨none, [], rfl, substring_of_no_range hne hrange, rfl⟩
    | some range =>
      obtain ⟨first, last⟩ := range
      obtain ⟨hle, hlast⟩ := rangeOf?_bounds hrange
      obtain ⟨startByte, stopByte, hstartByte, hstopByte, hcuts⟩ := exists_bytes_of_range hle hlast
      refine ⟨some (startByte, stopByte), _, ?_, substring_of_rangeOf? hne hrange, hcuts⟩
      simp only [Option.bind_some, Option.map_some]
      rw [hstartByte, word?_of_inRange hcount.2, hstopByte]
      rfl

/-! ## The laws -/

theorem substring_eq_error_iff (s : Text) (start len : Int) (e : TextError) :
    substring s start len = .error e ↔ start = 0 ∧ e = .substringStartZero := by
  rw [substring]
  by_cases h0 : start = 0
  · rw [if_pos h0, Except.error.injEq]
    exact ⟨fun h => ⟨h0, h.symm⟩, fun h => h.2.symm⟩
  · rw [if_neg h0]
    refine iff_of_false ?_ fun h => h0 h.1
    split <;> exact nofun

theorem substring_of_beyond {s : Text} {start len : Int} (hne : start ≠ 0)
    (h : len ≤ 0 ∨ length s < start.natAbs) : substring s start len = .ok [] := by
  refine substring_of_no_range hne ?_
  rw [rangeOf?]
  grind

/-- All units of a text are the text. -/
theorem substring_one_of_length_le {s : Text} {len : Int} (hpos : 1 ≤ length s)
    (hlen : (length s : Int) ≤ len) : substring s 1 len = .ok s := by
  have hrange : rangeOf? (length s) 1 len = some (0, length s - 1) := by
    rw [rangeOf?, if_neg (by omega), if_pos (by decide), if_neg (by omega)]
    refine congrArg some (Prod.ext ?_ ?_) <;> dsimp only <;> omega
  have hall : unitRange (scan s) (length s) 0 (length s - 1) = scan s := by
    rw [unitRange, if_pos (by omega)]
    rfl
  rw [substring_of_rangeOf? (by decide) hrange, hall, texts_scan]

theorem substring_one_of_lt_length {s : Text} {k : Nat} (hpos : 1 ≤ k) (hk : k < length s) :
    substring s 1 k = .ok (TexUnit.texts (takeUnits k (scan s))) := by
  have hrange : rangeOf? (length s) 1 k = some (0, k - 1) := by
    rw [rangeOf?, if_neg (by omega), if_pos (by decide), if_neg (by omega)]
    refine congrArg some (Prod.ext ?_ ?_) <;> dsimp only <;> omega
  have htaken : unitRange (scan s) (length s) 0 (k - 1) = takeUnits k (scan s) := by
    rw [unitRange, if_neg (by omega), Nat.sub_zero, Nat.sub_add_cancel hpos]
    rfl
  rw [substring_of_rangeOf? (by decide) hrange, htaken]

/-- A text is its first units, its last ones, and braces between them. -/
theorem exists_braces_between (s : Text) {k : Int} (hpos : 1 ≤ k) (hk : k < length s) :
    ∃ before braces after, substring s 1 k = .ok before ∧
      substring s (k + 1) (length s - k) = .ok after ∧
      s = before ++ braces ++ after ∧ ∀ c ∈ braces, isBrace c = true := by
  obtain ⟨k, rfl⟩ := Int.eq_ofNat_of_zero_le (by omega : 0 ≤ k)
  have hafter : rangeOf? (length s) (k + 1) (length s - k) = some (k, length s - 1) := by
    rw [rangeOf?, if_neg (by omega), if_pos (by omega), if_neg (by omega)]
    refine congrArg some (Prod.ext ?_ ?_) <;> dsimp only <;> omega
  have hdropped : unitRange (scan s) (length s) k (length s - 1) =
      (dropUnits k (scan s)).dropWhile TexUnit.isBrace := by
    rw [unitRange, if_pos (by omega), if_neg (by omega)]
  refine ⟨TexUnit.texts (takeUnits k (scan s)),
    TexUnit.texts ((dropUnits k (scan s)).takeWhile TexUnit.isBrace),
    TexUnit.texts ((dropUnits k (scan s)).dropWhile TexUnit.isBrace),
    substring_one_of_lt_length (by omega) (by omega), ?_, ?_, ?_⟩
  · rw [substring_of_rangeOf? (by omega) hafter, hdropped]
  · rw [← texts_append, ← texts_append, List.append_assoc, List.takeWhile_append_dropWhile,
      takeUnits_append_dropUnits, texts_scan]
  · intro c hc
    obtain ⟨u, hu, hcu⟩ := List.mem_flatMap.1 hc
    have hbrace : u.isBrace = true :=
      List.all_eq_true.1 (List.all_takeWhile (l := dropUnits k (scan s))) u hu
    obtain ⟨kind, level⟩ := u
    cases kind with
    | opening | closing => exact List.mem_singleton.1 hcu ▸ rfl
    | char _ | special _ => cases hbrace

/-- A part that is counted from the end, counted from the start. -/
theorem substring_neg {s : Text} {j len : Int} (hpos : 1 ≤ j) (hj : j ≤ length s) (hlen : 1 ≤ len) :
    substring s (-j) len =
      substring s (length s - j + 1 - min len (length s - j + 1) + 1)
        (min len (length s - j + 1)) := by
  have hrange : rangeOf? (length s) (-j) len =
      rangeOf? (length s) (length s - j + 1 - min len (length s - j + 1) + 1)
        (min len (length s - j + 1)) := by
    rw [rangeOf?, rangeOf?, if_neg (by omega), if_neg (by omega), if_neg (by omega),
      if_neg (by omega), if_pos (by omega), if_neg (by omega)]
    refine congrArg some (Prod.ext ?_ ?_) <;> dsimp only <;> omega
  rw [substring, substring, if_neg (by omega), if_neg (by omega), hrange]

/-! ### Texts without braces -/

theorem takeUnits_charUnits (n : Nat) (s : Text) :
    takeUnits n (charUnits s) = charUnits (s.take n) := by
  induction s generalizing n with
  | nil => cases n <;> rfl
  | cons c s ih =>
    cases n with
    | zero => rfl
    | succ n => exact congrArg (_ :: ·) (ih n)

theorem keepUnits_charUnits (n : Nat) (s : Text) : keepUnits [] n (charUnits s) = s.take n := by
  induction s generalizing n with
  | nil => cases n <;> rfl
  | cons c s ih =>
    cases n with
    | zero => rfl
    | succ n => exact congrArg (c :: ·) (ih n)

section

variable {s : Text} (h : ∀ c ∈ s, isBrace c = false)
include h

theorem length_of_no_braces : length s = s.length := by
  rw [length, scan_of_no_braces h, charUnits, List.countP_map]
  exact List.countP_eq_length.2 fun _ _ => rfl

theorem textPrefix_of_no_braces (n : Int) : textPrefix s n = s.take n.toNat := by
  obtain hn | ⟨n, rfl⟩ : n < 0 ∨ ∃ k : Nat, n = k :=
    (Decidable.em (n < 0)).imp_right fun hn => Int.eq_ofNat_of_zero_le (Int.not_lt.1 hn)
  · rw [textPrefix_of_neg s hn, Int.toNat_of_nonpos (Int.le_of_lt hn), List.take_zero]
  · have hbalanced : isBalanced (s.take n) = true :=
      isBalanced_of_no_braces fun c hc => h c (List.mem_of_mem_take hc)
    have hdepth : depth (s.take n) = 0 := depth_of_isBalanced hbalanced
    rw [textPrefix_natCast, scan_of_no_braces h, keepUnits_charUnits, closeBraces_of_depth hdepth,
      Int.toNat_natCast]

theorem substring_one_of_no_braces (n : Int) : substring s 1 n = .ok (s.take n.toNat) := by
  have hlength := length_of_no_braces h
  by_cases hnone : n ≤ 0 ∨ length s < 1
  · have hempty : s.take n.toNat = [] := by
      rw [List.take_eq_nil_iff, ← List.length_eq_zero_iff]
      omega
    rw [substring_of_beyond (by decide) hnone, hempty]
  · by_cases hall : (length s : Int) ≤ n
    · rw [substring_one_of_length_le (by omega) hall, List.take_of_length_le (by omega)]
    · obtain ⟨n, rfl⟩ := Int.eq_ofNat_of_zero_le (by omega : 0 ≤ n)
      rw [substring_one_of_lt_length (by omega) (by omega), scan_of_no_braces h,
        takeUnits_charUnits, texts_charUnits, Int.toNat_natCast]

end

/-- **The laws of parts of a text**, balanced or not, for all positions and lengths. Cutting a part
out fails at position 0 alone. Computed with 64 bits, no operation leaves them, every unit that is
asked for is there, and the part stands between two ends of characters. It is empty if nothing is
asked for or the position lies beyond the units. All units together are the text; the first and the
last ones leave out nothing but braces; a part counted from the end is one counted from the start;
and in a text without braces a part from position 1 is a start of the text. -/
theorem substring_laws (s : Text) (start len : Int) :
    (∀ e, substring s start len = .error e ↔ start = 0 ∧ e = .substringStartZero) ∧
    (inRange s.size = true → inRange start = true → inRange len = true → start ≠ 0 →
      ∃ bounds? part, byteBounds? s start len = some bounds? ∧ substring s start len = .ok part ∧
        CutsOut s bounds? part) ∧
    (start ≠ 0 → len ≤ 0 ∨ length s < start.natAbs → substring s start len = .ok []) ∧
    (1 ≤ length s → (length s : Int) ≤ len → substring s 1 len = .ok s) ∧
    (∀ k : Int, 1 ≤ k → k < length s →
      ∃ before braces after, substring s 1 k = .ok before ∧
        substring s (k + 1) (length s - k) = .ok after ∧
        s = before ++ braces ++ after ∧ ∀ c ∈ braces, isBrace c = true) ∧
    (∀ j : Int, 1 ≤ j → j ≤ length s → 1 ≤ len →
      let units := length s - j + 1
      let taken := min len units
      substring s (-j) len = substring s (units - taken + 1) taken) ∧
    ((∀ c ∈ s, isBrace c = false) → ∀ n, substring s 1 n = .ok (textPrefix s n)) := by
  refine ⟨substring_eq_error_iff s start len, fun hsize hstart _ hne => ?_, substring_of_beyond,
    substring_one_of_length_le, fun k => exists_braces_between s, fun j => substring_neg,
    fun h n => ?_⟩
  · exact exists_byteBounds? hsize hstart hne
  · rw [textPrefix_of_no_braces h, substring_one_of_no_braces h]

/-- A text of five units with a group and a special character. -/
def accentedSample : Text := "x\x7bab\x7dy\x7b\\'e\x7d".toList

/-- The whole text, asked for from its end with the greatest length that 64 bits hold; the parts on
the two sides of the closing brace; and a text without braces. -/
theorem substring_laws_accentedSample :
    inRange accentedSample.size = true ∧
    (∃ bounds? part, byteBounds? accentedSample (-1) 9223372036854775807 = some bounds? ∧
      substring accentedSample (-1) 9223372036854775807 = .ok part ∧
      CutsOut accentedSample bounds? part) ∧
    substring accentedSample (-9223372036854775808) 1 = .ok [] ∧
    substring accentedSample 1 5 = .ok accentedSample ∧
    (∃ before braces after, substring accentedSample 1 3 = .ok before ∧
      substring accentedSample 4 2 = .ok after ∧
      accentedSample = before ++ braces ++ after ∧ ∀ c ∈ braces, isBrace c = true) ∧
    substring accentedSample (-2) 3 = substring accentedSample 2 3 ∧
    substring "abc".toList 1 2 = .ok (textPrefix "abc".toList 2) := by
  obtain ⟨-, hbytes, -, -, hbetween, -, -⟩ :=
    substring_laws accentedSample (-1) 9223372036854775807
  obtain ⟨-, -, hbeyond, -, -, -, -⟩ := substring_laws accentedSample (-9223372036854775808) 1
  obtain ⟨-, -, -, hall, -, -, -⟩ := substring_laws accentedSample 1 5
  obtain ⟨-, -, -, -, -, hthree, -⟩ := substring_laws accentedSample (-2) 3
  obtain ⟨-, -, -, -, -, -, hplain⟩ := substring_laws "abc".toList 1 2
  refine ⟨by decide, hbytes (by decide) (by decide) (by decide) (by decide),
    hbeyond (by decide) (Or.inr (by decide)), hall (by decide) (by decide), ?_, ?_,
    hplain (isBrace_eq_false_of_all rfl) 2⟩
  · exact hbetween 3 (by decide) (by decide)
  · exact hthree 2 (by decide) (by decide) (by decide)

/-- The bytes of the whole text, and of the part between the braces. -/
example : byteBounds? accentedSample (-1) 9223372036854775807 = some (some (0, 11)) ∧
    byteBounds? accentedSample 2 2 = some (some (2, 4)) := by
  decide

end Bibliography.Tex
