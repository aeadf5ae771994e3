import Bibliography.Proofs.Tex.Scan
import Mathlib.Data.List.Infix

set_option autoImplicit false

/-! # The structure of a scan

What can be relied on when a text is walked over by its units, balanced or not. The units tile the
text; braces are units or inside special characters, and a special character stands only where no
brace is open. The scan counts levels twice, outside special characters and inside them. Both counts
are the one that could be made on the text without knowing its units, `openBraces`: the level behind
each unit is the number of braces open there (`levels_eq`), special characters included.

Main statement: `scan_structure`.
-/

namespace Bibliography.Tex

open NameFormat (isBrace)

/-! ## Places -/

/-- The units take up the bytes from `start` to `stop`, one behind the other, each as many as its
text has and at least one. -/
def PlacedUnit.Tile : Nat → List PlacedUnit → Nat → Prop
  | start, [], stop => start = stop
  | start, p :: ps, stop => p.start = start ∧ p.start < p.stop ∧
      p.stop = p.start + p.unit.text.size ∧ Tile p.stop ps stop

/-- Units with texts that are not empty tile the bytes of their text. -/
theorem tile_place {us : List TexUnit} (h : ∀ u ∈ us, u.text ≠ []) (start : Nat) :
    PlacedUnit.Tile start (place start us) (start + (TexUnit.texts us).size) := by
  induction us generalizing start with
  | nil => rfl
  | cons u us ih =>
    rw [List.forall_mem_cons] at h
    have hrest := ih h.2 (start + u.text.size)
    rw [Nat.add_assoc, ← Text.size_append, ← texts_cons] at hrest
    exact ⟨rfl, Nat.lt_add_of_pos_right (Text.size_pos h.1), rfl, hrest⟩

theorem map_unit_place (start : Nat) (us : List TexUnit) :
    (place start us).map PlacedUnit.unit = us := by
  induction us generalizing start with
  | nil => rfl
  | cons u us ih => rw [place, List.map_cons, ih]

/-- Every unit has a text. -/
theorem Row.text_ne_nil {n k : Nat} {us : List TexUnit} (h : Row n us k) :
    ∀ u ∈ us, u.text ≠ [] := by
  induction h with
  | nil n => exact List.forall_mem_nil _
  | opening _ _ ih | closing _ ih | char _ _ ih =>
    exact List.forall_mem_cons.2 ⟨List.cons_ne_nil _ _, ih⟩
  | group hraw _ ih =>
    obtain ⟨inner, -, rfl⟩ := hraw
    exact List.forall_mem_cons.2 ⟨List.cons_ne_nil _ _, ih⟩
  | unclosed hraw =>
    obtain ⟨inner, k, -, rfl, -⟩ := hraw
    exact List.forall_mem_singleton.2 (List.cons_ne_nil _ _)

/-- **The units of a text tile its bytes.** -/
theorem tile_scanPlaced (s : Text) : PlacedUnit.Tile 0 (scanPlaced s) s.size := by
  have htile := tile_place (row_scan s).text_ne_nil 0
  rwa [texts_scan, Nat.zero_add] at htile

/-! ## Levels -/

/-- The levels at which the scan stands behind the units of a text that is read from a given
mode. -/
def levelsFrom : Mode → Text → List Nat
  | .plain _, [] => []
  | .special _ depth, [] => [depth]
  | mode, c :: rest =>
    match mode.step rest.head? c with
    | (mode', none) => levelsFrom mode' rest
    | (mode', some _) => mode'.level :: levelsFrom mode' rest

/-- The levels at which the scan of a text stands, at its start and behind each of its units. -/
def levels (s : Text) : List Nat := 0 :: levelsFrom (.plain 0) s

/-- A step counts the brace that it reads, inside a special character and outside. -/
theorem level_step (mode : Mode) (next : Option Char) (c : Char) :
    (mode.step next c).1.level = openBraces mode.level [c] := by
  rw [openBraces]
  cases mode with
  | plain level =>
    rw [Mode.step]
    split
    · split
      · next h => rw [h.1]; rfl
      · rfl
    · split <;> rfl
  | special read depth =>
    rw [Mode.step]
    split
    · rfl
    · split
      · split
        · next hlast => exact (Nat.sub_eq_zero_of_le hlast).symm
        · rfl
      · rfl

/-- A step that completes no unit goes on with the one that it reads, or starts it where no brace is
open; a step that completes one goes on outside special characters. -/
theorem step_cases (mode : Mode) (next : Option Char) (c : Char) :
    (∃ mode', mode.step next c = (mode', none) ∧ mode'.base = mode.base) ∨
      ∃ level u, mode.step next c = (.plain level, some u) := by
  cases mode with
  | plain level =>
    rw [Mode.step]
    split
    · split
      · next h => exact Or.inl ⟨_, rfl, h.1.symm⟩
      · exact Or.inr ⟨_, _, rfl⟩
    · split <;> exact Or.inr ⟨_, _, rfl⟩
  | special read depth =>
    rw [Mode.step]
    split
    · exact Or.inl ⟨_, rfl, rfl⟩
    · split
      · split
        · exact Or.inr ⟨_, _, rfl⟩
        · exact Or.inl ⟨_, rfl, rfl⟩
      · exact Or.inl ⟨_, rfl, rfl⟩

/-- The levels behind units count the braces of these units, if the level at the start counts those
of what was read already. -/
theorem levelsFrom_eq (mode : Mode) (h : openBraces mode.base mode.read = mode.level) (s : Text) :
    mode.base :: levelsFrom mode s =
      (scanFrom mode s).inits.map fun us => openBraces mode.base (TexUnit.texts us) := by
  induction s generalizing mode with
  | nil =>
    cases mode with
    | plain level => rfl
    | special read depth =>
      change openBraces 0 read.reverse = depth at h
      simp [levelsFrom, scanFrom, TexUnit.texts, TexUnit.text, Mode.base, h]
  | cons c s ih =>
    have htexts := texts_step mode s.head? c
    have hlevel := level_step mode s.head? c
    rw [← h, ← openBraces_append] at hlevel
    obtain ⟨mode', hstep, hbase⟩ | ⟨level, u, hstep⟩ := step_cases mode s.head? c
    · rw [hstep] at htexts hlevel
      change mode'.read = mode.read ++ [c] at htexts
      have hmode' : openBraces mode'.base mode'.read = mode'.level := by
        rw [hbase, htexts, hlevel]
      simpa only [levelsFrom, scanFrom, hstep, hbase] using ih mode' hmode'
    · rw [hstep] at htexts hlevel
      have htext : u.text = mode.read ++ [c] := by simpa [Mode.read] using htexts
      change level = openBraces mode.base (mode.read ++ [c]) at hlevel
      have hrest := ih (.plain level) rfl
      simp only [levelsFrom, scanFrom, hstep, List.inits_cons, List.map_cons, List.map_map]
      refine congrArg (mode.base :: ·) (hrest.trans (List.map_congr_left fun us _ => ?_))
      rw [Function.comp_apply, texts_cons, openBraces_append, htext, ← hlevel]
      rfl

/-- **The level behind each unit is the number of braces that are open there.** -/
theorem levels_eq (s : Text) :
    levels s = (scan s).inits.map fun us => openBraces 0 (TexUnit.texts us) :=
  levelsFrom_eq (.plain 0) rfl s

/-! ## Units in their places -/

/-- The level before a unit is the number of braces that the units before it leave open. -/
theorem getElem?_levels {s : Text} {before after : List TexUnit} (h : scan s = before ++ after) :
    (levels s)[before.length]? = some (openBraces 0 (TexUnit.texts before)) := by
  have hlength : before.length < (scan s).inits.length := by
    rw [List.length_inits, h, List.length_append]
    omega
  rw [levels_eq, List.getElem?_map, List.getElem?_eq_getElem hlength, List.getElem_inits, h,
    List.take_left, Option.map_some]

/-- A special character starts with a brace and a backslash where no brace is open. It is a closed
group, or it is left open and the last unit. -/
theorem special_of_scan {s raw : Text} {before after : List TexUnit} {u : TexUnit}
    (h : scan s = before ++ u :: after) (hu : u.kind = .special raw) :
    ['{', '\\'] <+: raw ∧ (levels s)[before.length]? = some 0 ∧
      (IsGroup raw ∨ after = [] ∧ ∃ n, LeavesOpen raw n) := by
  obtain ⟨n, hbefore, hrow⟩ := Row.split (h ▸ row_scan s)
  rw [getElem?_levels h, hbefore.openBraces_texts]
  cases hrow with
  | opening _ _ | closing _ | char _ _ => cases hu
  | group hraw _ =>
    cases hu
    obtain ⟨inner, hinner, rfl⟩ := hraw
    exact ⟨⟨_, rfl⟩, rfl, Or.inl ⟨inner, hinner, rfl⟩⟩
  | unclosed hraw =>
    cases hu
    obtain ⟨inner, k, hinner, rfl, -⟩ := hraw
    exact ⟨⟨inner, rfl⟩, rfl, Or.inr ⟨rfl, _, inner, k, hinner, rfl, rfl⟩⟩

/-- **The structure of a scan**, of whatever text. Its units tile the text. No unit that is a
character is a brace. A special character starts with a brace and a backslash where the level is 0,
and is one closed group or runs to the end. The level behind each unit is the number of braces open
there, so that at the end is the number of braces that the text leaves open, and the text passes the
check of its braces exactly if that is 0 and no closing brace finds none open. -/
theorem scan_structure (s : Text) :
    PlacedUnit.Tile 0 (scanPlaced s) s.size ∧
    (scanPlaced s).map PlacedUnit.unit = scan s ∧
    TexUnit.texts (scan s) = s ∧
    (∀ u ∈ scan s, ∀ c, u.kind = .char c → isBrace c = false) ∧
    (∀ before u after raw, scan s = before ++ u :: after → u.kind = .special raw →
      ['{', '\\'] <+: raw ∧ (levels s)[before.length]? = some 0 ∧
        (IsGroup raw ∨ after = [] ∧ ∃ n, LeavesOpen raw n)) ∧
    levels s = ((scan s).inits.map fun us => openBraces 0 (TexUnit.texts us)) ∧
    depth s = openBraces 0 s ∧
    (checkBraces s = .ok () ↔
      depth s = 0 ∧ ∀ a b, s = a ++ '}' :: b → openBraces 0 a ≠ 0) := by
  refine ⟨tile_scanPlaced s, map_unit_place 0 (scan s), texts_scan s,
    fun u hu c => isBrace_of_char_mem_scan hu, fun before u after raw => special_of_scan,
    levels_eq s, depth_eq_openBraces s, ?_⟩
  rw [checkBraces_eq_ok_iff, isBalanced_iff, openAfter?_eq_some_iff, depth_eq_openBraces]

/-- A text with a closing brace that closes nothing, a special character and another one that is
left open: the levels are those of the braces outside them and inside. -/
example : levels "\x7d\x7b\\v\x7be\x7d\x7d\x7b\\\x7b".toList = [0, 0, 0, 2] := by decide

end Bibliography.Tex
