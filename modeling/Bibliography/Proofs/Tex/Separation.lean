import Bibliography.Proofs.Tex.Splitting
import Bibliography.Proofs.Tex.Substring
import Bibliography.Proofs.Text.Bytes
import Mathlib.Data.List.Forall2

set_option autoImplicit false

/-! # Texts between separators

A text that is split at a separator is its pieces with the separators between them (`Division`): a
separator is cut out wherever one stands outside braces (`Stands`), from left to right, but where it
begins inside one that was cut out before. A text has such a division, and what is computed from a
text is read off it: the parts are the pieces without white space around them, and a pass over the
bytes of the text, which knows nothing of characters (`byteParts`), cuts at the same places.

Main statement: `splitText_divides`.
-/

namespace Bibliography.Tex

open NameFormat (isBrace)
open Text (bytes bytes_cons bytes_append length_bytes exists_utf8EncodeChar)

variable {sep pre first : Text} {pieces : List (Text × Text)}

/-! ## Divisions -/

/-- In the spelling `m`, the separator `sep` stands behind `before` and in front of `after`. -/
structure Stands (sep before m after : Text) : Prop where
  spelling : Text.asciiLower m = Text.asciiLower sep
  not_start : before ≠ []
  level : before.count '{' = before.count '}'
  head : ∀ c ∈ m.head?, isBrace c = false
  not_end : after ≠ []

/-- A separator stands at the start of the text, which is read behind `before`. -/
def StandsFirst (sep before s : Text) : Prop :=
  ∃ m after, s = m ++ after ∧ Stands sep before m after

/-- The text of separators, each with the piece behind it. -/
def matched (pieces : List (Text × Text)) : Text := pieces.flatMap fun q => q.1 ++ q.2

theorem matched_cons (m p : Text) (pieces : List (Text × Text)) :
    matched ((m, p) :: pieces) = m ++ (p ++ matched pieces) := by
  rw [matched, List.flatMap_cons, List.append_assoc]
  rfl

/-- A text that is read behind `pre`, divided at separators: its first piece, and the others with
the separator before each. -/
inductive Division (sep : Text) : Text → Text → List (Text × Text) → Prop where
  | nil (pre : Text) : Division sep pre [] []
  | char {pre first : Text} {pieces : List (Text × Text)} {c : Char}
      (hnot : ¬ StandsFirst sep pre (c :: (first ++ matched pieces)))
      (h : Division sep (pre ++ [c]) first pieces) : Division sep pre (c :: first) pieces
  | cut {pre m first : Text} {pieces : List (Text × Text)}
      (hstands : Stands sep pre m (first ++ matched pieces))
      (h : Division sep (pre ++ m) first pieces) : Division sep pre [] ((m, first) :: pieces)

theorem Stands.ne_nil {before m after : Text} (h : Stands sep before m after) (hne : sep ≠ []) :
    m ≠ [] := by
  rintro rfl
  exact hne (List.map_eq_nil_iff.1 h.spelling.symm)

theorem Stands.length_eq {before m after : Text} (h : Stands sep before m after) :
    m.length = sep.length := by
  simpa [Text.asciiLower] using congrArg List.length h.spelling

/-- **Every text has a division.** -/
theorem exists_division (hne : sep ≠ []) (pre s : Text) :
    ∃ first pieces, s = first ++ matched pieces ∧ Division sep pre first pieces := by
  -- behind a separator the text goes on shorter, but not with its tail
  induction hn : s.length using Nat.strongRecOn generalizing pre s with
  | ind n ih =>
    subst hn
    cases s with
    | nil => exact ⟨[], [], rfl, .nil pre⟩
    | cons c s =>
      by_cases hstands : StandsFirst sep pre (c :: s)
      · obtain ⟨m, after, heq, hm⟩ := hstands
        have hpos : 0 < m.length := List.length_pos_iff.2 (hm.ne_nil hne)
        have hshorter : after.length < (c :: s).length := by
          rw [heq, List.length_append]
          omega
        obtain ⟨first, pieces, rfl, h⟩ := ih _ hshorter (pre ++ m) after rfl
        refine ⟨[], (m, first) :: pieces, ?_, .cut hm h⟩
        rw [List.nil_append, matched_cons, heq]
      · obtain ⟨first, pieces, rfl, h⟩ := ih s.length (by simp) (pre ++ [c]) s rfl
        exact ⟨c :: first, pieces, rfl, .char hstands h⟩

/-- What is cut out is a separator that stands where it is cut out. -/
theorem Division.stands (h : Division sep pre first pieces) {before after : List (Text × Text)}
    {m p : Text} (heq : pieces = before ++ (m, p) :: after) :
    Stands sep (pre ++ (first ++ matched before)) m (p ++ matched after) := by
  induction h generalizing before with
  | nil pre => simp at heq
  | @char pre first pieces c _ _ ih => simpa using ih heq
  | @cut pre m' first pieces hstands _ ih =>
    cases before with
    | nil =>
      obtain ⟨hpiece, rfl⟩ := List.cons.inj heq
      cases hpiece
      simpa [matched] using hstands
    | cons q before =>
      obtain ⟨rfl, rfl⟩ := List.cons.inj heq
      simpa [matched_cons] using ih rfl

/-- Wherever a separator stands, one begins that is cut out, or one that is cut out has begun but
not ended. -/
theorem Division.complete (h : Division sep pre first pieces) {l m r : Text}
    (heq : first ++ matched pieces = l ++ (m ++ r)) (hm : Stands sep (pre ++ l) m r) :
    ∃ before m' p after, pieces = before ++ (m', p) :: after ∧
      (first ++ matched before).length ≤ l.length ∧
      l.length < (first ++ matched before ++ m').length := by
  induction h generalizing l with
  | nil pre =>
    have hr : r = [] := by
      have := congrArg List.length heq
      simp [matched] at this
      exact List.eq_nil_of_length_eq_zero (by omega)
    exact absurd hr hm.not_end
  | @char pre first pieces c hnot _ ih =>
    cases l with
    | nil =>
      rw [List.append_nil] at hm
      exact absurd ⟨m, r, heq, hm⟩ hnot
    | cons d l =>
      obtain ⟨rfl, hrest⟩ := List.cons.inj heq
      obtain ⟨before, m', p, after, hpieces, hle, hlt⟩ := ih hrest (by simpa using hm)
      refine ⟨before, m', p, after, hpieces, ?_, ?_⟩
      · simpa using hle
      · simpa using hlt
  | @cut pre m' first pieces hstands _ ih =>
    by_cases hinside : l.length < m'.length
    · exact ⟨[], m', first, pieces, rfl, Nat.zero_le _, by simpa [matched] using hinside⟩
    · -- the place is behind the separator
      rw [List.nil_append, matched_cons] at heq
      obtain ⟨l', rfl⟩ : ∃ l', l = m' ++ l' := by
        have hstarts : m' <+: l := List.prefix_of_prefix_length_le ⟨_, heq⟩ ⟨_, rfl⟩ (by omega)
        obtain ⟨l', hl'⟩ := hstarts
        exact ⟨l', hl'.symm⟩
      rw [List.append_assoc] at heq
      obtain ⟨before, m'', p, after, rfl, hle, hlt⟩ :=
        ih (List.append_cancel_left heq) (by simpa using hm)
      refine ⟨(m', first) :: before, m'', p, after, rfl, ?_, ?_⟩
      · simp only [matched_cons, List.nil_append, List.length_append] at hle ⊢
        omega
      · simp only [matched_cons, List.nil_append, List.length_append] at hlt ⊢
        omega

/-! ## Splitting by characters -/

/-- Whether a separator stands at the start of a text is what the split asks at each character. -/
theorem standsFirst_iff (hne : sep ≠ []) {c : Char} {s : Text} :
    StandsFirst sep pre (c :: s) ↔
      c ≠ '{' ∧ c ≠ '}' ∧ pre.foldl levelAfter 0 = 0 ∧ pre ≠ [] ∧
        separates sep (c :: s) = true := by
  have hlevel : pre.foldl levelAfter 0 = 0 ↔ pre.count '{' = pre.count '}' := by
    rw [foldl_levelAfter]
    omega
  rw [hlevel, separates_eq_true_iff]
  constructor
  · rintro ⟨m, after, heq, hm⟩
    obtain ⟨d, m, rfl⟩ := List.exists_cons_of_ne_nil (hm.ne_nil hne)
    obtain ⟨rfl, rfl⟩ := List.cons.inj heq
    have hbrace : c ≠ '{' ∧ c ≠ '}' := isBrace_eq_false_iff.1 (hm.head c rfl)
    exact ⟨hbrace.1, hbrace.2, hm.level, hm.not_start, _, after, rfl, hm.spelling, hm.not_end⟩
  · rintro ⟨hopen, hclose, hcount, hpre, m, after, heq, hspelling, hafter⟩
    refine ⟨m, after, heq, hspelling, hpre, hcount, fun d hd => ?_, hafter⟩
    cases m with
    | nil => cases hd
    | cons a m =>
      cases hd
      obtain ⟨rfl, -⟩ := List.cons.inj heq
      simp [isBrace, hopen, hclose]

/-- A character at which no separator stands belongs to the part. -/
theorem splitTextFrom_cons_of_not (hne : sep ≠ []) {c : Char} {s : Text}
    (hnot : ¬ StandsFirst sep pre (c :: s)) (part : Text) :
    splitTextFrom sep pre.isEmpty (pre.foldl levelAfter 0) 0 part (c :: s) =
      splitTextFrom sep (pre ++ [c]).isEmpty ((pre ++ [c]).foldl levelAfter 0) 0 (c :: part) s := by
  have hgoes := mt (standsFirst_iff hne).2 hnot
  have hstart : (pre ++ [c]).isEmpty = false := by simp
  rw [splitTextFrom.eq_def]
  dsimp only
  rw [if_neg (by simpa using hgoes), hstart, List.foldl_append, List.foldl_cons, List.foldl_nil]

/-- Where a separator stands, the part ends and the next one starts behind it. -/
theorem splitTextFrom_of_stands (hne : sep ≠ []) {m after : Text} (h : Stands sep pre m after)
    (part : Text) :
    splitTextFrom sep pre.isEmpty (pre.foldl levelAfter 0) 0 part (m ++ after) =
      part.reverse ::
        splitTextFrom sep (pre ++ m).isEmpty ((pre ++ m).foldl levelAfter 0) 0 [] after := by
  obtain ⟨c, m, rfl⟩ := List.exists_cons_of_ne_nil (h.ne_nil hne)
  obtain ⟨a, sep, rfl⟩ := List.exists_cons_of_ne_nil hne
  have hcuts := (standsFirst_iff (List.cons_ne_nil a sep)).1 ⟨c :: m, after, rfl, h⟩
  have hlength : sep.length = m.length := by simpa using h.length_eq.symm
  have hlevel : (pre ++ c :: m).foldl levelAfter 0 =
      m.foldl levelAfter (pre.foldl levelAfter 0) := by
    rw [List.foldl_append, List.foldl_cons, levelAfter_of_other (h.head c rfl)]
  have hstart : (pre ++ c :: m).isEmpty = false := by simp
  rw [List.cons_append, splitTextFrom.eq_def]
  dsimp only
  rw [if_pos (by simpa using hcuts), hlength, splitTextFrom_skip, hlevel, hstart]

/-- **The split finds the pieces of the division.** -/
theorem Division.splitTextFrom_eq (h : Division sep pre first pieces) (hne : sep ≠ [])
    (part : Text) :
    splitTextFrom sep pre.isEmpty (pre.foldl levelAfter 0) 0 part (first ++ matched pieces) =
      (part.reverse ++ first) :: pieces.map Prod.snd := by
  induction h generalizing part with
  | nil pre => simp [matched, splitTextFrom]
  | char hnot _ ih =>
    rw [List.cons_append, splitTextFrom_cons_of_not hne hnot, ih, List.reverse_cons,
      List.append_assoc]
    rfl
  | cut hstands _ ih =>
    rw [List.nil_append, matched_cons, splitTextFrom_of_stands hne hstands, ih, List.append_nil]
    rfl

/-! ## Splitting by bytes -/

/-- The brace level after a byte. -/
def levelAfterByte (level : Int) (b : UInt8) : Int :=
  if b = 0x7B then level + 1 else if b = 0x7D then level - 1 else level

/-- A pass over the bytes of a text from byte `pos` on, where the part that is read began at byte
`start`: the bytes at which the parts start and end. A separator is compared with as many bytes as
it has itself, and has to end before the byte `last` is read. -/
def bytePartsFrom (sep : List UInt8) (last : Nat) (level : Int) (start pos : Nat) :
    List UInt8 → List (Nat × Nat)
  | [] => [(start, pos)]
  | b :: rest =>
    if b ≠ 0x7B ∧ b ≠ 0x7D ∧ level = 0 ∧ 0 < pos ∧ start ≤ pos ∧ pos + sep.length ≤ last ∧
        ((b :: rest).take sep.length).map UInt8.toAsciiLower = sep.map UInt8.toAsciiLower then
      (start, pos) :: bytePartsFrom sep last level (pos + sep.length) (pos + 1) rest
    else bytePartsFrom sep last (levelAfterByte level b) start (pos + 1) rest

/-- The parts of a text of bytes between separators; something must follow a separator. -/
def byteParts (s sep : List UInt8) : List (Nat × Nat) := bytePartsFrom sep (s.length - 1) 0 0 0 s

/-- Behind a separator the pass goes on byte by byte, but only braces matter until it has ended. -/
theorem bytePartsFrom_skip (sep : List UInt8) (last : Nat) (level : Int) {start pos : Nat}
    {x : List UInt8} (hx : pos + x.length ≤ start) (rest : List UInt8) :
    bytePartsFrom sep last level start pos (x ++ rest) =
      bytePartsFrom sep last (x.foldl levelAfterByte level) start (pos + x.length) rest := by
  induction x generalizing level pos with
  | nil => rfl
  | cons b x ih =>
    rw [List.length_cons, ← Nat.add_assoc, Nat.add_right_comm] at hx
    have hbefore : ¬ start ≤ pos := by omega
    rw [List.cons_append, bytePartsFrom, if_neg (by simp [hbefore]), ih _ hx, List.foldl_cons,
      List.length_cons, Nat.add_assoc, Nat.add_comm 1]

/-- No separator begins inside a character. -/
theorem map_toAsciiLower_take_ne (hne : sep ≠ []) {b : UInt8} (hb : Text.Continues b)
    (rest : List UInt8) :
    ((b :: rest).take (bytes sep).length).map UInt8.toAsciiLower ≠
      (bytes sep).map UInt8.toAsciiLower := by
  obtain ⟨a, sep, rfl⟩ := List.exists_cons_of_ne_nil hne
  obtain ⟨lead, more, ha, -, hlead⟩ := exists_utf8EncodeChar a
  rw [bytes_cons, ha, List.cons_append, List.length_cons, List.take_succ_cons, List.map_cons,
    List.map_cons, Text.toAsciiLower_of_le hb.1]
  intro heq
  have hsame := congrArg UInt8.toNat (List.cons.inj heq).1
  rw [Text.toNat_toAsciiLower] at hsame
  obtain ⟨hle, hlt⟩ := hb
  split at hsame <;> omega

theorem levelAfterByte_of_continues (level : Int) {b : UInt8} (hb : Text.Continues b) :
    b ≠ 0x7B ∧ b ≠ 0x7D ∧ levelAfterByte level b = level := by
  have hne : ∀ d : UInt8, d.toNat < 0x80 → b ≠ d := by
    rintro d hd rfl
    exact absurd hb.1 (by omega)
  have hopen : b ≠ 0x7B := hne _ (by decide)
  have hclose : b ≠ 0x7D := hne _ (by decide)
  exact ⟨hopen, hclose, by rw [levelAfterByte, if_neg hopen, if_neg hclose]⟩

/-- The bytes inside a character are passed over. -/
theorem bytePartsFrom_continues (hne : sep ≠ []) (last : Nat) (level : Int) (start pos : Nat)
    {x : List UInt8} (hx : ∀ b ∈ x, Text.Continues b) (rest : List UInt8) :
    bytePartsFrom (bytes sep) last level start pos (x ++ rest) =
      bytePartsFrom (bytes sep) last level start (pos + x.length) rest := by
  induction x generalizing pos with
  | nil => rfl
  | cons b x ih =>
    rw [List.forall_mem_cons] at hx
    have hcut := map_toAsciiLower_take_ne hne hx.1 (x ++ rest)
    rw [List.cons_append, bytePartsFrom, if_neg (by rintro ⟨-, -, -, -, -, -, heq⟩; exact hcut heq),
      (levelAfterByte_of_continues level hx.1).2.2, ih _ hx.2, List.length_cons, Nat.add_assoc,
      Nat.add_comm 1]

/-- The byte that leads a character changes the level as the character does. -/
theorem levelAfterByte_lead {c : Char} {lead : UInt8}
    (hlead : c.toNat < 0x80 ∧ lead.toNat = c.toNat ∨ 0x80 ≤ c.toNat ∧ 0xC0 ≤ lead.toNat)
    (level : Int) : levelAfterByte level lead = levelAfter level c := by
  have hopen : lead = 0x7B ↔ c = '{' := Text.eq_iff_of_lead (d := '{') hlead (by decide)
  have hclose : lead = 0x7D ↔ c = '}' := Text.eq_iff_of_lead (d := '}') hlead (by decide)
  simp only [levelAfterByte, levelAfter, hopen, hclose]

/-- Levels are counted in bytes as in characters. -/
theorem foldl_levelAfterByte (level : Int) (s : Text) :
    (bytes s).foldl levelAfterByte level = s.foldl levelAfter level := by
  have hmore : ∀ (more : List UInt8) (level : Int), (∀ b ∈ more, Text.Continues b) →
      more.foldl levelAfterByte level = level := by
    intro more level h
    induction more with
    | nil => rfl
    | cons b more ih =>
      rw [List.forall_mem_cons] at h
      rw [List.foldl_cons, (levelAfterByte_of_continues level h.1).2.2, ih h.2]
  induction s generalizing level with
  | nil => rfl
  | cons c s ih =>
    obtain ⟨lead, more, hc, hcontinues, hlead⟩ := exists_utf8EncodeChar c
    rw [bytes_cons, hc, List.foldl_append, List.foldl_cons, hmore more _ hcontinues,
      levelAfterByte_lead hlead, ih, List.foldl_cons]

/-- That a separator stands at the start of a text can be seen in the bytes. -/
theorem separates_iff_bytes {s : Text} :
    separates sep s = true ↔ (bytes sep).length < (bytes s).length ∧
      ((bytes s).take (bytes sep).length).map UInt8.toAsciiLower =
        (bytes sep).map UInt8.toAsciiLower := by
  rw [separates_eq_true_iff]
  constructor
  · rintro ⟨m, r, rfl, hm, hr⟩
    have hlower : (bytes m).map UInt8.toAsciiLower = (bytes sep).map UInt8.toAsciiLower := by
      rw [Text.map_toAsciiLower_bytes, Text.map_toAsciiLower_bytes, hm]
    have hlength : (bytes m).length = (bytes sep).length := by
      simpa using congrArg List.length hlower
    have hpos : 0 < (bytes r).length := by
      rw [length_bytes]
      exact Text.size_pos hr
    rw [bytes_append, ← hlength, List.take_left, List.length_append]
    exact ⟨by omega, hlower⟩
  · rintro ⟨hlt, htake⟩
    -- the bytes agree in lower case, and so the characters do
    have hstarts : Text.asciiLower sep <+: Text.asciiLower s := by
      rw [← Text.bytes_isPrefix_iff, ← Text.map_toAsciiLower_bytes, ← Text.map_toAsciiLower_bytes,
        ← htake]
      exact (List.take_prefix _ _).map _
    have hm : Text.asciiLower (s.take sep.length) = Text.asciiLower sep := by
      have hlength : (Text.asciiLower sep).length = sep.length := List.length_map _
      rw [List.prefix_iff_eq_take, hlength] at hstarts
      rw [hstarts]
      exact List.map_take
    refine ⟨s.take sep.length, s.drop sep.length, (List.take_append_drop _ _).symm, hm, ?_⟩
    intro hdrop
    have hs : s.take sep.length = s := by
      conv_rhs => rw [← List.take_append_drop sep.length s, hdrop, List.append_nil]
    have hsize : s.size = sep.size := by
      rw [← Text.size_asciiLower s, ← Text.size_asciiLower sep, ← hm, hs]
    rw [length_bytes, length_bytes] at hlt
    omega

/-- What the pass asks at the first byte of a character is whether a separator stands there. -/
theorem cutsAtByte_iff (hne : sep ≠ []) {c : Char} {s : Text} {lead : UInt8} {more : List UInt8}
    (hc : bytes (c :: s) = lead :: more)
    (hlead : c.toNat < 0x80 ∧ lead.toNat = c.toNat ∨ 0x80 ≤ c.toNat ∧ 0xC0 ≤ lead.toNat)
    {start last : Nat} (hstart : start ≤ pre.size)
    (hlast : last = pre.size + Text.size (c :: s) - 1) :
    (lead ≠ 0x7B ∧ lead ≠ 0x7D ∧ pre.foldl levelAfter 0 = 0 ∧ 0 < pre.size ∧ start ≤ pre.size ∧
        pre.size + (bytes sep).length ≤ last ∧
        ((lead :: more).take (bytes sep).length).map UInt8.toAsciiLower =
          (bytes sep).map UInt8.toAsciiLower) ↔
      StandsFirst sep pre (c :: s) := by
  have hopen : lead = 0x7B ↔ c = '{' := Text.eq_iff_of_lead (d := '{') hlead (by decide)
  have hclose : lead = 0x7D ↔ c = '}' := Text.eq_iff_of_lead (d := '}') hlead (by decide)
  have hpre : 0 < pre.size ↔ pre ≠ [] := by
    refine ⟨?_, Text.size_pos⟩
    rintro hpos rfl
    cases hpos
  have hpos : 0 < Text.size (c :: s) := Text.size_pos (List.cons_ne_nil c s)
  have hbefore : pre.size + (bytes sep).length ≤ last ↔
      (bytes sep).length < (bytes (c :: s)).length := by
    rw [length_bytes (c :: s)]
    omega
  rw [standsFirst_iff hne, separates_iff_bytes, ← hc, Ne, Ne, hopen, hclose, hpre, hbefore]
  constructor
  · rintro ⟨hopen, hclose, hlevel, hpre, -, hbefore, htake⟩
    exact ⟨hopen, hclose, hlevel, hpre, hbefore, htake⟩
  · rintro ⟨hopen, hclose, hlevel, hpre, hbefore, htake⟩
    exact ⟨hopen, hclose, hlevel, hpre, hstart, hbefore, htake⟩

/-- The pass over a character at which no separator stands. -/
theorem bytePartsFrom_cons_of_not (hne : sep ≠ []) {c : Char} {s : Text}
    (hnot : ¬ StandsFirst sep pre (c :: s)) {start last : Nat} (hstart : start ≤ pre.size)
    (hlast : last = pre.size + Text.size (c :: s) - 1) :
    bytePartsFrom (bytes sep) last (pre.foldl levelAfter 0) start pre.size (bytes (c :: s)) =
      bytePartsFrom (bytes sep) last ((pre ++ [c]).foldl levelAfter 0) start (pre ++ [c]).size
        (bytes s) := by
  obtain ⟨lead, more, hc, hmore, hlead⟩ := exists_utf8EncodeChar c
  have hbytes : bytes (c :: s) = lead :: (more ++ bytes s) := by
    rw [bytes_cons, hc, List.cons_append]
  have hgoes := mt (cutsAtByte_iff hne hbytes hlead hstart hlast).1 hnot
  have hlevel : levelAfterByte (pre.foldl levelAfter 0) lead = (pre ++ [c]).foldl levelAfter 0 := by
    rw [levelAfterByte_lead hlead, List.foldl_append, List.foldl_cons, List.foldl_nil]
  have hsize : pre.size + 1 + more.length = (pre ++ [c]).size := by
    rw [Text.size_append, Text.size_cons, Text.size_nil, ← String.length_utf8EncodeChar, hc,
      List.length_cons]
    omega
  rw [hbytes, bytePartsFrom, if_neg hgoes, bytePartsFrom_continues hne _ _ _ _ hmore, hlevel, hsize]

/-- The pass over a separator that stands at its place. -/
theorem bytePartsFrom_of_stands (hne : sep ≠ []) {m after : Text} (h : Stands sep pre m after)
    {start last : Nat} (hstart : start ≤ pre.size)
    (hlast : last = pre.size + Text.size (m ++ after) - 1) :
    bytePartsFrom (bytes sep) last (pre.foldl levelAfter 0) start pre.size (bytes (m ++ after)) =
      (start, pre.size) :: bytePartsFrom (bytes sep) last ((pre ++ m).foldl levelAfter 0)
        (pre ++ m).size (pre ++ m).size (bytes after) := by
  obtain ⟨c, m, rfl⟩ := List.exists_cons_of_ne_nil (h.ne_nil hne)
  obtain ⟨lead, more, hc, hmore, hlead⟩ := exists_utf8EncodeChar c
  have hm : bytes (c :: m) = lead :: (more ++ bytes m) := by
    rw [bytes_cons, hc, List.cons_append]
  have hbytes : bytes (c :: (m ++ after)) = lead :: (more ++ bytes m ++ bytes after) := by
    rw [← List.cons_append, bytes_append, hm, List.cons_append]
  have hcuts := (cutsAtByte_iff hne hbytes hlead hstart hlast).2 ⟨c :: m, after, rfl, h⟩
  have hsep : pre.size + (bytes sep).length = (pre ++ c :: m).size := by
    rw [length_bytes, ← Text.size_asciiLower sep, ← h.spelling, Text.size_asciiLower,
      Text.size_append]
  have hend : pre.size + 1 + (more ++ bytes m).length = (pre ++ c :: m).size := by
    have hlength := length_bytes (c :: m)
    rw [hm, List.length_cons] at hlength
    rw [Text.size_append]
    omega
  have hlevel : (more ++ bytes m).foldl levelAfterByte (pre.foldl levelAfter 0) =
      (pre ++ c :: m).foldl levelAfter 0 := by
    have hbrace := levelAfter_of_other (h.head c rfl) (pre.foldl levelAfter 0)
    calc (more ++ bytes m).foldl levelAfterByte (pre.foldl levelAfter 0)
        = (bytes (c :: m)).foldl levelAfterByte (pre.foldl levelAfter 0) := by
          rw [hm, List.foldl_cons, levelAfterByte_lead hlead, hbrace]
      _ = (c :: m).foldl levelAfter (pre.foldl levelAfter 0) := foldl_levelAfterByte _ _
      _ = (pre ++ c :: m).foldl levelAfter 0 := List.foldl_append.symm
  rw [List.cons_append, hbytes, bytePartsFrom, if_pos hcuts, hsep,
    bytePartsFrom_skip _ _ _ (Nat.le_of_eq hend), hlevel, hend]

/-- The bytes of the first part and of the others, of which the first starts at byte `start` and
ends at byte `stop`. -/
def ranges (start stop : Nat) : List (Text × Text) → List (Nat × Nat)
  | [] => [(start, stop)]
  | (m, p) :: pieces =>
    (start, stop) :: ranges (stop + m.size) (stop + m.size + p.size) pieces

/-- **The pass over the bytes finds the pieces of the division.** -/
theorem Division.bytePartsFrom_eq (h : Division sep pre first pieces) (hne : sep ≠ [])
    {start last : Nat} (hstart : start ≤ pre.size)
    (hlast : last = pre.size + (first ++ matched pieces).size - 1) :
    bytePartsFrom (bytes sep) last (pre.foldl levelAfter 0) start pre.size
        (bytes (first ++ matched pieces)) =
      ranges start (pre.size + first.size) pieces := by
  induction h generalizing start with
  | nil pre => rfl
  | @char pre first pieces c hnot _ ih =>
    have hpre : ∀ t : Text, (pre ++ [c]).size + t.size = pre.size + Text.size (c :: t) := by
      intro t
      rw [Text.size_append, Text.size_cons, Text.size_cons, Text.size_nil]
      omega
    have hbefore : start ≤ (pre ++ [c]).size := by
      rw [Text.size_append]
      omega
    rw [List.cons_append, bytePartsFrom_cons_of_not hne hnot hstart hlast,
      ih hbefore (by rw [hpre]; exact hlast), hpre]
  | @cut pre m first pieces hstands _ ih =>
    rw [List.nil_append, matched_cons] at hlast ⊢
    have htotal : last = (pre ++ m).size + (first ++ matched pieces).size - 1 := by
      rw [hlast, Text.size_append m, Text.size_append pre, Nat.add_assoc]
    rw [bytePartsFrom_of_stands hne hstands hstart hlast, ih (Nat.le_refl _) htotal,
      Text.size_append]
    rfl

/-- The ranges are those of the pieces. -/
theorem forall₂_cutsOut {s pre first : Text} {pieces : List (Text × Text)}
    (hs : s = pre ++ (first ++ matched pieces)) :
    List.Forall₂ (fun q part => CutsOut s (some q) part)
      (ranges pre.size (pre.size + first.size) pieces) (first :: pieces.map Prod.snd) := by
  induction pieces generalizing pre first with
  | nil => exact .cons (cutsOut_append hs) .nil
  | cons q pieces ih =>
    obtain ⟨m, p⟩ := q
    have hbehind : s = (pre ++ (first ++ m)) ++ (p ++ matched pieces) := by
      rw [hs, matched_cons]
      simp only [List.append_assoc]
    have hrest := ih hbehind
    rw [Text.size_append, Text.size_append, ← Nat.add_assoc] at hrest
    exact .cons (cutsOut_append hs) hrest

/-! ## Splitting -/

/-- **What splitting at a separator does.** The text is pieces with separators between them, and the
parts are the pieces without white space around them. What is cut out is a separator that stands at
its place; wherever else one stands, it begins inside one that was cut out before. A pass over the
bytes cuts out the same pieces, each between ends of characters. And where the separator has no
braces, the parts of a balanced text are balanced. -/
theorem splitText_divides (s : Text) (hne : sep ≠ []) :
    ∃ (first : Text) (pieces : List (Text × Text)),
      s = first ++ matched pieces ∧
      splitText s sep = (first :: pieces.map Prod.snd).map Text.trim ∧
      (∀ before m p after, pieces = before ++ (m, p) :: after →
        Stands sep (first ++ matched before) m (p ++ matched after)) ∧
      (∀ before m after, s = before ++ (m ++ after) → Stands sep before m after →
        ∃ earlier m' p later, pieces = earlier ++ (m', p) :: later ∧
          (first ++ matched earlier).length ≤ before.length ∧
          before.length < (first ++ matched earlier ++ m').length) ∧
      List.Forall₂ (fun q part => CutsOut s (some q) part) (byteParts (bytes s) (bytes sep))
        (first :: pieces.map Prod.snd) ∧
      (isBalanced s = true → (∀ c ∈ sep, isBrace c = false) →
        ∀ part ∈ splitText s sep, isBalanced part = true) := by
  obtain ⟨first, pieces, rfl, h⟩ := exists_division hne [] s
  have hparts : splitTextFrom sep true 0 0 [] (first ++ matched pieces) =
      first :: pieces.map Prod.snd := h.splitTextFrom_eq hne []
  have hbytes : byteParts (bytes (first ++ matched pieces)) (bytes sep) =
      ranges 0 (0 + first.size) pieces := by
    refine h.bytePartsFrom_eq hne (Nat.zero_le _) ?_
    rw [length_bytes, Text.size_nil, Nat.zero_add]
  refine ⟨first, pieces, rfl, by rw [splitText, hparts], fun before m p after => h.stands,
    fun before m after => h.complete, ?_, fun hs hsep part => isBalanced_of_mem_splitText hsep hs⟩
  rw [hbytes]
  exact forall₂_cutsOut (List.nil_append _).symm

/-- Of two separators that share a blank only the first is cut out. -/
theorem splitText_divides_overlapping :
    splitText "Käthe AND \x7bA and B\x7d and and Co".toList " and ".toList =
        ["Käthe".toList, "\x7bA and B\x7d".toList, "and Co".toList] ∧
      (∀ part ∈ splitText "Käthe AND \x7bA and B\x7d and and Co".toList " and ".toList,
        isBalanced part = true) ∧
      (byteParts (bytes "Käthe AND \x7bA and B\x7d and and Co".toList)
        (bytes " and ".toList)).length = 3 := by
  have hparts : splitText "Käthe AND \x7bA and B\x7d and and Co".toList " and ".toList =
      ["Käthe".toList, "\x7bA and B\x7d".toList, "and Co".toList] := by decide
  have hne : " and ".toList ≠ [] := by decide
  obtain ⟨first, pieces, -, htrim, -, -, hbytes, hbalanced⟩ :=
    splitText_divides "Käthe AND \x7bA and B\x7d and and Co".toList hne
  refine ⟨hparts, hbalanced (by decide) (isBrace_eq_false_of_all (by decide)), ?_⟩
  have hlength := congrArg List.length htrim
  rw [hparts, List.length_map] at hlength
  rw [hbytes.length_eq, ← hlength]
  rfl

end Bibliography.Tex
