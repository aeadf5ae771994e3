import Bibliography.Proofs.Unicode.Folding

set_option autoImplicit false

/-! # Texts as bytes

A text is stored as its characters in UTF-8. The byte that leads a character tells where the
character ends, so a text starts with another one exactly when its bytes start with those of the
other (`bytes_isPrefix_iff`). Bytes below `0x80` are ASCII characters and never stand inside another
character; so ASCII letters are put in lower case, and braces are counted, in bytes as in
characters.
-/

namespace Bibliography.Text

def bytes (s : Text) : List UInt8 := s.flatMap String.utf8EncodeChar

theorem bytes_cons (c : Char) (s : Text) : bytes (c :: s) = String.utf8EncodeChar c ++ bytes s :=
  List.flatMap_cons

theorem bytes_append (s t : Text) : bytes (s ++ t) = bytes s ++ bytes t := List.flatMap_append

theorem length_bytes (s : Text) : (bytes s).length = s.size := by
  induction s with
  | nil => rfl
  | cons c s ih => rw [bytes_cons, List.length_append, String.length_utf8EncodeChar, ih, size_cons]

/-! ## Bytes of a character -/

/-- A byte of a character that is not its first. -/
def Continues (b : UInt8) : Prop := 0x80 ≤ b.toNat ∧ b.toNat < 0xC0

theorem utf8EncodeChar_of_ascii {c : Char} (h : c.toNat < 0x80) :
    String.utf8EncodeChar c = [UInt8.ofNat c.toNat] := by
  rw [String.utf8EncodeChar]
  exact if_pos (Nat.le_of_lt_succ h)

theorem continues_ofNat {n : Nat} : Continues (UInt8.ofNat (n % 0x40 + 0x80)) := by
  rw [Continues, UInt8.toNat_ofNat']
  omega

/-- A character is a byte that leads it and bytes that continue it. The first is the character
itself, or no ASCII character. -/
theorem exists_utf8EncodeChar (c : Char) :
    ∃ lead more, String.utf8EncodeChar c = lead :: more ∧ (∀ b ∈ more, Continues b) ∧
      (c.toNat < 0x80 ∧ lead.toNat = c.toNat ∨ 0x80 ≤ c.toNat ∧ 0xC0 ≤ lead.toNat) := by
  by_cases hascii : c.toNat < 0x80
  · refine ⟨_, [], utf8EncodeChar_of_ascii hascii, List.forall_mem_nil _, Or.inl ⟨hascii, ?_⟩⟩
    rw [UInt8.toNat_ofNat']
    omega
  · have hlead : ∀ {n k m : Nat}, 0 < k → 0xC0 ≤ m → k + m ≤ 0x100 →
        0xC0 ≤ (UInt8.ofNat (n % k + m)).toNat := by
      intro n k m hk hm hsum
      have hn := Nat.mod_lt n hk
      rw [UInt8.toNat_ofNat']
      omega
    have hcode : 0x80 ≤ c.toNat := Nat.le_of_not_lt hascii
    have hlarge : ¬ c.val.toNat ≤ 0x7F := fun h => hascii (Nat.lt_succ_of_le h)
    rw [String.utf8EncodeChar, if_neg hlarge]
    -- two, three or four bytes
    split
    · exact ⟨_, _, rfl, List.forall_mem_singleton.2 continues_ofNat,
        Or.inr ⟨hcode, hlead (by decide) (by decide) (by decide)⟩⟩
    · split
      · exact ⟨_, _, rfl, List.forall_mem_cons.2
          ⟨continues_ofNat, List.forall_mem_singleton.2 continues_ofNat⟩,
          Or.inr ⟨hcode, hlead (by decide) (by decide) (by decide)⟩⟩
      · exact ⟨_, _, rfl, List.forall_mem_cons.2 ⟨continues_ofNat, List.forall_mem_cons.2
          ⟨continues_ofNat, List.forall_mem_singleton.2 continues_ofNat⟩⟩,
          Or.inr ⟨hcode, hlead (by decide) (by decide) (by decide)⟩⟩

/-- The leading byte of a character is an ASCII character only if the character is. -/
theorem eq_iff_of_lead {c d : Char} {lead : UInt8}
    (hlead : c.toNat < 0x80 ∧ lead.toNat = c.toNat ∨ 0x80 ≤ c.toNat ∧ 0xC0 ≤ lead.toNat)
    (hd : d.toNat < 0x80) : lead = UInt8.ofNat d.toNat ↔ c = d := by
  have hcode : (UInt8.ofNat d.toNat).toNat = d.toNat := Nat.mod_eq_of_lt (by omega)
  rw [← UInt8.toNat_inj, hcode, ← Char.toNat_inj]
  omega

/-! ## Starts of a text -/

theorem utf8EncodeChar_append_inj {c d : Char} {x y : List UInt8}
    (h : String.utf8EncodeChar c ++ x = String.utf8EncodeChar d ++ y) : c = d ∧ x = y := by
  have hdecode : ∀ (c : Char) (x : List UInt8),
      (String.utf8EncodeChar c ++ x).toByteArray.utf8DecodeChar? 0 = some c := by
    intro c x
    rw [List.toByteArray_append]
    exact ByteArray.utf8DecodeChar?_utf8EncodeChar_append
  obtain rfl : c = d := by
    rw [← Option.some.injEq, ← hdecode c x, h, hdecode d y]
  exact ⟨rfl, List.append_cancel_left h⟩

/-- **A text starts with another exactly when its bytes do.** -/
theorem bytes_isPrefix_iff {s t : Text} : bytes s <+: bytes t ↔ s <+: t := by
  constructor
  · intro h
    induction s generalizing t with
    | nil => exact List.nil_prefix
    | cons c s ih =>
      obtain ⟨rest, hrest⟩ := h
      rw [bytes_cons, List.append_assoc] at hrest
      cases t with
      | nil =>
        obtain ⟨lead, more, hc, -⟩ := exists_utf8EncodeChar c
        rw [hc] at hrest
        cases hrest
      | cons d t =>
        rw [bytes_cons] at hrest
        obtain ⟨rfl, hbehind⟩ := utf8EncodeChar_append_inj hrest
        exact List.cons_prefix_cons.2 ⟨rfl, ih ⟨rest, hbehind⟩⟩
  · rintro ⟨rest, rfl⟩
    exact ⟨bytes rest, (bytes_append s rest).symm⟩

/-! ## ASCII letters -/

theorem toNat_toAsciiLower (b : UInt8) :
    b.toAsciiLower.toNat = if 65 ≤ b.toNat ∧ b.toNat ≤ 90 then b.toNat + 32 else b.toNat := by
  have hall : ∀ n : Fin 256, (UInt8.ofNat n).toAsciiLower.toNat =
      if 65 ≤ n.val ∧ n.val ≤ 90 then n.val + 32 else n.val := by
    decide +kernel
  have hb := hall ⟨b.toNat, b.toNat_lt⟩
  rwa [UInt8.ofNat_toNat] at hb

theorem toAsciiLower_of_le {b : UInt8} (h : 0x80 ≤ b.toNat) : b.toAsciiLower = b := by
  have hb := toNat_toAsciiLower b
  rw [if_neg (by omega)] at hb
  exact UInt8.toNat_inj.1 hb

theorem map_toAsciiLower_utf8EncodeChar (c : Char) :
    (String.utf8EncodeChar c).map UInt8.toAsciiLower = String.utf8EncodeChar c.toLower := by
  cases hupper : c.isUpper with
  | true =>
    have hrange := Unicode.isUpper_iff.1 hupper
    have hlower := Unicode.toNat_toLower hupper
    have hcode : ∀ n < 0x100, (UInt8.ofNat n).toNat = n := fun n hn => Nat.mod_eq_of_lt hn
    rw [utf8EncodeChar_of_ascii (c := c) (by omega),
      utf8EncodeChar_of_ascii (c := c.toLower) (by omega), List.map_singleton, hlower]
    congr 1
    rw [← UInt8.toNat_inj, toNat_toAsciiLower, hcode _ (by omega), hcode _ (by omega),
      if_pos hrange]
  | false =>
    -- no byte is an ASCII capital
    obtain ⟨lead, more, hc, hmore, hlead⟩ := exists_utf8EncodeChar c
    have hcapital : ¬ (65 ≤ lead.toNat ∧ lead.toNat ≤ 90) := by
      rcases hlead with ⟨-, hlead⟩ | ⟨-, hlead⟩
      · rw [hlead, ← Unicode.isUpper_iff, hupper]
        exact Bool.false_ne_true
      · omega
    have hfixed : ∀ b ∈ lead :: more, b.toAsciiLower = b := by
      refine List.forall_mem_cons.2 ⟨?_, fun b hb => toAsciiLower_of_le (hmore b hb).1⟩
      rw [← UInt8.toNat_inj, toNat_toAsciiLower, if_neg hcapital]
    rw [Unicode.toLower_of_isUpper_eq_false hupper, hc]
    exact (List.map_congr_left hfixed).trans (List.map_id _)

/-- The bytes of a text in lower case are its bytes in lower case. -/
theorem map_toAsciiLower_bytes (s : Text) :
    (bytes s).map UInt8.toAsciiLower = bytes (asciiLower s) := by
  induction s with
  | nil => rfl
  | cons c s ih =>
    rw [bytes_cons, List.map_append, ih, map_toAsciiLower_utf8EncodeChar]
    exact (bytes_cons c.toLower (asciiLower s)).symm

theorem size_asciiLower (s : Text) : (asciiLower s).size = s.size := by
  rw [← length_bytes, ← map_toAsciiLower_bytes, List.length_map, length_bytes]

end Bibliography.Text
