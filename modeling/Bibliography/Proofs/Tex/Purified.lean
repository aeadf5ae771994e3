import Bibliography.Proofs.Tex.Composition
import Bibliography.Proofs.Tex.Transformed
import Mathlib.Data.List.Basic

set_option autoImplicit false

/-! # Purified texts

A purified text is what entries are sorted by, so it must not depend on how a text is braced or
whether it was purified before. Outside special characters purifying goes character by character
and has no use for braces (`purify_of_no_specials`). What is left are characters that purifying
keeps, so purified texts are exactly the ones that it leaves as they are. A pair of braces with no
special character inside makes no difference, unless it would be one itself.

The change to lower case, which works on characters as well where there are no braces, can be made
before or after. This is a matter of single characters and fails outside ASCII: the lower case of a
capital i with a dot is a letter and a mark, of which purifying keeps the letter only.

Main statement: `purify_laws`.
-/

namespace Bibliography.Tex

open NameFormat (isBrace)

variable {c : Char} {s : Text}

/-! ## Texts without special characters -/

theorem purifiedChar_of_isBrace (h : isBrace c = true) : purifiedChar c = [] := by
  rcases eq_of_isBrace h with rfl | rfl <;> decide

/-- A special character starts with a brace and a backslash. -/
theorem Row.purified_of_no_specials {n k : Nat} {us : List TexUnit} (h : Row n us k)
    (hs : ¬ ['{', '\\'] <:+: TexUnit.texts us) :
    us.flatMap TexUnit.purified = (TexUnit.texts us).flatMap purifiedChar := by
  have htail : ∀ {d : Char} {t : Text}, ¬ ['{', '\\'] <:+: d :: t → ¬ ['{', '\\'] <:+: t :=
    fun hnot hfound => hnot (hfound.trans (List.suffix_cons _ _).isInfix)
  induction h with
  | nil n => rfl
  | opening _ _ ih => exact ih (htail hs)
  | closing _ ih => exact ih (htail hs)
  | char _ _ ih => exact congrArg (purifiedChar _ ++ ·) (ih (htail hs))
  | @group k raw us hraw _ _ =>
    obtain ⟨inner, -, rfl⟩ := hraw
    exact absurd ⟨[], inner ++ ['}'] ++ TexUnit.texts us, rfl⟩ hs
  | @unclosed k raw hraw =>
    obtain ⟨inner, -, -, rfl, -⟩ := hraw
    exact absurd ⟨[], inner ++ [], rfl⟩ hs

/-- **Where no backslash follows an opening brace, purifying goes character by character.** -/
theorem purify_of_no_specials (h : ¬ ['{', '\\'] <:+: s) : purify s = s.flatMap purifiedChar := by
  have hrow := (row_scan s).purified_of_no_specials (by rwa [texts_scan])
  rwa [texts_scan] at hrow

theorem not_special_of_no_braces (h : ∀ d ∈ s, isBrace d = false) : ¬ ['{', '\\'] <:+: s := by
  intro hfound
  have hbrace := h '{' (hfound.subset List.mem_cons_self)
  cases hbrace

/-! ## Purifying twice -/

/-- A character that purified texts are made of is kept. -/
theorem purifiedChar_eq_self (h : Unicode.isAlphanumeric c = true ∨ c = ' ') :
    purifiedChar c = [c] := by
  obtain h | rfl := h
  · exact if_pos h
  · decide

/-- A text of letters, numbers and blanks is left as it is. -/
theorem purify_eq_self (h : ∀ d ∈ s, Unicode.isAlphanumeric d = true ∨ d = ' ') :
    purify s = s := by
  have hbraces : ∀ d ∈ s, isBrace d = false := by
    intro d hd
    cases hbrace : isBrace d with
    | false => rfl
    | true =>
      have hkept := purifiedChar_eq_self (h d hd)
      rw [purifiedChar_of_isBrace hbrace] at hkept
      cases hkept
  calc purify s
      = s.flatMap purifiedChar := purify_of_no_specials (not_special_of_no_braces hbraces)
    _ = s.flatMap fun d => [d] :=
        List.flatMap_congr fun d hd => purifiedChar_eq_self (h d hd)
    _ = s := List.flatMap_singleton' s

/-! ## Braces around a part -/

/-- Between two braces of its own, a text without special characters makes none. -/
theorem not_special_in_braces {y : Text} (hstart : y.head? ≠ some '\\')
    (hy : ¬ ['{', '\\'] <:+: y) : ¬ ['{', '\\'] <:+: '{' :: (y ++ ['}']) := by
  intro hfound
  rcases List.infix_cons_iff.1 hfound with hprefix | hfound
  · -- the pair itself would be one
    rw [List.cons_prefix_cons] at hprefix
    cases y with
    | nil => simp at hprefix
    | cons d y =>
      obtain ⟨rfl, -⟩ := List.cons_prefix_cons.1 hprefix.2
      exact hstart rfl
  · obtain ⟨before, after, heq⟩ := hfound
    rcases List.eq_nil_or_concat after with rfl | ⟨after, d, rfl⟩
    · -- the last character is no backslash
      have hlast := congrArg List.getLast? heq
      simp at hlast
    · have hshorter : before ++ ['{', '\\'] ++ after = y := by
        rw [List.concat_eq_append, ← List.append_assoc] at heq
        exact (List.append_inj' heq rfl).1
      exact hy ⟨before, after, hshorter⟩

/-- **A pair of braces around a part without special characters makes no difference.** -/
theorem purify_in_braces {x y : Text} (hx : depth x = 0) (hy : isBalanced y = true)
    (hstart : y.head? ≠ some '\\') (hspecial : ¬ ['{', '\\'] <:+: y) (z : Text) :
    purify (x ++ '{' :: (y ++ '}' :: z)) = purify (x ++ (y ++ z)) := by
  have hgroup : isBalanced ('{' :: (y ++ ['}'])) = true := by
    rw [isBalanced_iff, openAfter?_cons_open, openAfter?_append, openAfter?_of_isBalanced hy]
    rfl
  have hpart : purify ('{' :: (y ++ ['}'])) = purify y := by
    rw [purify_of_no_specials (not_special_in_braces hstart hspecial),
      purify_of_no_specials hspecial, List.flatMap_cons, List.flatMap_append,
      purifiedChar_of_isBrace rfl, List.flatMap_singleton, purifiedChar_of_isBrace rfl,
      List.append_nil, List.nil_append]
  have hsplit : '{' :: (y ++ '}' :: z) = '{' :: (y ++ ['}']) ++ z := by simp
  rw [purify_append hx, purify_append hx, hsplit,
    purify_append (depth_of_isBalanced hgroup), hpart, purify_append (depth_of_isBalanced hy)]

/-! ## Lower case -/

/-- Without braces there is nothing to except from the change. -/
theorem changeCase_lower_of_no_braces (h : ∀ d ∈ s, isBrace d = false) :
    changeCase s .lower = s.flatMap Unicode.lowerOf := by
  have hmode : CaseMode.lower ≠ .title := by decide
  rw [changeCase, changeUnits_of_ne_title hmode, scan_of_no_braces h, charUnits, List.flatMap_map]
  rfl

theorem flatMap_purifiedChar_lowerOf (h : c.toNat < 0x80) :
    (Unicode.lowerOf c).flatMap purifiedChar = (purifiedChar c).flatMap Unicode.lowerOf :=
  Unicode.of_ascii
    (P := fun d => (Unicode.lowerOf d).flatMap purifiedChar =
      (purifiedChar d).flatMap Unicode.lowerOf)
    (by decide +kernel) h

/-- **In an ASCII text without braces, the lower case can be made before or after.** -/
theorem purify_changeCase_lower (hascii : ∀ d ∈ s, d.toNat < 0x80)
    (hbraces : ∀ d ∈ s, isBrace d = false) :
    purify (changeCase s .lower) = changeCase (purify s) .lower := by
  have hlower : ∀ d ∈ s.flatMap Unicode.lowerOf, isBrace d = false := by
    intro d hd
    obtain ⟨e, he, hd⟩ := List.mem_flatMap.1 hd
    have hconvert : d ∈ CaseMode.lower.convert e := hd
    exact isBrace_of_mem_convert (hbraces e he) hconvert
  calc purify (changeCase s .lower)
      = purify (s.flatMap Unicode.lowerOf) :=
        congrArg purify (changeCase_lower_of_no_braces hbraces)
    _ = (s.flatMap Unicode.lowerOf).flatMap purifiedChar :=
        purify_of_no_specials (not_special_of_no_braces hlower)
    _ = (s.flatMap purifiedChar).flatMap Unicode.lowerOf := by
        rw [List.flatMap_assoc, List.flatMap_assoc]
        exact List.flatMap_congr fun d hd => flatMap_purifiedChar_lowerOf (hascii d hd)
    _ = (purify s).flatMap Unicode.lowerOf := by
        rw [purify_of_no_specials (not_special_of_no_braces hbraces)]
    _ = changeCase (purify s) .lower :=
        (changeCase_lower_of_no_braces fun _ => isBrace_of_mem_purify).symm

/-! ## The laws of purified texts -/

/-- **A text is purified to a stable sort key.** Letters, numbers and blanks are left, and texts of
these are what purifying leaves as it is, so purifying twice is purifying once. Where no brace is
open, whatever closing braces stood before, a pair of braces around a balanced part can be left out
or put in, if the part has no special character and would not become one. And in an ASCII text
without braces the lower case can be made before or after. -/
theorem purify_laws (s : Text) :
    (∀ c ∈ purify s, Unicode.isAlphanumeric c = true ∨ c = ' ') ∧
    (purify s = s ↔ ∀ c ∈ s, Unicode.isAlphanumeric c = true ∨ c = ' ') ∧
    purify (purify s) = purify s ∧
    (∀ x y z, s = x ++ '{' :: (y ++ '}' :: z) → depth x = 0 → checkBraces y = .ok () →
      y.head? ≠ some '\\' → ¬ ['{', '\\'] <:+: y → purify s = purify (x ++ (y ++ z))) ∧
    ((∀ c ∈ s, c.toNat < 0x80) → (∀ c ∈ s, isBrace c = false) →
      purify (changeCase s .lower) = changeCase (purify s) .lower) := by
  have hpure : ∀ c ∈ purify s, Unicode.isAlphanumeric c = true ∨ c = ' ' :=
    fun c => isAlphanumeric_or_eq_blank_of_mem_purify
  refine ⟨hpure, ⟨fun heq => heq ▸ hpure, purify_eq_self⟩, purify_eq_self hpure, ?_,
    purify_changeCase_lower⟩
  rintro x y z rfl hx hy hstart hspecial
  exact purify_in_braces hx ((checkBraces_eq_ok_iff y).1 hy) hstart hspecial z

/-- A title with a special character, and a part of it that can stand in braces. -/
theorem purify_laws_bracedTitle :
    (depth "\x7b\\'E\x7ddi ".toList = 0 ∧ checkBraces "Te\x7bX\x7d".toList = .ok () ∧
      ¬ ['{', '\\'] <:+: "Te\x7bX\x7d".toList ∧
      purify "\x7b\\'E\x7ddi \x7bTe\x7bX\x7d\x7d-1".toList =
        purify "\x7b\\'E\x7ddi Te\x7bX\x7d-1".toList) ∧
    (∀ c ∈ "Ex-Libris~I.".toList, c.toNat < 0x80) ∧
    (∀ c ∈ "Ex-Libris~I.".toList, isBrace c = false) ∧
    purify (changeCase "Ex-Libris~I.".toList .lower) =
      changeCase (purify "Ex-Libris~I.".toList) .lower := by
  have hspecial : ¬ ['{', '\\'] <:+: "Te\x7bX\x7d".toList := by decide
  have hascii : ∀ c ∈ "Ex-Libris~I.".toList, c.toNat < 0x80 := by simp
  have hbraces : ∀ c ∈ "Ex-Libris~I.".toList, isBrace c = false := isBrace_eq_false_of_all rfl
  have hbraced := (purify_laws "\x7b\\'E\x7ddi \x7bTe\x7bX\x7d\x7d-1".toList).2.2.2.1
    "\x7b\\'E\x7ddi ".toList "Te\x7bX\x7d".toList "-1".toList rfl rfl rfl (by decide) hspecial
  exact ⟨⟨rfl, rfl, hspecial, hbraced⟩, hascii, hbraces,
    (purify_laws "Ex-Libris~I.".toList).2.2.2.2 hascii hbraces⟩

/-- A special character loses its control sequence, unless that names a letter. -/
example : purify "\x7b\\\"i\x7d \x7b\\ss\x7de-1!".toList = "i sse 1".toList := by decide +kernel

end Bibliography.Tex
