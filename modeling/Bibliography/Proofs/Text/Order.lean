import Bibliography.Text.Basic

set_option autoImplicit false

/-! # The order of texts

The order by code points (`Text.le`) is a total order, which is what sorting needs: a list that is
sorted by texts without repetitions has only one form. Sorting by texts that repeat leaves the
elements with one text in the order in which they were (`isStableSort_mergeSort`).
-/

namespace Bibliography.Text

theorem le_total (s t : Text) : s.le t = true ∨ t.le s = true := by
  induction s generalizing t with
  | nil => exact Or.inl rfl
  | cons c s ih =>
    cases t with
    | nil => exact Or.inr rfl
    | cons d t =>
      by_cases h : c = d
      · subst h
        simpa [le] using ih t
      · have hne : c.toNat ≠ d.toNat := fun heq => h (Char.toNat_inj.1 heq)
        simp only [le, h, Ne.symm h, if_false, decide_eq_true_eq]
        omega

theorem le_trans {s t u : Text} (h₁ : s.le t = true) (h₂ : t.le u = true) : s.le u = true := by
  induction s generalizing t u with
  | nil => rfl
  | cons c s ih =>
    rcases t with _ | ⟨d, t⟩
    · simp [le] at h₁
    rcases u with _ | ⟨e, u⟩
    · simp [le] at h₂
    simp only [le] at h₁ h₂ ⊢
    by_cases hcd : c = d
    · subst hcd
      by_cases hce : c = e
      · subst hce
        rw [if_pos rfl] at h₁ h₂ ⊢
        exact ih h₁ h₂
      · rw [if_neg hce] at h₂ ⊢
        exact h₂
    · rw [if_neg hcd, decide_eq_true_eq] at h₁
      -- the first characters decide: `c` is before `d`, which is not behind `e`
      have hde : d.toNat ≤ e.toNat := by
        by_cases hde : d = e
        · exact hde ▸ Nat.le_refl _
        · rw [if_neg hde, decide_eq_true_eq] at h₂
          omega
      have hce : c ≠ e := by
        rintro rfl
        omega
      rw [if_neg hce, decide_eq_true_eq]
      omega

theorem le_antisymm {s t : Text} (h₁ : s.le t = true) (h₂ : t.le s = true) : s = t := by
  induction s generalizing t with
  | nil =>
    cases t with
    | nil => rfl
    | cons d t => simp [le] at h₂
  | cons c s ih =>
    rcases t with _ | ⟨d, t⟩
    · simp [le] at h₁
    simp only [le] at h₁ h₂
    by_cases hcd : c = d
    · subst hcd
      rw [if_pos rfl] at h₁ h₂
      rw [ih h₁ h₂]
    · rw [if_neg hcd, decide_eq_true_eq] at h₁
      rw [if_neg (Ne.symm hcd), decide_eq_true_eq] at h₂
      omega

/-! ## Stable sorting -/

variable {α : Type}

/-- The list `new` is the list `old` in the ascending order of the texts `key`, and elements with
one text are in it in their old order. -/
structure IsStableSort (key : α → Text) (old new : List α) : Prop where
  perm : new.Perm old
  ascending : new.Pairwise fun a b => (key a).le (key b) = true
  stable : ∀ k, (new.filter fun a => decide (key a = k)) = old.filter fun a => decide (key a = k)

theorem isStableSort_mergeSort (key : α → Text) (l : List α) :
    IsStableSort key l (l.mergeSort fun a b => (key a).le (key b)) := by
  have htrans : ∀ a b c : α, (key a).le (key b) = true → (key b).le (key c) = true →
      (key a).le (key c) = true := fun a b c => le_trans
  have htotal : ∀ a b : α, ((key a).le (key b) || (key b).le (key a)) = true := by
    intro a b
    rw [Bool.or_eq_true]
    exact le_total (key a) (key b)
  have hperm := List.mergeSort_perm l fun a b => (key a).le (key b)
  refine ⟨hperm, List.pairwise_mergeSort htrans htotal l, fun k => ?_⟩
  -- the elements with the text `k` are a sorted part of the list, so they are found in the result
  have hsorted : (l.filter fun a => decide (key a = k)).Pairwise
      fun a b => (key a).le (key b) = true := by
    refine List.pairwise_of_forall_mem_list fun a ha b hb => ?_
    have hak : key a = k := of_decide_eq_true (List.mem_filter.1 ha).2
    have hbk : key b = k := of_decide_eq_true (List.mem_filter.1 hb).2
    rw [hak, hbk]
    exact or_self_iff.1 (le_total k k)
  have hsub := (List.sublist_mergeSort htrans htotal hsorted List.filter_sublist).filter
    fun a => decide (key a = k)
  rw [List.filter_filter] at hsub
  simp only [Bool.and_self] at hsub
  exact (hsub.eq_of_length (hperm.filter _).length_eq.symm).symm

end Bibliography.Text
