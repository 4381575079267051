import Mathlib.Algebra.Order.BigOperators.Group.Finset

namespace SciChain.Library

variable {κ : Type} {f f' : κ → Nat} {total n : Nat} {a b : κ}

/-- However many of the holders are added up, they hold at most `total`. -/
def HoldsAtMost (f : κ → Nat) (total : Nat) : Prop := ∀ s : Finset κ, ∑ k ∈ s, f k ≤ total

theorem HoldsAtMost.le (h : HoldsAtMost f total) (a : κ) : f a ≤ total := by
  have hsingle := h {a}
  rwa [Finset.sum_singleton] at hsingle

theorem holdsAtMost_of_single (h : f a ≤ total) (hothers : ∀ k, k ≠ a → f k = 0) :
    HoldsAtMost f total := by
  intro s
  by_cases ha : a ∈ s
  · rwa [Finset.sum_eq_single_of_mem a ha (fun k _ hk => hothers k hk)]
  · have hzero : ∑ k ∈ s, f k = 0 :=
      Finset.sum_eq_zero (fun k hk => hothers k (fun he => ha (he ▸ hk)))
    omega

variable [DecidableEq κ]

/-- Without one holder, the others hold at most what it leaves of the total. -/
theorem HoldsAtMost.erase (h : HoldsAtMost f total) (a : κ) (ha : a ∉ s) :
    f a + ∑ k ∈ s, f k ≤ total := by
  have hinsert := h (insert a s)
  rwa [Finset.sum_insert ha] at hinsert

/-- What is taken from one holder is gone from the total. -/
theorem HoldsAtMost.take (h : HoldsAtMost f total) (ha : f' a + n = f a)
    (hothers : ∀ k, k ≠ a → f' k = f k) : HoldsAtMost f' (total - n) := by
  intro s
  have hrest : ∑ k ∈ s.erase a, f' k = ∑ k ∈ s.erase a, f k :=
    Finset.sum_congr rfl (fun k hk => hothers k (Finset.ne_of_mem_erase hk))
  have htotal := h.erase a (Finset.notMem_erase a s)
  by_cases hmem : a ∈ s
  · rw [← Finset.add_sum_erase s f' hmem, hrest]
    omega
  · rw [Finset.erase_eq_of_notMem hmem] at hrest htotal
    omega

/-- What one holder gives and another receives stays within the total. -/
theorem HoldsAtMost.move (h : HoldsAtMost f total) (hne : a ≠ b) (ha : f' a + n = f a)
    (hb : f' b = f b + n) (hothers : ∀ k, k ≠ a → k ≠ b → f' k = f k) :
    HoldsAtMost f' total := by
  intro s
  let rest := (s.erase a).erase b
  have hrest : ∑ k ∈ rest, f' k = ∑ k ∈ rest, f k := by
    refine Finset.sum_congr rfl (fun k hk => ?_)
    exact hothers k (Finset.ne_of_mem_erase (Finset.mem_of_mem_erase hk))
      (Finset.ne_of_mem_erase hk)
  have hbrest : b ∉ rest := Finset.notMem_erase b _
  have harest : a ∉ insert b rest := by simp [rest, hne]
  have hsub : s ⊆ insert a (insert b rest) := by
    intro k hk
    by_cases hka : k = a
    · simp [hka]
    · by_cases hkb : k = b <;> simp [rest, hka, hkb, hk]
  have htotal := h (insert a (insert b rest))
  rw [Finset.sum_insert harest, Finset.sum_insert hbrest] at htotal
  refine Nat.le_trans (Finset.sum_le_sum_of_subset hsub) ?_
  rw [Finset.sum_insert harest, Finset.sum_insert hbrest, hrest]
  omega

/-- The whole changes as its one holder that changes does. -/
theorem sum_of_others [Fintype κ] (hothers : ∀ k, k ≠ a → f' k = f k) :
    ∑ k, f' k + f a = ∑ k, f k + f' a := by
  have hrest : ∑ k ∈ Finset.univ.erase a, f' k = ∑ k ∈ Finset.univ.erase a, f k :=
    Finset.sum_congr rfl (fun k hk => hothers k (Finset.ne_of_mem_erase hk))
  have hnew := Finset.add_sum_erase Finset.univ f' (Finset.mem_univ a)
  have hold := Finset.add_sum_erase Finset.univ f (Finset.mem_univ a)
  omega

end SciChain.Library
