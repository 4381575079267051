import SciChain.Library.Result

namespace SciChain.Library

/-! Elements of a list that are taken by their position. -/

variable {α β : Type}

/-- The elements at the positions that are wanted, the first one after `n` others. -/
def pick (wanted : ℕ → Bool) : ℕ → List α → List α
  | _, [] => []
  | n, a :: l =>
    if wanted (n + 1) then a :: pick wanted (n + 1) l else pick wanted (n + 1) l

/-- Every so many positions. -/
def multipleOf (interval : ℕ) (n : ℕ) : Bool := n % interval = 0

variable {wanted other : ℕ → Bool} {n interval : ℕ} {l l' : List α}

theorem multipleOf_iff : multipleOf interval n = true ↔ interval ∣ n := by
  rw [multipleOf, decide_eq_true_iff, Nat.dvd_iff_mod_eq_zero]

theorem pick_append :
    pick wanted n (l ++ l') = pick wanted n l ++ pick wanted (n + l.length) l' := by
  induction l generalizing n with
  | nil => rfl
  | cons a l ih =>
    have hshift : n + (a :: l).length = n + 1 + l.length := by
      rw [List.length_cons]
      omega
    simp only [List.cons_append, pick, ih, hshift]
    split <;> rfl

theorem pick_sublist : (pick wanted n l).Sublist l := by
  induction l generalizing n with
  | nil => exact List.Sublist.slnil
  | cons a l ih =>
    rw [pick]
    split
    · exact ih.cons_cons a
    · exact ih.cons a

/-- Only the positions in the list matter. -/
theorem pick_congr (h : ∀ k, 1 ≤ k → k ≤ l.length → wanted (n + k) = other (n + k)) :
    pick wanted n l = pick other n l := by
  induction l generalizing n with
  | nil => rfl
  | cons a l ih =>
    have hrest : pick wanted (n + 1) l = pick other (n + 1) l := by
      apply ih
      intro k hk hle
      have hnext := h (k + 1) (by omega) (by simpa using hle)
      rwa [show n + (k + 1) = n + 1 + k by omega] at hnext
    rw [pick, pick, h 1 le_rfl (by simp), hrest]

/-- In a list without repetitions the elements that are taken tell the positions. -/
theorem pick_eq_iff (h : l.Nodup) : pick wanted n l = pick other n l ↔
    ∀ k, 1 ≤ k → k ≤ l.length → wanted (n + k) = other (n + k) := by
  induction l generalizing n with
  | nil =>
    refine iff_of_true rfl ?_
    intro k hk hle
    exact absurd hle (by simp; omega)
  | cons a l ih =>
    obtain ⟨hnot, hnodup⟩ := List.nodup_cons.mp h
    -- The first position decides whether `a` is there, the rest is the tail.
    have hfirst : (∀ k, 1 ≤ k → k ≤ (a :: l).length → wanted (n + k) = other (n + k)) ↔
        wanted (n + 1) = other (n + 1) ∧
          ∀ k, 1 ≤ k → k ≤ l.length → wanted (n + 1 + k) = other (n + 1 + k) := by
      constructor
      · intro hall
        refine ⟨hall 1 le_rfl (by simp), ?_⟩
        intro k hk hle
        have hnext := hall (k + 1) (by omega) (by simpa using hle)
        rwa [show n + (k + 1) = n + 1 + k by omega] at hnext
      · rintro ⟨hone, hrest⟩ k hk hle
        obtain rfl | hlt := Nat.eq_or_lt_of_le hk
        · exact hone
        · have hnext := hrest (k - 1) (by omega) (by rw [List.length_cons] at hle; omega)
          rwa [show n + 1 + (k - 1) = n + k by omega] at hnext
    rw [hfirst, ← ih hnodup]
    simp only [pick]
    cases hw : wanted (n + 1) <;> cases ho : other (n + 1)
    · simp
    · simp only [Bool.false_eq_true, if_false, if_true, false_and, iff_false]
      intro heq
      exact hnot (pick_sublist.subset (heq ▸ List.mem_cons_self))
    · simp only [Bool.false_eq_true, if_false, if_true, Bool.true_eq_false, false_and, iff_false]
      intro heq
      exact hnot (pick_sublist.subset (heq ▸ List.mem_cons_self))
    · simp

/-- The wanted positions of a list are counted from a multiple of the interval as from zero. -/
theorem pick_add (m : ℕ) : pick wanted (m + n) l = pick (fun k => wanted (m + k)) n l := by
  induction l generalizing n with
  | nil => rfl
  | cons a l ih =>
    simp only [pick, Nat.add_assoc, ih (n := n + 1)]

theorem pick_range_succ (f : ℕ → α) (count : ℕ) :
    pick wanted 0 ((List.range (count + 1)).map f) =
      pick wanted 0 ((List.range count).map f) ++
        if wanted (count + 1) then [f count] else [] := by
  rw [List.range_succ, List.map_append, pick_append]
  simp [pick]

/-- The multiples of an interval are the elements at `interval - 1`, `2 * interval - 1` and so
on. -/
theorem pick_multiples (hpos : 0 < interval) (f : ℕ → α) (count : ℕ) :
    pick (multipleOf interval) 0 ((List.range count).map f) =
      (List.range (count / interval)).map (fun i => f ((i + 1) * interval - 1)) := by
  induction count with
  | zero => simp [pick]
  | succ count ih =>
    rw [pick_range_succ, ih, Nat.succ_div]
    by_cases hdvd : interval ∣ count + 1
    · have hend : (count / interval + 1) * interval = count + 1 := by
        obtain ⟨q, hq⟩ := hdvd
        have hdiv : (count + 1) / interval = q := by rw [hq, Nat.mul_div_cancel_left q hpos]
        have hsucc : (count + 1) / interval =
            count / interval + if interval ∣ count + 1 then 1 else 0 := Nat.succ_div
        rw [if_pos ⟨q, hq⟩, hdiv] at hsucc
        rw [← hsucc, hq, Nat.mul_comm]
      rw [if_pos (multipleOf_iff.mpr hdvd), if_pos hdvd, List.range_succ, List.map_append]
      simp [hend]
    · have hnot : ¬multipleOf interval (count + 1) = true := fun h => hdvd (multipleOf_iff.mp h)
      rw [if_neg hnot, if_neg hdvd]
      simp

end SciChain.Library
