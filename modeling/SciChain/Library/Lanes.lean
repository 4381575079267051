import SciChain.Library.Word

namespace SciChain.Library

variable {w : Nat}

/-- A word whose low `n` bits are set. -/
def lowMask (w n : Nat) : BitVec w :=
  if w ≤ n then BitVec.allOnes w else (1#w <<< n) - 1#w

/-- The `len` bits from position `pos` on, moved to the low end. -/
def lane (a : BitVec w) (pos len : Nat) : BitVec w := (a >>> pos) &&& lowMask w len

def clearLane (a : BitVec w) (pos len : Nat) : BitVec w := a &&& ~~~(lowMask w len <<< pos)

/-- The word with the low `len` bits of `v` at position `pos`. -/
def setLane (a v : BitVec w) (pos len : Nat) : BitVec w :=
  clearLane a pos len ||| ((v &&& lowMask w len) <<< pos)

theorem getLsbD_lowMask (w n i : Nat) : (lowMask w n).getLsbD i = decide (i < n ∧ i < w) := by
  unfold lowMask
  split
  next h =>
    have hi : (i < n ∧ i < w) ↔ i < w := ⟨And.right, fun h' => ⟨by omega, h'⟩⟩
    simp [hi]
  next h =>
    have hn : 2 ^ n < 2 ^ w := Nat.pow_lt_pow_right (by decide) (by omega)
    have hpos := Nat.two_pow_pos n
    have hone : 1 % 2 ^ w = 1 := Nat.mod_eq_of_lt (by omega)
    have hval : ((1#w <<< n) - 1#w).toNat = 2 ^ n - 1 := by
      rw [BitVec.toNat_sub, BitVec.toNat_shiftLeft, BitVec.toNat_ofNat, hone, Nat.one_shiftLeft,
        Nat.mod_eq_of_lt hn]
      have hsum : 2 ^ w - 1 + 2 ^ n = 2 ^ n - 1 + 2 ^ w := by omega
      rw [hsum, Nat.add_mod_right, Nat.mod_eq_of_lt (by omega)]
    rw [BitVec.getLsbD, hval, Nat.testBit_two_pow_sub_one]
    exact decide_eq_decide.mpr ⟨fun h' => ⟨h', by omega⟩, And.left⟩

@[simp] theorem getLsbD_lane (a : BitVec w) (pos len i : Nat) :
    (lane a pos len).getLsbD i = (decide (i < len) && a.getLsbD (pos + i)) := by
  rw [lane, BitVec.getLsbD_and, BitVec.getLsbD_ushiftRight, getLsbD_lowMask, Bool.and_comm]
  by_cases hi : i < w
  · simp [hi]
  · rw [BitVec.getLsbD_of_ge _ _ (by omega)]
    simp

theorem toNat_lane_lt (a : BitVec w) (pos len : Nat) : (lane a pos len).toNat < 2 ^ len := by
  apply Nat.lt_pow_two_of_testBit
  intro i hi
  have hbit := getLsbD_lane a pos len i
  rwa [decide_eq_false (by omega), Bool.false_and] at hbit

theorem getLsbD_clearLane (a : BitVec w) (h : pos + len ≤ w) (i : Nat) :
    (clearLane a pos len).getLsbD i =
      (!decide (pos ≤ i ∧ i < pos + len) && a.getLsbD i) := by
  rw [clearLane, BitVec.getLsbD_and, BitVec.getLsbD_not, BitVec.getLsbD_shiftLeft,
    getLsbD_lowMask]
  by_cases hi : i < w
  · by_cases hp : pos ≤ i
    · by_cases hl : i < pos + len
      · have : i - pos < len ∧ i - pos < w := ⟨by omega, by omega⟩
        simp [*, Nat.not_lt.mpr hp]
      · have : ¬ (i - pos < len) := by omega
        simp [*]
    · simp [hi, hp, Nat.lt_of_not_le hp]
  · simp [hi, BitVec.getLsbD_of_ge a i (by omega)]

theorem getLsbD_setLane (a v : BitVec w) (h : pos + len ≤ w) (i : Nat) :
    (setLane a v pos len).getLsbD i =
      if pos ≤ i ∧ i < pos + len then v.getLsbD (i - pos) else a.getLsbD i := by
  rw [setLane, BitVec.getLsbD_or, getLsbD_clearLane a h, BitVec.getLsbD_shiftLeft,
    BitVec.getLsbD_and, getLsbD_lowMask]
  by_cases hp : pos ≤ i
  · by_cases hl : i < pos + len
    · have hlen : i - pos < len ∧ i - pos < w := ⟨by omega, by omega⟩
      have hi : i < w := by omega
      simp [hp, hl, hlen, hi, Nat.not_lt.mpr hp]
    · have hlen : ¬ (i - pos < len) := by omega
      simp [hp, hl, hlen]
  · simp [hp, Nat.lt_of_not_le hp]

theorem lane_setLane (a : BitVec w) (h : pos + len ≤ w)
    (hv : v.toNat < 2 ^ len) : lane (setLane a v pos len) pos len = v := by
  apply BitVec.eq_of_getLsbD_eq
  intro i hi
  rw [getLsbD_lane, getLsbD_setLane a v h, Nat.add_sub_cancel_left]
  by_cases hl : i < len
  · simp [hl]
  · have hbit : v.getLsbD i = false := by
      apply Nat.testBit_lt_two_pow
      exact Nat.lt_of_lt_of_le hv (Nat.pow_le_pow_right (by decide) (by omega))
    simp [hl, hbit]

theorem lane_setLane_of_disjoint (a v : BitVec w)
    (h : pos + len ≤ w) (hd : pos + len ≤ pos' ∨ pos' + len' ≤ pos) :
    lane (setLane a v pos len) pos' len' = lane a pos' len' := by
  apply BitVec.eq_of_getLsbD_eq
  intro i hi
  rw [getLsbD_lane, getLsbD_lane, getLsbD_setLane a v h]
  by_cases hl : i < len'
  · rw [if_neg (by omega)]
  · simp [hl]

end SciChain.Library
