import Mathlib.Algebra.Order.BigOperators.Group.Finset

namespace SciChain.Library

variable {w v : Nat}

/-- The largest value of a machine word. -/
def maxWord (w : Nat) : BitVec w := BitVec.ofNat w (2 ^ w - 1)

def satAdd (a b : BitVec w) : BitVec w := BitVec.ofNat w (min (a.toNat + b.toNat) (2 ^ w - 1))

def satSub (a b : BitVec w) : BitVec w := BitVec.ofNat w (a.toNat - b.toNat)

def satMul (a b : BitVec w) : BitVec w := BitVec.ofNat w (min (a.toNat * b.toNat) (2 ^ w - 1))

/-- Narrowing that clamps at the largest value of the target width. -/
def satTo (v : Nat) (a : BitVec w) : BitVec v := BitVec.ofNat v (min a.toNat (2 ^ v - 1))

def checkedSub (a b : BitVec w) : Option (BitVec w) :=
  if b.toNat ≤ a.toNat then some (a - b) else none

/-- What an overflowing operation does: panic in a build with overflow checks,
wrap in one without. -/
inductive Overflow where
  | panics
  | wraps
  deriving DecidableEq, Repr

def Overflow.add (mode : Overflow) (a b : BitVec w) : Option (BitVec w) :=
  if a.toNat + b.toNat < 2 ^ w then some (a + b) else
  match mode with
  | .panics => none
  | .wraps => some (a + b)

theorem Overflow.add_of_lt (mode : Overflow) {a b : BitVec w} (h : a.toNat + b.toNat < 2 ^ w) :
    mode.add a b = some (a + b) := by
  unfold Overflow.add
  exact if_pos h

theorem pow_pred_lt (w : Nat) : 2 ^ w - 1 < 2 ^ w := Nat.sub_lt (Nat.two_pow_pos w) Nat.one_pos

@[simp] theorem toNat_maxWord (w : Nat) : (maxWord w).toNat = 2 ^ w - 1 := by
  simp [maxWord, Nat.mod_eq_of_lt (pow_pred_lt w)]

@[simp] theorem toNat_satAdd (a b : BitVec w) :
    (satAdd a b).toNat = min (a.toNat + b.toNat) (2 ^ w - 1) := by
  have h : min (a.toNat + b.toNat) (2 ^ w - 1) < 2 ^ w :=
    Nat.lt_of_le_of_lt (Nat.min_le_right _ _) (pow_pred_lt w)
  simp only [satAdd, BitVec.toNat_ofNat, Nat.mod_eq_of_lt h]

@[simp] theorem toNat_satSub (a b : BitVec w) : (satSub a b).toNat = a.toNat - b.toNat := by
  have h : a.toNat - b.toNat < 2 ^ w := Nat.lt_of_le_of_lt (Nat.sub_le _ _) a.isLt
  simp only [satSub, BitVec.toNat_ofNat, Nat.mod_eq_of_lt h]

@[simp] theorem toNat_satMul (a b : BitVec w) :
    (satMul a b).toNat = min (a.toNat * b.toNat) (2 ^ w - 1) := by
  have h : min (a.toNat * b.toNat) (2 ^ w - 1) < 2 ^ w :=
    Nat.lt_of_le_of_lt (Nat.min_le_right _ _) (pow_pred_lt w)
  simp only [satMul, BitVec.toNat_ofNat, Nat.mod_eq_of_lt h]

@[simp] theorem toNat_satTo (v : Nat) (a : BitVec w) :
    (satTo v a).toNat = min a.toNat (2 ^ v - 1) := by
  have h : min a.toNat (2 ^ v - 1) < 2 ^ v :=
    Nat.lt_of_le_of_lt (Nat.min_le_right _ _) (pow_pred_lt v)
  simp only [satTo, BitVec.toNat_ofNat, Nat.mod_eq_of_lt h]

/-- A product of words of the two narrower widths fits the wide word. -/
theorem toNat_satMul_setWidth (a : BitVec w) (b : BitVec v) (h : w + v ≤ u) :
    (satMul (a.setWidth u) (b.setWidth u)).toNat = a.toNat * b.toNat := by
  have hw : w ≤ u := Nat.le_trans (Nat.le_add_right w v) h
  have hv : v ≤ u := Nat.le_trans (Nat.le_add_left v w) h
  have hlt : a.toNat * b.toNat < 2 ^ u := by
    calc a.toNat * b.toNat < 2 ^ w * 2 ^ v := Nat.mul_lt_mul'' a.isLt b.isLt
      _ = 2 ^ (w + v) := (Nat.pow_add 2 w v).symm
      _ ≤ 2 ^ u := Nat.pow_le_pow_right (by omega) h
  rw [toNat_satMul, BitVec.toNat_setWidth_of_le hw, BitVec.toNat_setWidth_of_le hv]
  omega

theorem toNat_sub_of_toNat_le {a b : BitVec w} (h : b.toNat ≤ a.toNat) :
    (a - b).toNat = a.toNat - b.toNat := BitVec.toNat_sub_of_le (BitVec.le_def.mpr h)

theorem sub_eq_zero_iff_toNat {a b : BitVec w} (h : b.toNat ≤ a.toNat) :
    a - b = 0 ↔ a.toNat = b.toNat := by
  constructor
  · intro hz
    have hs := toNat_sub_of_toNat_le h
    rw [hz, BitVec.ofNat_eq_ofNat, BitVec.toNat_ofNat, Nat.zero_mod] at hs
    omega
  · intro he
    rw [BitVec.eq_of_toNat_eq he, BitVec.sub_self]
    rfl

theorem checkedSub_eq_some {a b c : BitVec w} :
    checkedSub a b = some c ↔ b.toNat ≤ a.toNat ∧ c.toNat = a.toNat - b.toNat := by
  unfold checkedSub
  split
  · rename_i h
    have hs : (a - b).toNat = a.toNat - b.toNat := toNat_sub_of_toNat_le h
    constructor
    · intro he
      cases he
      exact ⟨h, hs⟩
    · rintro ⟨_, hc⟩
      exact congrArg some (BitVec.eq_of_toNat_eq (hs.trans hc.symm))
  · rename_i h
    simp [h]

theorem checkedSub_eq_none : checkedSub a b = none ↔ a.toNat < b.toNat := by
  unfold checkedSub
  split <;> simp <;> omega

end SciChain.Library
