import Mathlib.Algebra.BigOperators.Ring.Finset
import Mathlib.Data.BitVec
import SciChain.Proofs.Batch

namespace SciChain
open Library

variable {World : Type}

noncomputable instance : Fintype Address := Fintype.ofEquiv _ BitVec.equivFin.toEquiv.symm

namespace Journal

variable {j j' : Journal World}

/-- What all accounts hold together. -/
noncomputable def supply (j : Journal World) : Nat := ∑ a : Address, (j.balance a).toNat

/-- What happened to the balance of an account. -/
def change (j j' : Journal World) (a : Address) : Int :=
  (j'.balance a).toNat - (j.balance a).toNat

theorem sum_change (j j' : Journal World) :
    ∑ a : Address, j.change j' a = (j'.supply : Int) - j.supply := by
  unfold change supply
  rw [Finset.sum_sub_distrib, Nat.cast_sum, Nat.cast_sum]

theorem supply_congr (h : ∀ a, j'.balance a = j.balance a) :
    j'.supply = j.supply := Finset.sum_congr rfl (fun a _ => by rw [h a])

theorem supply_le (h : j.SupplyAtMost total) : j.supply ≤ total := h Finset.univ

theorem balance_le_supply (j : Journal World) (a : Address) : (j.balance a).toNat ≤ j.supply :=
  Finset.single_le_sum (f := fun a => (j.balance a).toNat) (fun _ _ => Nat.zero_le _)
    (Finset.mem_univ a)

theorem supply_of_single (h : ∀ b, b ≠ a → j.balance b = 0) : j.supply = (j.balance a).toNat :=
  Finset.sum_eq_single a (fun b _ hb => by rw [h b hb]; rfl)
    (fun ha => absurd (Finset.mem_univ a) ha)

theorem supply_of_others (j j' : Journal World) (a : Address)
    (h : ∀ b, b ≠ a → j'.balance b = j.balance b) :
    j'.supply + (j.balance a).toNat = j.supply + (j'.balance a).toNat :=
  sum_of_others (f := fun b => (j.balance b).toNat) (fun b hb => congrArg BitVec.toNat (h b hb))

theorem supply_setBalance (j : Journal World) (a : Address) (amount : U256) :
    (j.setBalance a amount).supply + (j.balance a).toNat = j.supply + amount.toNat := by
  have h := supply_of_others j (j.setBalance a amount) a
    (fun b hb => by rw [balance_setBalance, if_neg hb])
  rwa [balance_setBalance, if_pos rfl] at h

@[simp] theorem supply_bumpNonce (j : Journal World) (a : Address) :
    (j.bumpNonce a).supply = j.supply := supply_congr (balance_bumpNonce j a)

/-- While the whole supply fits into a word, nothing is lost in an increase. -/
theorem supply_incrBalance (j : Journal World) (a : Address) (amount : U256)
    (h : j.supply + amount.toNat < 2 ^ 256) :
    (j.incrBalance a amount).supply = j.supply + amount.toNat := by
  have hset := j.supply_setBalance a (satAdd (j.balance a) amount)
  have hle := j.balance_le_supply a
  rw [toNat_satAdd] at hset
  unfold incrBalance
  omega

theorem supply_incr_thrice (j : Journal World) (a b c : Address) (x y z : U256)
    (h : j.supply + x.toNat + y.toNat + z.toNat < 2 ^ 256) :
    (((j.incrBalance a x).incrBalance b y).incrBalance c z).supply =
      j.supply + x.toNat + y.toNat + z.toNat := by
  have hx := j.supply_incrBalance a x (by omega)
  have hy := (j.incrBalance a x).supply_incrBalance b y (by omega)
  have hz := ((j.incrBalance a x).incrBalance b y).supply_incrBalance c z (by omega)
  omega

/-- What two accounts share out between them is no change of the whole. -/
theorem supply_of_pair (hne : a ≠ b) (hsum : (j'.balance a).toNat + (j'.balance b).toNat =
      (j.balance a).toNat + (j.balance b).toNat)
    (hothers : ∀ c, c ≠ a → c ≠ b → j'.balance c = j.balance c) : j'.supply = j.supply := by
  generalize hset : j.setBalance a (j'.balance a) = mid
  have hmid := j.supply_setBalance a (j'.balance a)
  have hlast := supply_of_others mid j' b (fun c hc => by
    rw [← hset, balance_setBalance]
    split
    · rename_i ha
      rw [ha]
    · rename_i ha
      exact hothers c ha hc)
  have hb : mid.balance b = j.balance b := by rw [← hset, balance_setBalance, if_neg hne.symm]
  rw [hset] at hmid
  rw [hb] at hlast
  omega

theorem Moved.supply_eq (h : Moved source target amount j j') (hne : source ≠ target) :
    j'.supply = j.supply := by
  have hs := h.source_eq
  have ht := h.target_eq
  exact supply_of_pair hne (by omega) h.others

end Journal
end SciChain
