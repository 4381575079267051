import SciChain.Evm.L1Block

namespace SciChain
open Library

theorem toNat_div_mul_le (a b : U256) : (a / b).toNat * b.toNat ≤ 2 ^ 256 - 1 := by
  rw [BitVec.toNat_udiv]
  have hle := Nat.div_mul_le_self a.toNat b.toNat
  omega

namespace L1BlockInfo

variable {info : L1BlockInfo} {tx : BaseTransaction}

/-- The fees of a fetched block: the operator scalars keep the width they are
stored in, and every L1 cost formula ends in a division by at least a million. -/
structure Bounded (info : L1BlockInfo) : Prop where
  scalar : (info.operatorFeeScalar.getD 0).toNat < 2 ^ 32
  constant : (info.operatorFeeConstant.getD 0).toNat < 2 ^ 64
  cached : ∀ cost, info.txL1Cost = some cost → cost.toNat < 2 ^ 240

theorem bounded_empty : empty.Bounded where
  scalar := by decide
  constant := by decide
  cached cost h := by cases h

theorem wordSlice_lt (word : U256) (offset len : Nat) :
    wordSlice word offset len < 2 ^ (8 * len) := Nat.mod_lt _ (Nat.two_pow_pos _)

theorem toNat_wordSlice (word : U256) (offset : Nat) (h : len ≤ 32) :
    (BitVec.ofNat 256 (wordSlice word offset len)).toNat < 2 ^ (8 * len) := by
  have hlt := wordSlice_lt word offset len
  have hpow : 2 ^ (8 * len) ≤ 2 ^ 256 := Nat.pow_le_pow_right (by omega) (by omega)
  rw [BitVec.toNat_ofNat, Nat.mod_eq_of_lt (by omega)]
  exact hlt

theorem Bounded.tryFetchEcotone (hb : info.Bounded) (db : Slots) :
    (info.tryFetchEcotone db).Bounded := ⟨hb.scalar, hb.constant, hb.cached⟩

theorem Bounded.tryFetchIsthmus (hb : info.Bounded) (db : Slots) :
    (info.tryFetchIsthmus db).Bounded where
  scalar := toNat_wordSlice (db operatorFeeScalarsSlot) 20 (by decide)
  constant := toNat_wordSlice (db operatorFeeScalarsSlot) 24 (by decide)
  cached := hb.cached

theorem Bounded.tryFetchJovian (hb : info.Bounded) (db : Slots) :
    (info.tryFetchJovian db).Bounded := ⟨hb.scalar, hb.constant, hb.cached⟩

theorem bounded_tryFetch (db : Slots) (l2Block : U256) (spec : BaseUpgrade) :
    (tryFetch db l2Block spec).Bounded := by
  have hout : { empty with l2Block := some l2Block, l1BaseFee := db l1BaseFeeSlot }.Bounded :=
    ⟨bounded_empty.scalar, bounded_empty.constant, bounded_empty.cached⟩
  unfold tryFetch
  dsimp only
  split
  · exact ⟨hout.scalar, hout.constant, hout.cached⟩
  · split <;> split
    · exact ((hout.tryFetchEcotone db).tryFetchIsthmus db).tryFetchJovian db
    · exact (hout.tryFetchEcotone db).tryFetchJovian db
    · exact (hout.tryFetchEcotone db).tryFetchIsthmus db
    · exact hout.tryFetchEcotone db

theorem l1CostOf_lt (info : L1BlockInfo) (input : Bytes) (spec : BaseUpgrade) :
    (info.l1CostOf input spec).toNat < 2 ^ 240 := by
  have hmillion : ∀ a : U256, (a / 1000000).toNat < 2 ^ 240 := by
    intro a
    have h := toNat_div_mul_le a 1000000
    rw [show (1000000 : U256).toNat = 1000000 from rfl] at h
    omega
  unfold l1CostOf calculateTxL1CostFjord calculateTxL1CostEcotone calculateTxL1CostBedrock
  split
  · dsimp only
    split
    · decide
    · generalize satMul ((txEstimatedSizeFjord input).setWidth 256) _ = a
      have h := toNat_div_mul_le a 1000000000000
      rw [show (1000000000000 : U256).toNat = 1000000000000 from rfl] at h
      omega
  · split
    · split
      · exact hmillion _
      · generalize satMul info.calculateL1FeeScaledEcotone _ = a
        have h := toNat_div_mul_le a (1000000 * 16)
        rw [show (1000000 * 16 : U256).toNat = 16000000 from rfl] at h
        omega
    · exact hmillion _

theorem calculateTxL1Cost_spec (hb : info.Bounded) (input : Bytes) (spec : BaseUpgrade) :
    (info.calculateTxL1Cost input spec).1.toNat < 2 ^ 240 ∧
      (info.calculateTxL1Cost input spec).2.Bounded := by
  unfold calculateTxL1Cost
  split
  · rename_i cost hc
    exact ⟨hb.cached cost hc, hb⟩
  · split
    · exact ⟨show (0 : U256).toNat < 2 ^ 240 by decide, hb⟩
    · refine ⟨l1CostOf_lt info input spec, hb.scalar, hb.constant, ?_⟩
      intro cost h
      cases h
      exact l1CostOf_lt info input spec

/-- The cost is computed once: asking again gives the same cost and changes nothing. -/
theorem calculateTxL1Cost_again (info : L1BlockInfo) (input : Bytes) (spec : BaseUpgrade) :
    (info.calculateTxL1Cost input spec).2.calculateTxL1Cost input spec =
      info.calculateTxL1Cost input spec := by
  unfold calculateTxL1Cost
  cases hc : info.txL1Cost with
  | some cost => simp [hc]
  | none =>
    by_cases he : isExempt input = true
    · simp [he, hc]
    · simp [he]

/-- Below the largest word the operator fee is what its formula says. -/
theorem toNat_operatorFeeChargeInner (hb : info.Bounded) (hgas : gas.toNat < 2 ^ 64)
    (spec : BaseUpgrade) : (info.operatorFeeChargeInner gas spec).toNat =
      (if spec.isEnabledIn .Jovian then gas.toNat * (info.operatorFeeScalar.getD 0).toNat * 100
        else gas.toNat * (info.operatorFeeScalar.getD 0).toNat / 1000000) +
        (info.operatorFeeConstant.getD 0).toNat := by
  have hs := hb.scalar
  have hc := hb.constant
  have hprod : gas.toNat * (info.operatorFeeScalar.getD 0).toNat < 2 ^ 96 := by
    calc gas.toNat * (info.operatorFeeScalar.getD 0).toNat < 2 ^ 64 * 2 ^ 32 :=
          Nat.mul_lt_mul'' hgas hs
      _ = 2 ^ 96 := by decide
  have hhundred : (100 : U256).toNat = 100 := rfl
  have hmillion : (1000000 : U256).toNat = 1000000 := rfl
  simp only [operatorFeeChargeInner, toNat_satAdd]
  split
  · simp only [toNat_satMul, hhundred]
    omega
  · simp only [BitVec.toNat_udiv, toNat_satMul, hmillion]
    omega

theorem operatorFeeChargeInner_lt (hb : info.Bounded) (hgas : gas.toNat < 2 ^ 64)
    (spec : BaseUpgrade) : (info.operatorFeeChargeInner gas spec).toNat < 2 ^ 240 := by
  have hs := hb.scalar
  have hc := hb.constant
  have hprod : gas.toNat * (info.operatorFeeScalar.getD 0).toNat < 2 ^ 64 * 2 ^ 32 :=
    Nat.mul_lt_mul'' hgas hs
  rw [toNat_operatorFeeChargeInner hb hgas]
  split <;> omega

theorem txCost_eq (info : L1BlockInfo) (envelopedTx : Bytes) (gasLimit : U256)
    (spec : BaseUpgrade) : info.txCost envelopedTx gasLimit spec =
      (if spec.isEnabledIn .Isthmus then
        satAdd (info.calculateTxL1Cost envelopedTx spec).1
          ((info.calculateTxL1Cost envelopedTx spec).2.operatorFeeCharge envelopedTx gasLimit spec)
        else (info.calculateTxL1Cost envelopedTx spec).1,
      (info.calculateTxL1Cost envelopedTx spec).2) := by
  unfold txCost
  dsimp only
  split <;> rfl

/-- The cost besides gas, with a missing envelope counted as zero. -/
def additionalCost (info : L1BlockInfo) (tx : BaseTransaction) (spec : BaseUpgrade) : U256 :=
  (info.txCostWithTx tx spec).1.getD 0

theorem txCostWithTx_again (info : L1BlockInfo) (tx : BaseTransaction) (spec : BaseUpgrade) :
    (info.txCostWithTx tx spec).2.txCostWithTx tx spec = info.txCostWithTx tx spec := by
  unfold txCostWithTx
  cases he : tx.envelopedTx with
  | none => rfl
  | some envelopedTx =>
    simp [txCost_eq, calculateTxL1Cost_again]

theorem fst_txCostWithTx (he : tx.envelopedTx = some envelopedTx) (info : L1BlockInfo)
    (spec : BaseUpgrade) : (info.txCostWithTx tx spec).1 = some (info.additionalCost tx spec) := by
  unfold additionalCost txCostWithTx
  rw [he]
  rfl

theorem txCostWithTx_spec (hb : info.Bounded) (tx : BaseTransaction) (spec : BaseUpgrade) :
    (info.additionalCost tx spec).toNat < 2 ^ 241 ∧ (info.txCostWithTx tx spec).2.Bounded := by
  unfold additionalCost txCostWithTx
  cases tx.envelopedTx with
  | none => exact ⟨show (0 : U256).toNat < 2 ^ 241 by decide, hb⟩
  | some envelopedTx =>
    obtain ⟨hl1, hb'⟩ := calculateTxL1Cost_spec hb envelopedTx spec
    simp only [txCost_eq, Option.getD_some]
    refine ⟨?_, hb'⟩
    have hgas : (tx.base.gasLimit.setWidth 256).toNat < 2 ^ 64 := by
      rw [BitVec.toNat_setWidth_of_le (by decide)]
      exact tx.base.gasLimit.isLt
    have hop := operatorFeeChargeInner_lt hb' hgas spec
    split
    · unfold operatorFeeCharge
      split
      · rw [toNat_satAdd, show (0 : U256).toNat = 0 from rfl]
        omega
      · rw [toNat_satAdd]
        omega
    · omega

theorem operatorFeeChargeInner_cached (info : L1BlockInfo) (input : Bytes) (spec : BaseUpgrade)
    (gas : U256) : (info.calculateTxL1Cost input spec).2.operatorFeeChargeInner gas spec =
      info.operatorFeeChargeInner gas spec := by
  unfold calculateTxL1Cost
  split
  · rfl
  · split <;> rfl

/-- The operator fee of an amount of gas, zero before the upgrade that brought it. -/
def operatorFee (info : L1BlockInfo) (gas : Nat) (spec : BaseUpgrade) : Nat :=
  if spec.isEnabledIn .Isthmus then
    (info.operatorFeeChargeInner (BitVec.ofNat 256 gas) spec).toNat
  else 0

theorem satMul_mono (h : a.toNat ≤ a'.toNat) (b : U256) :
    (satMul a b).toNat ≤ (satMul a' b).toNat := by
  have hmul := Nat.mul_le_mul_right b.toNat h
  rw [toNat_satMul, toNat_satMul]
  omega

/-- More gas never costs less, also where the products saturate. -/
theorem operatorFeeChargeInner_mono (info : L1BlockInfo) (h : used.toNat ≤ limit.toNat)
    (spec : BaseUpgrade) :
    (info.operatorFeeChargeInner used spec).toNat ≤
      (info.operatorFeeChargeInner limit spec).toNat := by
  have hmul := satMul_mono h (info.operatorFeeScalar.getD 0)
  simp only [operatorFeeChargeInner, toNat_satAdd]
  split
  · have hscaled := satMul_mono hmul 100
    omega
  · have hdiv := Nat.div_le_div_right (c := (1000000 : U256).toNat) hmul
    rw [BitVec.toNat_udiv, BitVec.toNat_udiv]
    omega

theorem operatorFee_mono (info : L1BlockInfo) (h : used ≤ limit) (hlimit : limit < 2 ^ 64)
    (spec : BaseUpgrade) : info.operatorFee used spec ≤ info.operatorFee limit spec := by
  unfold operatorFee
  split
  · apply operatorFeeChargeInner_mono
    rw [BitVec.toNat_ofNat, BitVec.toNat_ofNat, Nat.mod_eq_of_lt (by omega),
      Nat.mod_eq_of_lt (by omega)]
    exact h
  · exact Nat.le_refl _

theorem operatorFeeRefund_add (info : L1BlockInfo) (hlimit : gas.limit < 2 ^ 64)
    (spec : BaseUpgrade) :
    (info.operatorFeeRefund gas spec).toNat +
      info.operatorFee (gas.limit - (gas.remaining + gas.refundedU64)) spec =
        info.operatorFee gas.limit spec := by
  have hmono := info.operatorFee_mono (Nat.sub_le gas.limit (gas.remaining + gas.refundedU64))
    hlimit spec
  by_cases hnew : spec.isEnabledIn .Isthmus = true
  · simp only [operatorFeeRefund, operatorFee, hnew, not_true_eq_false, if_false, if_true,
      toNat_satSub] at hmono ⊢
    omega
  · simp [operatorFeeRefund, operatorFee, hnew]

theorem toNat_additionalCost_of_fits (he : tx.envelopedTx = some envelopedTx)
    (hexempt : isExempt envelopedTx = false)
    (hfits : (info.calculateTxL1Cost envelopedTx spec).1.toNat +
      info.operatorFee tx.base.gasLimit.toNat spec < 2 ^ 256) :
    (info.additionalCost tx spec).toNat = (info.calculateTxL1Cost envelopedTx spec).1.toNat +
      info.operatorFee tx.base.gasLimit.toNat spec := by
  have hwidth : tx.base.gasLimit.setWidth 256 = BitVec.ofNat 256 tx.base.gasLimit.toNat := by
    rw [BitVec.ofNat_toNat]
  unfold additionalCost txCostWithTx
  unfold operatorFee at hfits ⊢
  simp only [he, txCost_eq, Option.getD_some, operatorFeeCharge, hexempt, Bool.false_eq_true,
    if_false, operatorFeeChargeInner_cached, hwidth]
  split
  · rename_i hnew
    rw [if_pos hnew] at hfits
    rw [toNat_satAdd]
    omega
  · rfl

/-- The fees of a fetched block are far from the largest word. -/
theorem toNat_additionalCost (hb : info.Bounded) (he : tx.envelopedTx = some envelopedTx)
    (hexempt : isExempt envelopedTx = false) (spec : BaseUpgrade) :
    (info.additionalCost tx spec).toNat = (info.calculateTxL1Cost envelopedTx spec).1.toNat +
      info.operatorFee tx.base.gasLimit.toNat spec := by
  obtain ⟨hl1, _⟩ := calculateTxL1Cost_spec hb envelopedTx spec
  have hgas : (BitVec.ofNat 256 tx.base.gasLimit.toNat : U256).toNat < 2 ^ 64 := by
    have hlt := tx.base.gasLimit.isLt
    rw [BitVec.toNat_ofNat, Nat.mod_eq_of_lt (by omega)]
    exact hlt
  have hop := operatorFeeChargeInner_lt hb hgas spec
  apply toNat_additionalCost_of_fits he hexempt
  unfold operatorFee
  split <;> omega

theorem operatorFee_cached (info : L1BlockInfo) (input : Bytes) (spec : BaseUpgrade) (gas : Nat) :
    (info.calculateTxL1Cost input spec).2.operatorFee gas spec = info.operatorFee gas spec := by
  unfold operatorFee
  rw [operatorFeeChargeInner_cached]

theorem snd_txCostWithTx (he : tx.envelopedTx = some envelopedTx) (info : L1BlockInfo)
    (spec : BaseUpgrade) :
    (info.txCostWithTx tx spec).2 = (info.calculateTxL1Cost envelopedTx spec).2 := by
  simp [txCostWithTx, he, txCost_eq]

end L1BlockInfo
end SciChain
