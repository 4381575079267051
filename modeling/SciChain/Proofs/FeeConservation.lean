import SciChain.Proofs.Quota
import SciChain.Proofs.Supply

namespace SciChain
open Library L1BlockInfo Journal

variable {World : Type} {rt : Runtime World} {ctx ctx' : Context World} {envelopedTx : Bytes}

theorem quotedCost_of_fits (henv : ctx.tx.envelopedTx = some envelopedTx)
    (hexempt : L1BlockInfo.isExempt envelopedTx = false)
    (hfits : ctx.l1DataFee + ctx.operatorFee ctx.tx.base.gasLimit.toNat < 2 ^ 256) :
    ctx.quotedCost = ctx.l1DataFee + ctx.operatorFee ctx.tx.base.gasLimit.toNat := by
  unfold Context.l1DataFee Context.operatorFee at hfits ⊢
  rw [henv] at hfits ⊢
  exact toNat_additionalCost_of_fits henv hexempt hfits

/-- A charge was accepted, and the fees it was computed from are still cached. -/
structure Charged (rt : Runtime World) (ctx ctx' : Context World) : Prop where
  sameTx : ctx.SameTx ctx'
  accepted : ∃ funds left, rt.calculateCallerFee funds ctx.tx ctx.block ctx.cfg = .ok left
  l1Fee : (ctx'.chain.calculateTxL1Cost (ctx.tx.envelopedTx.getD []) ctx.cfg.spec).1.toNat =
    ctx.l1DataFee
  operatorFee : ∀ gas, ctx'.chain.operatorFee gas ctx.cfg.spec = ctx.operatorFee gas
  supply : ctx'.journal.supply + (ctx.gasPrice rt * ctx.tx.base.gasLimit.toNat +
    ctx.quotedCost) = ctx.journal.supply

/-- The quote is cached together with the fee parameters. -/
theorem fees_kept (henv : ctx.tx.envelopedTx = some envelopedTx)
    (h : chain = ctx.fetchL1Block.chain ∨
      chain = (ctx.fetchL1Block.chain.txCostWithTx ctx.tx ctx.cfg.spec).2) :
    (chain.calculateTxL1Cost (ctx.tx.envelopedTx.getD []) ctx.cfg.spec).1.toNat =
      ctx.l1DataFee ∧ ∀ gas, chain.operatorFee gas ctx.cfg.spec = ctx.operatorFee gas := by
  unfold Context.l1DataFee Context.operatorFee
  rcases h with rfl | rfl
  · exact ⟨rfl, fun _ => rfl⟩
  · rw [snd_txCostWithTx henv, henv, Option.getD_some]
    exact ⟨by rw [calculateTxL1Cost_again],
      fun gas => operatorFee_cached ..⟩

section Deduct

variable (hrt : rt.Lawful) (hdeposit : ctx.isDeposit = false) (hcharges : ctx.cfg.Charges)
  (henv : ctx.tx.envelopedTx = some envelopedTx)

include hrt hdeposit hcharges henv

theorem deduct_charged (h : BaseHandler.validateAgainstStateAndDeductCaller rt ctx = .ok ctx') :
    Charged rt ctx ctx' := by
  obtain ⟨funds, left, hfunds, hfee, hded⟩ := BaseHandler.deduct_ok hdeposit h
  obtain ⟨hl1, hop⟩ := fees_kept henv hded.chain
  have hexact := hrt.callerFee_exact hcharges hfee
  have hsupply := supply_of_others _ _ _ hded.others
  rw [hded.balance] at hsupply
  rw [Context.additionalCost, hcharges.1, if_neg (by decide)] at hfunds
  refine ⟨hded.sameTx, ⟨funds, left, hfee⟩, hl1, hop, ?_⟩
  unfold Context.gasPrice
  omega

/-- The transfers around the inner deduction change nothing of the whole. -/
theorem deductSponsored_charged (hne : payer ≠ ctx.tx.base.caller)
    (h : SciHandler.deductSponsored rt ctx payer = .ok ctx') : Charged rt ctx ctx' := by
  unfold SciHandler.deductSponsored at h
  simp only [bind_ok, pure_eq, Except.ok.injEq] at h
  obtain ⟨pre, hpre, deducted, hdeduct, journal, hreconcile, rfl⟩ := h
  obtain ⟨hsame, hcurrent, hchain, _, _, hmoved⟩ := prefundSigner_moved hne hpre
  have hcharged := deduct_charged hrt (hsame.isDeposit_eq.trans hdeposit)
    (by rw [hsame.cfg]; exact hcharges)
    (by rw [hsame.tx]; exact henv) hdeduct
  obtain ⟨hsigner, hsum, hothers, _⟩ := reconcile_ok hne hreconcile
  have hback : journal.supply = deducted.journal.supply := by
    refine supply_of_pair hne.symm ?_ hothers
    rw [hsigner]
    omega
  have hadvance := hmoved.supply_eq hne
  obtain ⟨hl1, hop⟩ := fees_kept henv (Or.inr hchain)
  have hquote : pre.quotedCost = ctx.quotedCost := by
    unfold Context.quotedCost additionalCost
    rw [hcurrent, hsame.cfg, hsame.tx, hchain, txCostWithTx_again]
  have hsupply := hcharged.supply
  have htrans := hsame.trans hcharged.sameTx
  refine ⟨⟨htrans.block, htrans.tx, htrans.cfg⟩, ?_, ?_, fun gas => ?_, ?_⟩
  · obtain ⟨funds, left, hfee⟩ := hcharged.accepted
    rw [hsame.tx, hsame.block, hsame.cfg] at hfee
    exact ⟨funds, left, hfee⟩
  · have hkept := hcharged.l1Fee
    unfold Context.l1DataFee at hkept
    rw [hcurrent, hsame.tx, hsame.cfg] at hkept
    exact hkept.trans hl1
  · have hkept := hcharged.operatorFee gas
    unfold Context.operatorFee at hkept
    rw [hcurrent, hsame.cfg] at hkept
    exact hkept.trans (hop gas)
  · unfold Context.gasPrice at hsupply ⊢
    rw [hquote, hsame.tx, hsame.block] at hsupply
    rw [hback, hsupply, hadvance]

theorem validate_charged (h : SciHandler.validateAgainstStateAndDeductCaller rt ctx = .ok ctx') :
    Charged rt ctx ctx' := by
  obtain ⟨deducted, hdeduct, hauthorize⟩ := validate_ok h
  obtain ⟨keychain, rfl⟩ := authorize_ok hauthorize
  have hcharged : Charged rt ctx deducted := by
    unfold SciHandler.deductCaller at hdeduct
    split at hdeduct
    · rename_i payer hsponsor
      exact deductSponsored_charged hrt hdeposit hcharges henv
        (BaseTransaction.sponsor_ne hsponsor) hdeduct
    · exact deduct_charged hrt hdeposit hcharges henv hdeduct
  obtain ⟨hsame, haccepted, hl1, hop, hsupply⟩ := hcharged
  exact ⟨⟨hsame.block, hsame.tx, hsame.cfg⟩, haccepted, hl1, hop, hsupply⟩

end Deduct

theorem reimburse_supply (hrt : rt.Lawful) (h : SciHandler.reimburseCaller rt ctx gas = .ok ctx') :
    ctx'.journal.supply = ctx.journal.supply + innerRefund rt ctx gas := by
  cases hsponsor : ctx.tx.sponsor with
  | none =>
    unfold SciHandler.reimburseCaller at h
    simp only [hsponsor] at h
    cases h
    obtain ⟨balance, hle, heq⟩ := reimburseCaller_eq hrt ctx gas
    have hset := ctx.journal.supply_setBalance ctx.tx.base.caller balance
    unfold innerRefund
    rw [heq]
    simp only [balance_setBalance, if_true]
    omega
  | some payer =>
    obtain ⟨_, hsigner, hpayer, hothers, _⟩ := reimburse_sponsored hrt hsponsor h
    have hsupply := supply_of_others ctx.journal ctx'.journal payer
      (fun a ha => by
        by_cases hcaller : a = ctx.tx.base.caller
        · rw [hcaller]
          exact hsigner
        · exact hothers a hcaller ha)
    omega

theorem reimburse_chain (h : SciHandler.reimburseCaller rt ctx gas = .ok ctx') :
    ctx'.chain = ctx.chain := by
  unfold SciHandler.reimburseCaller at h
  split at h
  · cases h
    rfl
  · dsimp only at h
    split at h
    · cases h
      rfl
    · split at h
      · cases h
      · cases h
        rfl

section AfterBody

variable (hrt : rt.Lawful) (hfees : rt.ExactFees) (hdeposit : ctx.isDeposit = false)
  (hcharges : ctx.cfg.Charges)
  (haccepted : ∃ funds left, rt.calculateCallerFee funds ctx.tx ctx.block ctx.cfg = .ok left)

include hfees hdeposit hcharges haccepted

theorem innerRefund_charged (gas : Gas)
    (hgas : gas.remaining + gas.refundedU64 ≤ ctx.tx.base.gasLimit.toNat)
    (hfits : (ctx.journal.balance ctx.tx.base.caller).toNat +
      ctx.gasPrice rt * (gas.remaining + gas.refundedU64) +
      (ctx.chain.operatorFeeRefund gas ctx.cfg.spec).toNat < 2 ^ 256) :
    innerRefund rt ctx gas = ctx.gasPrice rt * (gas.remaining + gas.refundedU64) +
      (ctx.chain.operatorFeeRefund gas ctx.cfg.spec).toNat := by
  obtain ⟨funds, left, hfee⟩ := haccepted
  rw [innerRefund_of_charges gas hdeposit hcharges,
    hfees.reimburse_charged hcharges hfee hgas rfl hfits]
  unfold Context.gasPrice
  omega

include hrt

/-- The beneficiary and the vaults earn the price of the gas used, the L1 fee and
the operator fee of the gas used. -/
theorem reward_supply (gas : Gas) (henv : ctx.tx.envelopedTx = some envelopedTx)
    (hexempt : L1BlockInfo.isExempt envelopedTx = false)
    (hbase : ctx.block.basefee.toNat ≤ ctx.gasPrice rt)
    (hused : gas.used ≤ ctx.tx.base.gasLimit.toNat)
    (hfits : ctx.journal.supply + (ctx.gasPrice rt * gas.used +
      (ctx.chain.calculateTxL1Cost envelopedTx ctx.cfg.spec).1.toNat +
      ctx.chain.operatorFee gas.used ctx.cfg.spec) < 2 ^ 256)
    (h : BaseHandler.rewardBeneficiary rt ctx gas = .ok ctx') :
    ctx'.journal.supply = ctx.journal.supply + (ctx.gasPrice rt * gas.used +
      (ctx.chain.calculateTxL1Cost envelopedTx ctx.cfg.spec).1.toNat +
      ctx.chain.operatorFee gas.used ctx.cfg.spec) := by
  obtain ⟨funds, left, hfee⟩ := haccepted
  have hshare : (ctx.gasPrice rt - ctx.block.basefee.toNat) * gas.used +
      ctx.block.basefee.toNat * gas.used = ctx.gasPrice rt * gas.used := by
    rw [← Nat.add_mul, Nat.sub_add_cancel hbase]
  have hheld := ctx.journal.balance_le_supply ctx.block.beneficiary
  have htip := hfees.reward_charged hcharges hfee hused rfl
    (show _ + (ctx.gasPrice rt - ctx.block.basefee.toNat) * gas.used < 2 ^ 256 by omega)
  obtain ⟨balance, hreward⟩ := hrt.reward_eq ctx gas
  rw [hreward, balance_setBalance, if_pos rfl] at htip
  have hpaid := ctx.journal.supply_setBalance ctx.block.beneficiary balance
  unfold BaseHandler.rewardBeneficiary at h
  simp only [hdeposit, Bool.false_eq_true, if_false, henv, operatorFeeCharge, hexempt,
    operatorFeeChargeInner_cached] at h
  rw [hreward] at h
  cases h
  have hproduct : ctx.block.basefee.toNat * gas.used < 2 ^ 64 * 2 ^ 64 :=
    Nat.mul_lt_mul'' ctx.block.basefee.isLt (by omega)
  have hamount : ((satMul (ctx.block.basefee.setWidth 128) (BitVec.ofNat 128 gas.used) :
      U128).setWidth 256).toNat = ctx.block.basefee.toNat * gas.used := by
    rw [BitVec.toNat_setWidth_of_le (by decide), toNat_satMul,
      BitVec.toNat_setWidth_of_le (by decide), BitVec.toNat_ofNat, Nat.mod_eq_of_lt (by omega)]
    omega
  have hoperator : (if ctx.cfg.spec.isEnabledIn .Isthmus = true then
      ctx.chain.operatorFeeChargeInner (BitVec.ofNat 256 gas.used) ctx.cfg.spec
      else (0 : U256)).toNat = ctx.chain.operatorFee gas.used ctx.cfg.spec := by
    unfold operatorFee
    split <;> rfl
  have htipsum : (ctx.journal.setBalance ctx.block.beneficiary balance).supply =
      ctx.journal.supply + (ctx.gasPrice rt - ctx.block.basefee.toNat) * gas.used := by
    unfold Context.gasPrice at *
    omega
  refine (supply_incr_thrice _ _ _ _ _ _ _ ?_).trans ?_
  · rw [htipsum, hamount, hoperator]
    omega
  · rw [htipsum, hamount, hoperator]
    omega

end AfterBody

/-- The fees of a transaction move native tokens and neither create nor destroy
any: over all accounts the changes made by the charge, by the refund and by the
payment add up to zero, and what is paid out is the price of the gas used with
the L1 fee and the operator fee of that gas. The body is arbitrary as long as it
creates no tokens, and so is its gas as long as the refund is capped. -/
theorem fees_conserve_supply (rt : Runtime World) (hrt : rt.Lawful) (hfees : rt.ExactFees)
    (ctx deducted executed reimbursed rewarded : Context World) (gas : Gas) (first : UInt8)
    (payload : Bytes) (hdeposit : ctx.isDeposit = false)
    (henv : ctx.tx.envelopedTx = some (first :: payload))
    (hfirst : first ≠ depositTransactionType) (hcharges : ctx.cfg.Charges)
    (hfits : ctx.l1DataFee + ctx.operatorFee ctx.tx.base.gasLimit.toNat < 2 ^ 256)
    (hsupply : ctx.journal.supply < 2 ^ 256)
    (hvalid : SciHandler.validateEnv rt ctx = .ok ())
    (hdeduct : SciHandler.validateAgainstStateAndDeductCaller rt ctx = .ok deducted)
    (hsame : deducted.SameTx executed) (hchain : executed.chain = deducted.chain)
    (hbody : executed.journal.supply ≤ deducted.journal.supply)
    (hlimit : gas.limit = ctx.tx.base.gasLimit.toNat)
    (hcapped : gas.remaining + gas.refundedU64 ≤ gas.limit)
    (hreimburse : SciHandler.reimburseCaller rt executed gas = .ok reimbursed)
    (hreward : BaseHandler.rewardBeneficiary rt reimbursed gas = .ok rewarded) :
    ∑ a : Address, (ctx.journal.change deducted.journal a +
      executed.journal.change reimbursed.journal a +
      reimbursed.journal.change rewarded.journal a) = 0 ∧
    ∑ a : Address, reimbursed.journal.change rewarded.journal a =
      ctx.gasPrice rt * gas.used + ctx.l1DataFee + ctx.operatorFee gas.used := by
  have hexempt : isExempt (first :: payload) = false := by
    simp [isExempt, hfirst]
  have hcharged := validate_charged hrt hdeposit hcharges henv hdeduct
  have hcost := hcharged.supply
  rw [quotedCost_of_fits henv hexempt hfits] at hcost
  -- The body and the refund see the same transaction and the same cached fees.
  have hexecuted := hcharged.sameTx.trans hsame
  have hreimbursed := hexecuted.trans (reimburse_same hrt hreimburse).1
  have hchain' : reimbursed.chain = deducted.chain := (reimburse_chain hreimburse).trans hchain
  have hbase : ctx.block.basefee.toNat ≤ ctx.gasPrice rt := by
    unfold SciHandler.validateEnv BaseHandler.validateEnv at hvalid
    simp only [hdeposit, Bool.false_eq_true, if_false, reject_bind_ok] at hvalid
    exact hfees.basefee_le hcharges hvalid.2
  have hused : gas.used + (gas.remaining + gas.refundedU64) = ctx.tx.base.gasLimit.toNat := by
    unfold Gas.used Gas.spent
    omega
  have hsplit : ctx.gasPrice rt * gas.used + ctx.gasPrice rt *
      (gas.remaining + gas.refundedU64) = ctx.gasPrice rt * ctx.tx.base.gasLimit.toNat := by
    rw [← Nat.mul_add, hused]
  have htelescope := deducted.chain.operatorFeeRefund_add
    (show gas.limit < 2 ^ 64 by rw [hlimit]; exact ctx.tx.base.gasLimit.isLt)
    ctx.cfg.spec
  rw [show gas.limit - (gas.remaining + gas.refundedU64) = gas.used by omega, hlimit,
    hcharged.operatorFee, hcharged.operatorFee] at htelescope
  have haccepted : ∀ {ctx' : Context World}, ctx.SameTx ctx' →
      ∃ funds left, rt.calculateCallerFee funds ctx'.tx ctx'.block ctx'.cfg = .ok left :=
    fun h => by
      rw [h.tx, h.block, h.cfg]
      exact hcharged.accepted
  have hrefund : innerRefund rt executed gas = ctx.gasPrice rt *
      (gas.remaining + gas.refundedU64) +
      (deducted.chain.operatorFeeRefund gas ctx.cfg.spec).toNat := by
    have hheld := executed.journal.balance_le_supply executed.tx.base.caller
    have hinner := innerRefund_charged hfees (hexecuted.isDeposit_eq.trans hdeposit)
      (by rw [hexecuted.cfg]; exact hcharges) (haccepted hexecuted) gas
      (by rw [hexecuted.tx]; omega)
      (by rw [hexecuted.gasPrice_eq rt, hchain, hexecuted.cfg]; omega)
    rwa [hexecuted.gasPrice_eq rt, hchain, hexecuted.cfg] at hinner
  have hback := reimburse_supply hrt hreimburse
  have hl1 := hcharged.l1Fee
  rw [henv, Option.getD_some] at hl1
  have hpaid := reward_supply hrt hfees (hreimbursed.isDeposit_eq.trans hdeposit)
    (by rw [hreimbursed.cfg]; exact hcharges) (haccepted hreimbursed) gas
    (by rw [hreimbursed.tx]; exact henv) hexempt
    (by rw [hreimbursed.gasPrice_eq rt, hreimbursed.block]; exact hbase)
    (by rw [hreimbursed.tx]; omega)
    (by rw [hreimbursed.gasPrice_eq rt, hchain', hreimbursed.cfg, hl1, hcharged.operatorFee]; omega)
    hreward
  rw [hreimbursed.gasPrice_eq rt, hchain', hreimbursed.cfg, hl1, hcharged.operatorFee] at hpaid
  rw [Finset.sum_add_distrib, Finset.sum_add_distrib, sum_change, sum_change,
    sum_change]
  constructor
  · omega
  · omega

section Sample

/-- A sponsored transfer whose body leaves 1000 gas and a refund of 200. -/
def sampleGas : Gas := ⟨30000, 1000, 200⟩

def sampleDeducted : Context Unit :=
  okOr (smallContext agentTransfer 2) (SciHandler.validateAgainstStateAndDeductCaller
    (pricedRuntime noTokens fun _ => .ok) (smallContext agentTransfer 2))

def sampleReimbursed : Context Unit :=
  okOr sampleDeducted
    (SciHandler.reimburseCaller (pricedRuntime noTokens fun _ => .ok) sampleDeducted sampleGas)

def sampleRewarded : Context Unit :=
  okOr sampleReimbursed
    (BaseHandler.rewardBeneficiary (pricedRuntime noTokens fun _ => .ok) sampleReimbursed sampleGas)

/-- 28800 gas at a price of one, with the L1 fee of the envelope and an operator fee
of seven. -/
theorem fees_conserve_supply_sponsored :
    ∑ a : Address, ((smallContext agentTransfer 2).journal.change sampleDeducted.journal a +
      sampleDeducted.journal.change sampleReimbursed.journal a +
      sampleReimbursed.journal.change sampleRewarded.journal a) = 0 := by
  refine (fees_conserve_supply (pricedRuntime noTokens fun _ => .ok) pricedRuntime_lawful
    pricedRuntime_exactFees (smallContext agentTransfer 2) sampleDeducted sampleDeducted
    sampleReimbursed sampleRewarded sampleGas sciAaTxTypeId [] (by decide) rfl (by decide)
    ⟨rfl, rfl⟩ (by decide +kernel) ?_ (by decide) ?_ (.refl _) rfl (Nat.le_refl _) rfl (by decide)
    ?_ ?_).1
  · have hle := supply_le (smallContext_supply agentTransfer 2)
    omega
  · exact eq_ok_okOr (by decide +kernel) _
  · exact eq_ok_okOr (by decide +kernel) _
  · exact eq_ok_okOr (by decide +kernel) _

end Sample

end SciChain
