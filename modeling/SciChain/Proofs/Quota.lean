import SciChain.Proofs.AdminGate
import SciChain.Proofs.Phases
import SciChain.Proofs.Preflight

namespace SciChain
open Library SciHandler AccountKeychain Context

variable {World : Type} {rt : Runtime World} {ctx : Context World} {aa : BaseAaTransaction}
  {signer root : Address} {payload : Bytes} {result : ExecutionResult} {committed : Context World}

section Fees

/-- The price of gas in the current block. -/
def Context.gasPrice (rt : Runtime World) (ctx : Context World) : Nat :=
  (rt.effectiveGasPrice ctx.tx (ctx.block.basefee.setWidth 128)).toNat

theorem Context.SameTx.gasPrice_eq (h : ctx.SameTx ctx') (rt : Runtime World) :
    ctx'.gasPrice rt = ctx.gasPrice rt := by
  unfold gasPrice
  rw [h.tx, h.block]

/-- L1 data fee of the transaction in the current block. -/
def Context.l1DataFee (ctx : Context World) : Nat :=
  (ctx.fetchL1Block.chain.calculateTxL1Cost (ctx.tx.envelopedTx.getD []) ctx.cfg.spec).1.toNat

def Context.operatorFee (ctx : Context World) (gas : Nat) : Nat :=
  ctx.fetchL1Block.chain.operatorFee gas ctx.cfg.spec

theorem quotedCost_eq (htx : ctx.tx = .fromAa aa signer payload) (hchain : ctx.chain.Bounded) :
    ctx.quotedCost = ctx.l1DataFee + ctx.operatorFee aa.gasLimit.toNat := by
  obtain ⟨chain, hfetch, _, hb⟩ := ctx.fetchL1Block_eq
  have hsplit := L1BlockInfo.toNat_additionalCost (hb hchain) (fromAa_envelopedTx htx)
    (show L1BlockInfo.isExempt (sciAaTxTypeId :: payload) = false from rfl) ctx.cfg.spec
  rw [fromAa_gasLimit htx] at hsplit
  unfold quotedCost l1DataFee operatorFee
  rw [hfetch, fromAa_envelopedTx htx]
  exact hsplit

/-- The refund of the library, with the operator's share. -/
theorem innerRefund_of_charges (gas : Gas) (hdeposit : ctx.isDeposit = false)
    (hcharges : ctx.cfg.Charges) :
    innerRefund rt ctx gas =
      ((rt.reimburseCaller ctx gas (ctx.chain.operatorFeeRefund gas ctx.cfg.spec)).balance
        ctx.tx.base.caller).toNat - (ctx.journal.balance ctx.tx.base.caller).toNat := by
  unfold innerRefund BaseHandler.reimburseCaller
  simp only [hdeposit, hcharges.1, Bool.false_eq_true, not_false_eq_true, and_self, if_true]

section

variable (hrt : rt.Lawful)
include hrt

theorem innerRefund_eq (gas : Gas) (hdeposit : ctx.isDeposit = false) (hcharges : ctx.cfg.Charges)
    (hsmall : ctx.gasPrice rt * (gas.remaining + gas.refundedU64) < 2 ^ 128)
    (hfits : (ctx.journal.balance ctx.tx.base.caller).toNat +
      ctx.gasPrice rt * (gas.remaining + gas.refundedU64) +
      (ctx.chain.operatorFeeRefund gas ctx.cfg.spec).toNat < 2 ^ 256) :
    innerRefund rt ctx gas = ctx.gasPrice rt * (gas.remaining + gas.refundedU64) +
      (ctx.chain.operatorFeeRefund gas ctx.cfg.spec).toNat := by
  rw [innerRefund_of_charges gas hdeposit hcharges, hrt.reimburse_exact hcharges rfl hsmall hfits]
  unfold gasPrice
  omega

theorem gasPrice_le (htx : ctx.tx = .fromAa aa signer payload) :
    ctx.gasPrice rt ≤ aa.maxFeePerGas.toNat := by
  have hle := hrt.effectiveGasPrice_le ctx.tx (ctx.block.basefee.setWidth 128)
  rwa [fromAa_gasPrice htx] at hle

variable (p : Phases rt ctx result committed) (htx : ctx.tx = .fromAa aa signer payload)
include p htx

/-- What the sponsor pays before the body: the whole gas limit, the L1 data fee
and the operator fee of the limit. -/
theorem Phases.charged (hpayer : aa.feePayer = some root) (hne : root ≠ signer)
    (hcharges : ctx.cfg.Charges) (hchain : ctx.chain.Bounded) :
    (p.deducted.journal.balance root).toNat + (ctx.gasPrice rt * aa.gasLimit.toNat +
        ctx.l1DataFee + ctx.operatorFee aa.gasLimit.toNat) = (ctx.journal.balance root).toNat ∧
      (∀ a, a ≠ root → p.deducted.journal.balance a = ctx.journal.balance a) ∧
      p.deducted.chain = (ctx.fetchL1Block.chain.txCostWithTx ctx.tx ctx.cfg.spec).2 := by
  obtain ⟨deducted, hdeduct, hauthorize⟩ := validate_sponsored htx hpayer hne p.deduct_ok
  obtain ⟨keychain, heq⟩ := authorize_ok hauthorize
  obtain ⟨_, amount, _, _, hpaid, hexact⟩ := deductSponsored_ok hrt htx hchain hne hdeduct
  have hbalance : ∀ a, p.deducted.journal.balance a = deducted.journal.balance a := by
    intro a
    rw [heq]
    rfl
  have hamount := hexact hcharges
  have hquote := quotedCost_eq htx hchain
  have hpaid' := hpaid.payer_eq
  rw [additionalCost, hcharges.1, if_neg Bool.false_ne_true,
    fromAa_gasLimit htx] at hamount
  refine ⟨?_, ?_, ?_⟩
  · rw [hbalance]
    unfold gasPrice
    omega
  · intro a ha
    rw [hbalance]
    by_cases hsigner : a = ctx.tx.base.caller
    · rw [hsigner]
      exact hpaid.signer_eq
    · exact hpaid.others a hsigner ha
  · rw [heq]
    exact hpaid.chain

theorem Phases.executed_supply (h : p.deducted.journal.SupplyAtMost total) :
    p.executed.journal.SupplyAtMost total :=
  p.body_invariant (P := fun j => j.SupplyAtMost total) hrt htx
    (fun _ _ _ hctx hexit => hrt.frame_supply hexit hctx) h

theorem Phases.unused_eq :
    aa.gasLimit.toNat = p.frame.gas.used + (p.frame.gas.remaining + p.frame.gas.refundedU64) := by
  obtain ⟨hlimit, hwithin⟩ := p.gas_spec hrt htx
  rw [Gas.used, Gas.spent, hlimit]
  omega

theorem Phases.executed_sameTx : ctx.SameTx p.executed :=
  (validate_sameTx htx p.deduct_ok).trans (p.body_spec hrt htx).1

/-- The operator fee paid back is what was charged beyond the gas used: the
information cached by the quote is still there. -/
theorem Phases.operatorFee_refund
    (hcached : p.deducted.chain = (ctx.fetchL1Block.chain.txCostWithTx ctx.tx ctx.cfg.spec).2) :
    (p.executed.chain.operatorFeeRefund p.frame.gas ctx.cfg.spec).toNat +
      ctx.operatorFee p.frame.gas.used = ctx.operatorFee aa.gasLimit.toNat := by
  obtain ⟨hlimit, _⟩ := p.gas_spec hrt htx
  obtain ⟨chain, hfetch, _, _⟩ := ctx.fetchL1Block_eq
  have hchain' : p.executed.chain =
      (chain.calculateTxL1Cost (sciAaTxTypeId :: payload) ctx.cfg.spec).2 := by
    rw [(p.body_spec hrt htx).2.1, hcached, hfetch,
      L1BlockInfo.snd_txCostWithTx (fromAa_envelopedTx htx)]
  have hfee : ∀ gas, p.executed.chain.operatorFee gas ctx.cfg.spec = ctx.operatorFee gas := by
    intro gas
    unfold operatorFee
    rw [hchain', L1BlockInfo.operatorFee_cached, hfetch]
  have hused : p.frame.gas.limit - (p.frame.gas.remaining + p.frame.gas.refundedU64) =
      p.frame.gas.used := by
    rw [Gas.used, Gas.spent, Nat.sub_sub]
  have htelescope := p.executed.chain.operatorFeeRefund_add
    (show p.frame.gas.limit < 2 ^ 64 by rw [hlimit]; exact aa.gasLimit.isLt) ctx.cfg.spec
  rwa [hused, hlimit, hfee, hfee] at htelescope

/-- What the transaction itself takes from its sponsor in fees: the gas used at
the effective price, the L1 data fee, and the operator fee of the gas used. -/
theorem Phases.fees (hpayer : aa.feePayer = some root) (hne : root ≠ signer)
    (hcharges : ctx.cfg.Charges) (hchain : ctx.chain.Bounded)
    (hcap : aa.gasLimit.toNat * aa.maxFeePerGas.toNat < 2 ^ 128)
    (hsupply : ctx.journal.SupplyAtMost (2 ^ 256 - 1)) :
    (p.reimbursed.journal.balance root).toNat + (p.deducted.journal.balance root).toNat +
        (ctx.gasPrice rt * p.frame.gas.used + ctx.l1DataFee + ctx.operatorFee p.frame.gas.used) =
      (ctx.journal.balance root).toNat + (p.executed.journal.balance root).toNat := by
  obtain ⟨hcharged, hothers, hcached⟩ := p.charged hrt htx hpayer hne hcharges hchain
  -- Whatever the signer holds now, the charge is not part of it, so it fits on top.
  have hroom := (p.executed_supply hrt htx
    (HoldsAtMost.take hsupply hcharged (fun a ha => by rw [hothers a ha]))).le signer
  have hsame := p.executed_sameTx hrt htx
  have htx' : p.executed.tx = .fromAa aa signer payload := hsame.tx.trans htx
  have hcaller : p.executed.tx.base.caller = signer := fromAa_caller htx'
  have hprice : p.executed.gasPrice rt = ctx.gasPrice rt := by
    unfold gasPrice
    rw [hsame.tx, hsame.block]
  have hop := p.operatorFee_refund hrt htx hcached
  have hgas : ctx.gasPrice rt * aa.gasLimit.toNat = ctx.gasPrice rt * p.frame.gas.used +
      ctx.gasPrice rt * (p.frame.gas.remaining + p.frame.gas.refundedU64) := by
    rw [p.unused_eq hrt htx, Nat.mul_add]
  have hmost : ctx.gasPrice rt * aa.gasLimit.toNat ≤
      aa.gasLimit.toNat * aa.maxFeePerGas.toNat := by
    rw [Nat.mul_comm]
    exact Nat.mul_le_mul_left _ (gasPrice_le hrt htx)
  have hrefund := innerRefund_eq hrt p.frame.gas (fromAa_isDeposit htx')
    (by rw [hsame.cfg]; exact hcharges) (by rw [hprice]; omega)
    (by rw [hcaller, hprice, hsame.cfg]; omega)
  rw [hprice, hsame.cfg] at hrefund
  obtain ⟨_, _, hcredit, _, _⟩ :=
    reimburse_sponsored hrt (sponsor_of_root htx' hpayer hne) p.reimburse_ok
  change (p.reimbursed.journal.balance root).toNat =
    (p.executed.journal.balance root).toNat + innerRefund rt p.executed p.frame.gas at hcredit
  omega

end

end Fees

section Keychain

/-- Under a session key a frame leaves keys, limits and scopes alone. -/
theorem frame_session (hrt : rt.Lawful) (hkey : passed.transactionKey ≠ 0)
    (hs : SameAdminState passed ctx.journal.keychain) (h : rt.runExecLoop ctx input = .ok exit) :
    SameAdminState passed exit.journal.keychain := by
  obtain ⟨calls, hcalls⟩ := hrt.frame_keychain h
  rw [hcalls]
  exact hs.trans (callAll_session _ (by rw [hs.2.2.2]; exact hkey) calls)

variable (hrt : rt.Lawful) (p : Phases rt ctx result committed)
  (htx : ctx.tx = .fromAa aa signer payload)
include hrt p htx

/-- From the hook to the settlement the keychain's administrative state is that
of the hook, whatever the body did. -/
theorem Phases.keychain_spec (hroot : aa.root = some root)
    (hreach : KeychainReachable ctx.journal.keychain) :
    ∃ passed, ctx.journal.keychain.runAaKeychainHook rt.tokenAbi ctx.storageCtx
        ctx.journal.agentState root signer aa.calls (ctx.tx.meteredGas root aa.gasLimit) =
          .ok (.pass, passed) ∧ SameAdminState passed p.rewarded.journal.keychain := by
  obtain ⟨charged, hdeduct, hauthorize⟩ := validate_ok p.deduct_ok
  obtain ⟨hsame, _, hkeychain, hagents⟩ := deductCaller_ok htx hdeduct
  obtain ⟨passed, hpass, hdeducted⟩ := authorize_pass (hsame.tx.trans htx) hroot hauthorize
  unfold storageCtx at hpass ⊢
  rw [hkeychain, hagents, hsame.block, hsame.tx] at hpass
  obtain ⟨_, _, _, hkey, _⟩ := runAaKeychainHook_pass hpass
  obtain ⟨hzero, _, _⟩ := active_of_pass hreach hpass rfl
  have hsession : passed.transactionKey ≠ 0 := by rw [hkey]; exact hzero
  have hstart : SameAdminState passed p.deducted.journal.keychain := by
    rw [hdeducted]
    exact .refl passed
  have hexecuted := p.body_invariant (P := fun j => SameAdminState passed j.keychain) hrt htx
    (fun _ _ _ hs hexit => frame_session hrt hsession hs hexit) hstart
  refine ⟨passed, hpass, ?_⟩
  rw [(reward_same hrt p.reward_ok).2.keychain, (reimburse_same hrt p.reimburse_ok).2.keychain]
  exact hexecuted

end Keychain

section Settlement

/-- Token amounts of the batch that are booked on the native limit: calls to the
zero address that look like token transfers. -/
def zeroTokenSpend (abi : TokenAbi) (root : Address) (calls : List AaCall) : Nat :=
  amountOf 0 (calls.filterMap (AaCall.tokenSpend abi root))

theorem batchTotal_zero (abi : TokenAbi) (root : Address) (calls : List AaCall) (gas : U256) :
    batchTotal abi root calls gas 0 = gas.toNat +
      (valueTotal calls + zeroTokenSpend abi root calls) := by
  unfold batchTotal zeroTokenSpend
  rw [amountOf_spends, if_pos rfl, if_pos rfl]

/-- The native limit of the key, as the keychain reports it. -/
def Context.nativeLimit (ctx : Context World) (root sessionKey : Address) : Nat :=
  (ctx.journal.keychain.effectiveRemainingLimit ctx.storageCtx root sessionKey 0
    ctx.storageCtx.now).toNat

/-- Skipping the deductions is the same as deducting nothing. -/
theorem settle_apply (htx : ctx.tx = .fromAa aa signer payload) (hroot : aa.root = some root)
    (h : SciHandler.settle rt ctx frame = .ok settled) :
    ∃ keychain, ctx.journal.keychain.applyAaPostExecutionDeductions rt.tokenAbi ctx.storageCtx
        root signer (if frame.result = .ok then aa.calls else [])
        (ctx.tx.meteredGas root (BitVec.ofNat 64 frame.gas.used)) = .ok keychain ∧
      settled = ctx.withKeychain keychain := by
  unfold SciHandler.settle at h
  simp only [fromAa_root htx, hroot, fromAa_parts htx, fromAa_caller htx, Option.map_some,
    Option.getD_some] at h
  split at h
  · split at h
    · cases h
    · rename_i keychain hok
      exact ⟨keychain, hok, (Except.ok.inj h).symm⟩
  · rename_i hskip
    rw [not_or, not_not] at hskip
    refine ⟨ctx.journal.keychain, ?_, (Except.ok.inj h).symm⟩
    rw [if_neg hskip.1, hskip.2]
    rfl

theorem meteredGas_sponsored {tx : BaseTransaction} (htx : tx = .fromAa aa signer payload)
    (hpayer : aa.feePayer = some root) (gas : U64) :
    (tx.meteredGas root gas).toNat = gas.toNat * aa.maxFeePerGas.toNat := by
  have hpays : tx.meteredGas root gas = SciChain.meteredGas true gas aa.maxFeePerGas := by
    unfold BaseTransaction.meteredGas
    rw [fromAa_feePayer htx, hpayer, decide_eq_true rfl, htx]
    rfl
  rw [hpays, toNat_meteredGas]

/-- The calls that are booked: all of them or none. -/
def Phases.bookedCalls (p : Phases rt ctx result committed) (aa : BaseAaTransaction) :
    List AaCall :=
  if p.frame.result = .ok then aa.calls else []

section

variable (hrt : rt.Lawful) (p : Phases rt ctx result committed)
  (htx : ctx.tx = .fromAa aa signer payload)
include hrt p htx

theorem Phases.rewarded_sameTx : ctx.SameTx p.rewarded :=
  ((p.executed_sameTx hrt htx).trans (reimburse_same hrt p.reimburse_ok).1).trans
    (reward_same hrt p.reward_ok).1

theorem Phases.toNat_used :
    (BitVec.ofNat 64 p.frame.gas.used : U64).toNat = p.frame.gas.used ∧
      p.frame.gas.used ≤ aa.gasLimit.toNat := by
  have hunused := p.unused_eq hrt htx
  rw [BitVec.toNat_ofNat, Nat.mod_eq_of_lt (by omega)]
  omega

variable (hroot : aa.root = some root) (hpayer : aa.feePayer = some root)
  (hreach : KeychainReachable ctx.journal.keychain) (hts : ctx.block.timestamp.toNat < 2 ^ 64 - 1)
  (he : (ctx.journal.keychain.keys root signer).enforceLimits = true)
include hroot hpayer hreach hts he

/-- The settlement takes the booked calls and the gas used from the limit. -/
theorem Phases.settled :
    ∃ keychain, committed.journal.keychain = (keychain.setTransactionKey 0).setTxOrigin 0 ∧
      committed.block = ctx.block ∧ Limited ctx.block.timestamp root signer keychain ∧
      available ctx.block.timestamp root signer keychain 0 +
        batchTotal rt.tokenAbi root (p.bookedCalls aa)
          (ctx.tx.meteredGas root (BitVec.ofNat 64 p.frame.gas.used)) 0 =
        available ctx.block.timestamp root signer ctx.journal.keychain 0 := by
  obtain ⟨passed, hpass, hadmin⟩ := p.keychain_spec hrt htx hroot hreach
  obtain ⟨settled, hsettle, _, hfinal, hjournal⟩ := executionResult_ok p.result_ok
  have hsame := p.rewarded_sameTx hrt htx
  obtain ⟨keychain, happly, rfl⟩ := settle_apply (hsame.tx.trans htx) hroot hsettle
  unfold storageCtx at happly
  rw [hsame.block, hsame.tx] at happly
  have hmono : (ctx.tx.meteredGas root (BitVec.ofNat 64 p.frame.gas.used)).toNat ≤
      (ctx.tx.meteredGas root aa.gasLimit).toNat := by
    obtain ⟨hused, hle⟩ := p.toNat_used hrt htx
    rw [meteredGas_sponsored htx hpayer, meteredGas_sponsored htx hpayer, hused]
    exact Nat.mul_le_mul_right _ hle
  have hbatch : p.bookedCalls aa = aa.calls ∨ p.bookedCalls aa = [] := by
    unfold Phases.bookedCalls
    split
    · exact Or.inl rfl
    · exact Or.inr rfl
  have hkeys : p.rewarded.journal.keychain.keys root signer = passed.keys root signer := by
    rw [hadmin.1]
  obtain ⟨_, _, hrecord⟩ := active_of_pass hreach hpass hkeys
  obtain ⟨_, _, hrows, _, _⟩ := runAaKeychainHook_pass hpass
  obtain ⟨booked, hbooked, hlimited, hleft⟩ := settle_of_pass hreach hts hbatch hmono hpass hkeys
    (by rw [hadmin.2.1]) (by rw [hrecord]; exact he)
  obtain rfl : keychain = booked := Except.ok.inj (happly.symm.trans hbooked)
  refine ⟨keychain, by rw [hjournal]; rfl, hfinal.block.trans hsame.block, hlimited, ?_⟩
  rw [hleft 0]
  simp [available, rowOf, hadmin.2.1, hrows]

/-- The native limit of the key decreases by exactly what is booked. -/
theorem Phases.quota :
    committed.nativeLimit root signer + (p.frame.gas.used * aa.maxFeePerGas.toNat +
      if p.frame.result = .ok then
        valueTotal aa.calls + zeroTokenSpend rt.tokenAbi root aa.calls else 0) =
      ctx.nativeLimit root signer := by
  obtain ⟨passed, hpass, _⟩ := p.keychain_spec hrt htx hroot hreach
  obtain ⟨hactive, _⟩ := runAaKeychainHook_pass hpass
  obtain ⟨keychain, hkeychain, hblock, hlimited, hleft⟩ :=
    p.settled hrt htx hroot hpayer hreach hts he
  have hafter : committed.nativeLimit root signer =
      available ctx.block.timestamp root signer keychain 0 := by
    unfold nativeLimit storageCtx
    rw [hkeychain, hblock]
    exact toNat_effectiveRemainingLimit hlimited.1 hlimited.2.1 0
  have hbefore : ctx.nativeLimit root signer =
      available ctx.block.timestamp root signer ctx.journal.keychain 0 :=
    toNat_effectiveRemainingLimit hlimited.1 hactive 0
  rw [batchTotal_zero, meteredGas_sponsored htx hpayer, (p.toNat_used hrt htx).1] at hleft
  rw [hafter, hbefore, ← hleft]
  unfold Phases.bookedCalls
  split
  · rfl
  · rfl

end

end Settlement

section Debit

/-- The context after the body, and its gas as it is paid for. -/
def Context.executed (rt : Runtime World) (ctx : Context World) : FrameResult × Context World :=
  let initial := okOr ⟨0, 0⟩ (rt.validateInitialTxGas ctx.tx ctx.cfg)
  let body := okOr (⟨.halt, .newSpent 0⟩, ctx) (execution rt (ctx.deducted rt) initial)
  (finalFrame body.2 initial 0 body.1, body.2)

def Context.reimbursed (rt : Runtime World) (ctx : Context World) : Context World :=
  okOr ctx (reimburseCaller rt (ctx.executed rt).2 (ctx.executed rt).1.gas)

theorem Phases.executed_eq (p : Phases rt ctx result committed) :
    ctx.executed rt = (p.frame, p.executed) := by
  simp only [Context.executed, p.deducted_eq, okOr_of_eq p.initial_ok, okOr_of_eq p.execution_ok]
  rfl

theorem Phases.reimbursed_eq (p : Phases rt ctx result committed) :
    ctx.reimbursed rt = p.reimbursed := by
  unfold Context.reimbursed
  rw [p.executed_eq]
  exact okOr_of_eq p.reimburse_ok ctx

/-- What the transaction itself takes from an account: what it is charged less
what it is paid back, and the values of the calls if they are carried out. -/
def nativeDebit (rt : Runtime World) (ctx : Context World) (calls : List AaCall)
    (root : Address) : Int :=
  ((ctx.journal.balance root).toNat - ((ctx.deducted rt).journal.balance root).toNat) +
    (((ctx.executed rt).2.journal.balance root).toNat -
      ((ctx.reimbursed rt).journal.balance root).toNat) +
    if (ctx.executed rt).1.result = .ok then (valueTotal calls : Int) else 0

end Debit

/-- The native limit of a sponsored key decreases by at least what the root loses
exactly when the fees, with the L1 data fee and the operator fee, are no more
than the gas used at the fee cap. -/
theorem quota_covers_debit_iff (rt : Runtime World) (hrt : rt.Lawful) (aa : BaseAaTransaction)
    (signer root : Address) (payload : Bytes) (hroot : aa.root = some root)
    (hpayer : aa.feePayer = some root) (hne : root ≠ signer) (ctx : Context World)
    (htx : ctx.tx = .fromAa aa signer payload) (hcharges : ctx.cfg.Charges)
    (hchain : ctx.chain.Bounded) (hreach : KeychainReachable ctx.journal.keychain)
    (hts : ctx.block.timestamp.toNat < 2 ^ 64 - 1)
    (he : (ctx.journal.keychain.keys root signer).enforceLimits = true)
    (result : ExecutionResult) (committed : Context World)
    (h : SciHandler.run rt ctx = .ok (result, committed))
    (hsupply : ctx.journal.SupplyAtMost (2 ^ 256 - 1)) :
    nativeDebit rt ctx aa.calls root ≤
        (ctx.nativeLimit root signer : Int) - committed.nativeLimit root signer ↔
      ctx.gasPrice rt * (ctx.executed rt).1.gas.used + ctx.l1DataFee +
          ctx.operatorFee (ctx.executed rt).1.gas.used ≤
        (ctx.executed rt).1.gas.used * aa.maxFeePerGas.toNat +
          if (ctx.executed rt).1.result = .ok then zeroTokenSpend rt.tokenAbi root aa.calls
          else 0 := by
  obtain ⟨p⟩ := exists_phases hrt htx h
  rw [p.executed_eq]
  have hcap : aa.gasLimit.toNat * aa.maxFeePerGas.toNat < 2 ^ 128 := by
    obtain ⟨passed, hpass, _⟩ := p.keychain_spec hrt htx hroot hreach
    rw [← meteredGas_sponsored htx hpayer]
    exact reserved_lt_of_pass hreach hpass he
  have hfees := p.fees hrt htx hpayer hne hcharges hchain hcap hsupply
  have hquota := p.quota hrt htx hroot hpayer hreach hts he
  unfold nativeDebit
  rw [p.executed_eq, p.deducted_eq, p.reimbursed_eq]
  dsimp only
  by_cases hok : p.frame.result = .ok
  · rw [if_pos hok] at hquota
    rw [if_pos hok, if_pos hok]
    omega
  · rw [if_neg hok] at hquota
    rw [if_neg hok, if_neg hok]
    omega

/-- The root loses 1621012, almost all of it the L1 data fee; the limit falls by 42005. -/
theorem l1_fee_exceeds_quota :
    (SciHandler.run (plainRuntime noTokens fun _ => .ok)
      (smallContext agentTransfer 2)).toOption.map (fun r =>
        ((smallContext agentTransfer 2).nativeLimit 1 2 - r.2.nativeLimit 1 2,
          ((smallContext agentTransfer 2).journal.balance 1 - r.2.journal.balance 1).toNat)) =
      some (42005, 1621012) ∧
    nativeDebit (plainRuntime noTokens fun _ => .ok) (smallContext agentTransfer 2)
      agentTransfer.calls 1 = 1621012 := by
  decide +kernel

/-- Without L1 and operator fees the limit covers the debit. -/
theorem quota_covers_debit_iff_without_l1_fee :
    ∃ committed, (SciHandler.run (plainRuntime noTokens fun _ => .ok)
        { smallContext agentTransfer 2 with db := fun _ => 0 }).toOption = some committed ∧
      nativeDebit (plainRuntime noTokens fun _ => .ok)
          { smallContext agentTransfer 2 with db := fun _ => 0 } agentTransfer.calls 1 ≤
        (({ smallContext agentTransfer 2 with db := fun _ => 0 } : Context Unit).nativeLimit 1 2 :
          Int) - committed.2.nativeLimit 1 2 := by
  obtain ⟨⟨result, committed⟩, h⟩ := exists_of_isOk (show (SciHandler.run
    (plainRuntime noTokens fun _ => .ok)
    { smallContext agentTransfer 2 with db := fun _ => 0 }).isOk = true by decide +kernel)
  refine ⟨(result, committed), by rw [h]; rfl, ?_⟩
  exact (quota_covers_debit_iff _ plainRuntime_lawful agentTransfer 2 1 [] rfl rfl (by decide)
    { smallContext agentTransfer 2 with db := fun _ => 0 } rfl ⟨rfl, rfl⟩
    L1BlockInfo.bounded_empty (.of_run agentKeySteps (by decide)) (by decide) (by decide +kernel)
    result committed h (smallContext_supply agentTransfer 2)).mpr
    (Nat.le_trans (by decide +kernel) (Nat.le_add_right _ _))

end SciChain
