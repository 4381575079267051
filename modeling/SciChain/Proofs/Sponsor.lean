import SciChain.Proofs.PlainRuntime

namespace SciChain
open Library SciHandler Journal L1BlockInfo

variable {World : Type} {rt : Runtime World} {ctx : Context World} {aa : BaseAaTransaction}
  {signer payer : Address} {payload : Bytes}

/-- Funds to cover the maximal spending and the quoted cost have come from `payer`. -/
structure Prefunded (rt : Runtime World) (payer : Address) (ctx pre : Context World)
    (most : U256) : Prop where
  most_ok : rt.maxBalanceSpending ctx.tx = .ok most
  sameTx : ctx.SameTx pre
  current : pre.fetchL1Block = pre
  chain : pre.chain = (ctx.fetchL1Block.chain.txCostWithTx ctx.tx ctx.cfg.spec).2
  moved : ctx.journal.Moved payer ctx.tx.base.caller (most.toNat + ctx.quotedCost) pre.journal

theorem Context.additionalCost_le (ctx : Context World) : ctx.additionalCost ≤ ctx.quotedCost := by
  unfold Context.additionalCost
  split
  · exact Nat.zero_le _
  · exact Nat.le_refl _

theorem Prefunded.additionalCost (h : Prefunded rt payer ctx pre most) :
    pre.additionalCost = ctx.additionalCost := by
  unfold Context.additionalCost Context.quotedCost L1BlockInfo.additionalCost
  rw [h.current, h.sameTx.cfg, h.sameTx.tx, h.chain, L1BlockInfo.txCostWithTx_again]

/-- The advance moves funds of the payer, and the quote it needs is cached. -/
theorem prefundSigner_moved (hne : payer ≠ ctx.tx.base.caller)
    (h : SciHandler.prefundSigner rt ctx payer = .ok pre) :
    ctx.SameTx pre ∧ pre.fetchL1Block = pre ∧
      pre.chain = (ctx.fetchL1Block.chain.txCostWithTx ctx.tx ctx.cfg.spec).2 ∧
      ∃ most, rt.maxBalanceSpending ctx.tx = .ok most ∧ ctx.journal.Moved payer ctx.tx.base.caller
        (satAdd most (ctx.fetchL1Block.chain.additionalCost ctx.tx ctx.cfg.spec)).toNat
        pre.journal := by
  obtain ⟨chain, hfetch, hcurrent, _⟩ := ctx.fetchL1Block_eq
  unfold prefundSigner prefund at h
  simp only [hfetch, bind_ok, mapError_eq_ok, pure_eq, Except.ok.injEq] at h
  obtain ⟨_, ⟨most, hmost, rfl⟩, journal, hmove, rfl⟩ := h
  refine ⟨⟨rfl, rfl, rfl⟩, ?_, by rw [hfetch], most, hmost, ?_⟩
  · apply Context.fetchL1Block_of_current
    exact (chain.l2Block_txCostWithTx ctx.tx ctx.cfg.spec).trans hcurrent
  · rw [hfetch]
    exact transfer_ok hne hmove

theorem prefundSigner_same (hne : payer ≠ ctx.tx.base.caller)
    (h : SciHandler.prefundSigner rt ctx payer = .ok pre) :
    ctx.SameTx pre ∧ ctx.journal.SameButBalances pre.journal := by
  obtain ⟨hsame, _, _, _, _, hmoved⟩ := prefundSigner_moved hne h
  exact ⟨hsame, hmoved.same⟩

section Advance

variable (hrt : rt.Lawful) (htx : ctx.tx = .fromAa aa signer payload)
  (hchain : ctx.chain.Bounded)

include hrt htx hchain

/-- Gas at the fee cap and the quoted cost stay far below the largest word. -/
theorem toNat_advance (hmost : rt.maxBalanceSpending ctx.tx = .ok most) :
    (satAdd most (ctx.fetchL1Block.chain.additionalCost ctx.tx ctx.cfg.spec)).toNat =
      most.toNat + ctx.quotedCost := by
  have hmax := hrt.maxBalanceSpending_eq hmost
  rw [fromAa_value htx, show (0 : U256).toNat = 0 from rfl] at hmax
  have hgas : ctx.tx.base.gasLimit.toNat * ctx.tx.base.gasPrice.toNat < 2 ^ 64 * 2 ^ 128 :=
    Nat.mul_lt_mul'' (BitVec.isLt _) (BitVec.isLt _)
  have hcost : ctx.quotedCost < 2 ^ 241 := by
    obtain ⟨chain, hfetch, _, hb⟩ := ctx.fetchL1Block_eq
    unfold Context.quotedCost
    rw [hfetch]
    exact (txCostWithTx_spec (hb hchain) ctx.tx ctx.cfg.spec).1
  rw [toNat_satAdd]
  unfold Context.quotedCost at hcost ⊢
  omega

theorem prefundSigner_ok (hne : payer ≠ signer)
    (h : SciHandler.prefundSigner rt ctx payer = .ok pre) :
    ∃ most, Prefunded rt payer ctx pre most := by
  obtain ⟨hsame, hcurrent, hquote, most, hmost, hmoved⟩ :=
    prefundSigner_moved (by rw [fromAa_caller htx]; exact hne) h
  rw [toNat_advance hrt htx hchain hmost] at hmoved
  exact ⟨most, hmost, hsame, hcurrent, hquote, hmoved⟩

/-- The advance is paid exactly when the sponsor can pay it and the signer can hold it. -/
theorem prefundSigner_isOk (hne : payer ≠ signer) :
    (∃ pre, SciHandler.prefundSigner rt ctx payer = .ok pre) ↔
      ∃ most, rt.maxBalanceSpending ctx.tx = .ok most ∧
        most.toNat + ctx.quotedCost ≤ (ctx.journal.balance payer).toNat ∧
        (ctx.journal.balance signer).toNat + (most.toNat + ctx.quotedCost) < 2 ^ 256 := by
  obtain rfl := fromAa_caller htx
  constructor
  · rintro ⟨pre, h⟩
    obtain ⟨most, hpre⟩ := prefundSigner_ok hrt htx hchain hne h
    have hsource := hpre.moved.source_eq
    have htarget := hpre.moved.target_eq
    exact ⟨most, hpre.most_ok, by omega, by omega⟩
  · rintro ⟨most, hmost, hok⟩
    have hamount := toNat_advance hrt htx hchain hmost
    rw [← hamount] at hok
    obtain ⟨chain, hfetch, _, _⟩ := ctx.fetchL1Block_eq
    obtain ⟨journal, htransfer⟩ := (transfer_isOk hne ctx.journal _).mpr hok
    unfold prefundSigner prefund
    simp only [hfetch, additionalCost] at htransfer ⊢
    simp only [hmost, mapError_value, bind_value, pure_eq, htransfer]
    exact ⟨_, rfl⟩

end Advance

section Reconcile

variable {j j' : Journal World} {before : U256}

/-- The signer is back at the earlier balance, and what it lost or won is with
the payer. -/
theorem reconcile_ok (hne : payer ≠ signer)
    (h : SciHandler.reconcile j signer payer before = .ok j') :
    j'.balance signer = before ∧
      (j'.balance payer).toNat + before.toNat =
        (j.balance payer).toNat + (j.balance signer).toNat ∧
      (∀ a, a ≠ signer → a ≠ payer → j'.balance a = j.balance a) ∧ j.SameButBalances j' := by
  unfold reconcile at h
  by_cases hle : before.toNat ≤ (j.balance signer).toNat
  · have hsub := toNat_sub_of_toNat_le hle
    simp only [if_pos hle] at h
    split at h
    · rename_i hz
      cases h
      have heq := (sub_eq_zero_iff_toNat hle).mp hz
      exact ⟨BitVec.eq_of_toNat_eq heq, by omega, fun _ _ _ => rfl, .refl j⟩
    · have hm := transfer_ok hne.symm ((mapError_eq_ok ..).mp h)
      have hs := hm.source_eq
      have ht := hm.target_eq
      rw [hsub] at hs ht
      exact ⟨BitVec.eq_of_toNat_eq (by omega), by omega, hm.others, hm.same⟩
  · have hsub := toNat_sub_of_toNat_le (Nat.le_of_not_le hle)
    simp only [if_neg hle] at h
    split at h
    · rename_i hz
      have heq := (sub_eq_zero_iff_toNat (Nat.le_of_not_le hle)).mp hz
      omega
    · have hm := transfer_ok hne ((mapError_eq_ok ..).mp h)
      have hs := hm.source_eq
      have ht := hm.target_eq
      rw [hsub] at hs ht
      exact ⟨BitVec.eq_of_toNat_eq (by omega), by omega, fun a h1 h2 => hm.others a h2 h1, hm.same⟩

/-- A signer left with no less than before can always be brought back. -/
theorem reconcile_isOk (hne : payer ≠ signer) (hle : before.toNat ≤ (j.balance signer).toNat)
    (hroom : (j.balance payer).toNat + ((j.balance signer).toNat - before.toNat) < 2 ^ 256) :
    ∃ j', SciHandler.reconcile j signer payer before = .ok j' := by
  have hsub := toNat_sub_of_toNat_le hle
  unfold reconcile
  simp only [if_pos hle]
  split
  · exact ⟨j, rfl⟩
  · have hok := transfer_isOk hne.symm j (j.balance signer - before)
    rw [hsub] at hok
    obtain ⟨j', hj⟩ := hok.mpr ⟨Nat.sub_le _ _, hroom⟩
    exact ⟨j', by rw [hj]; rfl⟩

end Reconcile

/-- The inner handler, run on this context, takes an amount from the caller. -/
def Takes (rt : Runtime World) (ctx : Context World) (amount : Nat) : Prop :=
  ∃ ctx', BaseHandler.validateAgainstStateAndDeductCaller rt ctx = .ok ctx' ∧
    (ctx'.journal.balance ctx.tx.base.caller).toNat + amount =
      (ctx.journal.balance ctx.tx.base.caller).toNat

/-- `payer` paid an amount, and the signer nothing. -/
structure Sponsored (payer : Address) (amount : Nat) (ctx ctx' : Context World) : Prop where
  sameTx : ctx.SameTx ctx'
  chain : ctx'.chain = (ctx.fetchL1Block.chain.txCostWithTx ctx.tx ctx.cfg.spec).2
  signer_eq : ctx'.journal.balance ctx.tx.base.caller = ctx.journal.balance ctx.tx.base.caller
  payer_eq : (ctx'.journal.balance payer).toNat + amount = (ctx.journal.balance payer).toNat
  others : ∀ a, a ≠ ctx.tx.base.caller → a ≠ payer →
    ctx'.journal.balance a = ctx.journal.balance a
  nonce : ∀ a, ctx'.journal.nonce a =
    if a = ctx.tx.base.caller ∧ ctx.tx.base.kind.isCall = true then satAdd (ctx.journal.nonce a) 1
    else ctx.journal.nonce a
  keychain : ctx'.journal.keychain = ctx.journal.keychain
  agentState : ctx'.journal.agentState = ctx.journal.agentState

/-- The balances around the inner deduction of a pre-funded context. -/
theorem Prefunded.deduct (hrt : rt.Lawful) (htx : ctx.tx = .fromAa aa signer payload)
    (hne : payer ≠ signer) (hpre : Prefunded rt payer ctx pre most)
    (h : BaseHandler.validateAgainstStateAndDeductCaller rt pre = .ok deducted) :
    ∃ left, BaseHandler.Deducted pre deducted left ∧
      (ctx.journal.balance signer).toNat ≤ left.toNat ∧
      left.toNat ≤ (pre.journal.balance signer).toNat ∧
      (deducted.journal.balance payer).toNat + (most.toNat + ctx.quotedCost) =
        (ctx.journal.balance payer).toNat ∧
      (ctx.cfg.Charges → left.toNat + (rt.effectiveGasPrice ctx.tx
          (ctx.block.basefee.setWidth 128)).toNat * ctx.tx.base.gasLimit.toNat +
          ctx.additionalCost = (pre.journal.balance signer).toNat) := by
  obtain rfl := fromAa_caller htx
  have htx' := hpre.sameTx.tx.trans htx
  obtain ⟨funds, left, hfunds, hfee, hded⟩ := BaseHandler.deduct_ok (fromAa_isDeposit htx') h
  rw [hpre.sameTx.tx, hpre.additionalCost] at hfunds
  have hge := hrt.callerFee_ge (by rw [hpre.sameTx.tx]; exact hpre.most_ok) hfee
  have hle := hrt.callerFee_le hfee
  rw [fromAa_value htx', show (0 : U256).toNat = 0 from rfl, Nat.max_zero] at hle
  have hquote := ctx.additionalCost_le
  have hsigner := hpre.moved.target_eq
  refine ⟨left, hded, by omega, by omega, ?_, fun hcharges => ?_⟩
  · rw [hded.others payer (by rw [hpre.sameTx.tx]; exact hne)]
    exact hpre.moved.source_eq
  · have hexact := hrt.callerFee_exact (by rw [hpre.sameTx.cfg]; exact hcharges) hfee
    rw [hpre.sameTx.tx, hpre.sameTx.block] at hexact
    omega

section Deduct

variable (hrt : rt.Lawful) (htx : ctx.tx = .fromAa aa signer payload)
  (hchain : ctx.chain.Bounded) (hne : payer ≠ signer)

include hrt htx hchain hne

theorem deductSponsored_ok (h : SciHandler.deductSponsored rt ctx payer = .ok ctx') :
    ∃ pre amount, SciHandler.prefundSigner rt ctx payer = .ok pre ∧ Takes rt pre amount ∧
      Sponsored payer amount ctx ctx' ∧
      (ctx.cfg.Charges → amount = (rt.effectiveGasPrice ctx.tx
          (ctx.block.basefee.setWidth 128)).toNat * ctx.tx.base.gasLimit.toNat +
          ctx.additionalCost) := by
  unfold deductSponsored at h
  simp only [bind_ok, pure_eq, Except.ok.injEq] at h
  obtain ⟨pre, hprefund, deducted, hdeduct, journal, hreconcile, rfl⟩ := h
  obtain rfl := fromAa_caller htx
  obtain ⟨most, hpre⟩ := prefundSigner_ok hrt htx hchain hne hprefund
  obtain ⟨left, hded, hfloor, hceil, hpayer, hexact⟩ := hpre.deduct hrt htx hne hdeduct
  obtain ⟨hsigner, hsum, hothers, hsame⟩ := reconcile_ok hne hreconcile
  have hadvance := hpre.moved.target_eq
  have hleft := hded.balance
  rw [hpre.sameTx.tx] at hleft
  rw [hleft] at hsum
  refine ⟨pre, (pre.journal.balance ctx.tx.base.caller).toNat - left.toNat, hprefund, ?_, ?_,
    fun hc => ?_⟩
  · refine ⟨deducted, hdeduct, ?_⟩
    rw [hpre.sameTx.tx, hleft]
    omega
  · refine ⟨hpre.sameTx.trans ⟨hded.sameTx.block, hded.sameTx.tx, hded.sameTx.cfg⟩,
      ?_, hsigner, ?_, ?_, ?_, ?_, ?_⟩
    · rcases hded.chain with hc | hc
      · exact hc.trans (by rw [hpre.current, hpre.chain])
      · refine hc.trans ?_
        rw [hpre.current, hpre.sameTx.tx, hpre.sameTx.cfg, hpre.chain,
          txCostWithTx_again]
    · dsimp only
      omega
    · intro a ha hp
      exact (hothers a ha hp).trans ((hded.others a (by rw [hpre.sameTx.tx]; exact ha)).trans
        (hpre.moved.others a hp ha))
    · intro a
      refine (hsame.nonce a).trans ((hded.nonce a).trans ?_)
      rw [hpre.sameTx.tx, hpre.moved.same.nonce a]
    · exact hsame.keychain.trans (hded.keychain.trans hpre.moved.same.keychain)
    · exact hsame.agentState.trans (hded.agentState.trans hpre.moved.same.agentState)
  · have := hexact hc
    omega

/-- Once the advance is paid, bringing the signer back never fails. -/
theorem reconcile_after_deduct (hprefund : SciHandler.prefundSigner rt ctx payer = .ok pre)
    (hdeduct : BaseHandler.validateAgainstStateAndDeductCaller rt pre = .ok deducted) :
    ∃ journal, SciHandler.reconcile deducted.journal signer payer
      (ctx.journal.balance signer) = .ok journal := by
  obtain ⟨most, hpre⟩ := prefundSigner_ok hrt htx hchain hne hprefund
  obtain ⟨left, hded, hfloor, hceil, hpayer, _⟩ := hpre.deduct hrt htx hne hdeduct
  obtain rfl := fromAa_caller htx
  have hleft := hded.balance
  rw [hpre.sameTx.tx] at hleft
  have hadvance := hpre.moved.target_eq
  exact reconcile_isOk hne (by rw [hleft]; exact hfloor) (by rw [hleft]; omega)

/-- Whatever the signer holds, an advance that was paid covers every check of
the inner deduction. -/
theorem deductSponsored_of_prefund (hprefund : SciHandler.prefundSigner rt ctx payer = .ok pre)
    (hnonce : rt.validateAccountNonceAndCode (pre.journal.accounts signer) ctx.tx ctx.cfg =
      .ok ()) : ∃ ctx', SciHandler.deductSponsored rt ctx payer = .ok ctx' := by
  obtain ⟨most, hpre⟩ := prefundSigner_ok hrt htx hchain hne hprefund
  obtain rfl := fromAa_caller htx
  have htx' := hpre.sameTx.tx.trans htx
  have hfunds : most.toNat + pre.additionalCost ≤
      (pre.journal.balance pre.tx.base.caller).toNat := by
    have hquote := ctx.additionalCost_le
    have hadvance := hpre.moved.target_eq
    rw [hpre.sameTx.tx, hpre.additionalCost]
    omega
  obtain ⟨deducted, hdeduct⟩ := BaseHandler.deduct_of_funds hrt (fromAa_isDeposit htx')
    (fromAa_envelopedTx htx') (by rw [hpre.sameTx.tx, hpre.sameTx.cfg]; exact hnonce)
    (by rw [hpre.sameTx.tx]; exact hpre.most_ok) hfunds
  obtain ⟨journal, hreconcile⟩ := reconcile_after_deduct hrt htx hchain hne hprefund hdeduct
  refine ⟨{ deducted with journal }, ?_⟩
  unfold deductSponsored
  simp [hprefund, hdeduct, hreconcile]

end Deduct

section Validate

variable {root : Address}

theorem sponsor_of_root {tx : BaseTransaction} (h : tx = .fromAa aa signer payload)
    (hpayer : aa.feePayer = some root) (hne : root ≠ signer) : tx.sponsor = some root := by
  unfold BaseTransaction.sponsor
  rw [fromAa_feePayer h, fromAa_caller h, hpayer]
  simp [hne]

/-- The keychain's part of the validation touches the keychain only. -/
theorem authorize_ok (h : SciHandler.authorize rt ctx = .ok ctx') :
    ∃ keychain, ctx' = ctx.withKeychain keychain := by
  unfold authorize at h
  dsimp only at h
  split at h
  · exact ⟨_, (Except.ok.inj h).symm⟩
  · split at h
    · split at h
      · cases h
      · cases h
      · exact ⟨_, (Except.ok.inj h).symm⟩
    · exact ⟨_, (Except.ok.inj h).symm⟩

theorem authorize_pass (htx : ctx.tx = .fromAa aa signer payload) (hroot : aa.root = some root)
    (h : SciHandler.authorize rt ctx = .ok ctx') :
    ∃ passed, ctx.journal.keychain.runAaKeychainHook rt.tokenAbi ctx.storageCtx
        ctx.journal.agentState root signer aa.calls (ctx.tx.meteredGas root aa.gasLimit) =
          .ok (.pass, passed) ∧ ctx' = ctx.withKeychain passed := by
  unfold authorize at h
  simp only [fromAa_isDeposit htx, Bool.false_eq_true, if_false, fromAa_root htx, hroot,
    fromAa_parts htx, fromAa_caller htx, fromAa_gasLimit htx] at h
  split at h
  · cases h
  · cases h
  · rename_i passed hpass
    exact ⟨passed, hpass, (Except.ok.inj h).symm⟩

theorem validate_ok (h : SciHandler.validateAgainstStateAndDeductCaller rt ctx = .ok ctx') :
    ∃ deducted, SciHandler.deductCaller rt ctx = .ok deducted ∧
      SciHandler.authorize rt deducted = .ok ctx' := by
  unfold validateAgainstStateAndDeductCaller at h
  simp only [bind_ok] at h
  obtain ⟨_, _, h⟩ := h
  exact h

theorem validate_sponsored (htx : ctx.tx = .fromAa aa signer payload)
    (hpayer : aa.feePayer = some root) (hne : root ≠ signer)
    (h : SciHandler.validateAgainstStateAndDeductCaller rt ctx = .ok ctx') :
    ∃ deducted, SciHandler.deductSponsored rt ctx root = .ok deducted ∧
      SciHandler.authorize rt deducted = .ok ctx' := by
  obtain ⟨deducted, hdeduct, hauthorize⟩ := validate_ok h
  unfold deductCaller at hdeduct
  rw [sponsor_of_root htx hpayer hne] at hdeduct
  exact ⟨deducted, hdeduct, hauthorize⟩

/-- What the inner handler returns to the caller for unused gas. -/
def innerRefund (rt : Runtime World) (ctx : Context World) (gas : Gas) : Nat :=
  ((BaseHandler.reimburseCaller rt ctx gas).journal.balance ctx.tx.base.caller).toNat -
    (ctx.journal.balance ctx.tx.base.caller).toNat

/-- The inner handler's refund raises the caller's balance, and nothing else changes. -/
theorem reimburseCaller_eq (hrt : rt.Lawful) (ctx : Context World) (gas : Gas) :
    ∃ balance, (ctx.journal.balance ctx.tx.base.caller).toNat ≤ balance.toNat ∧
      BaseHandler.reimburseCaller rt ctx gas =
        { ctx with journal := ctx.journal.setBalance ctx.tx.base.caller balance } := by
  unfold BaseHandler.reimburseCaller
  obtain ⟨balance, hle, heq⟩ := hrt.reimburse_eq ctx gas
    (if ¬ctx.isDeposit ∧ ¬ctx.cfg.isFeeChargeDisabled then
      ctx.chain.operatorFeeRefund gas ctx.cfg.spec else 0)
  exact ⟨balance, hle, by simp only [heq]⟩

theorem reimburse_sponsored (hrt : rt.Lawful) (hsponsor : ctx.tx.sponsor = some payer)
    (h : SciHandler.reimburseCaller rt ctx gas = .ok ctx') :
    ctx.SameTx ctx' ∧
      ctx'.journal.balance ctx.tx.base.caller = ctx.journal.balance ctx.tx.base.caller ∧
      (ctx'.journal.balance payer).toNat =
        (ctx.journal.balance payer).toNat + innerRefund rt ctx gas ∧
      (∀ a, a ≠ ctx.tx.base.caller → a ≠ payer →
        ctx'.journal.balance a = ctx.journal.balance a) ∧
      ctx.journal.SameButBalances ctx'.journal := by
  have hne := BaseTransaction.sponsor_ne hsponsor
  obtain ⟨balance, hle, hinner⟩ := reimburseCaller_eq hrt ctx gas
  have hrefund : innerRefund rt ctx gas =
      balance.toNat - (ctx.journal.balance ctx.tx.base.caller).toNat := by
    unfold innerRefund
    rw [hinner]
    simp
  unfold reimburseCaller at h
  simp only [hsponsor, hinner, balance_setBalance, if_true] at h
  have hset := Journal.SameButBalances.setBalance ctx.journal ctx.tx.base.caller balance
  have hpay : (ctx.journal.setBalance ctx.tx.base.caller balance).balance payer =
      ctx.journal.balance payer := by
    rw [balance_setBalance, if_neg hne]
  split at h
  · rename_i hz
    cases h
    have hzero := congrArg BitVec.toNat hz
    rw [toNat_satSub, show (0 : U256).toNat = 0 from rfl] at hzero
    have heq : balance = ctx.journal.balance ctx.tx.base.caller :=
      BitVec.eq_of_toNat_eq (by omega)
    refine ⟨⟨rfl, rfl, rfl⟩, ?_, ?_, ?_, hset⟩
    · rw [balance_setBalance, if_pos rfl, heq]
    · rw [hpay, hrefund]
      omega
    · intro a ha _
      rw [balance_setBalance, if_neg ha]
  · split at h
    · cases h
    · rename_i journal hmove
      cases h
      have hm := transfer_ok hne.symm hmove
      have hs := hm.source_eq
      have ht := hm.target_eq
      rw [toNat_satSub] at hs ht
      rw [balance_setBalance, if_pos rfl] at hs
      rw [hpay] at ht
      refine ⟨⟨rfl, rfl, rfl⟩, BitVec.eq_of_toNat_eq ?_, ?_, ?_, hset.trans hm.same⟩
      · dsimp only
        omega
      · rw [hrefund]
        exact ht
      · intro a ha hp
        refine (hm.others a ha hp).trans ?_
        rw [balance_setBalance, if_neg ha]

end Validate

/-- A sponsored transaction costs the signer nothing. The payer pays exactly what
the inner handler deducts, an advance that could be paid makes that deduction
pass whatever the signer holds, and the payer is credited exactly what the inner
handler refunds. -/
theorem sponsored_gas_conserved (rt : Runtime World) (hrt : rt.Lawful) (aa : BaseAaTransaction)
    (signer payer : Address) (payload : Bytes) (hpayer : aa.feePayer = some payer)
    (hne : payer ≠ signer) (ctx : Context World)
    (htx : ctx.tx = .fromAa aa signer payload) (hchain : ctx.chain.Bounded) :
    (∀ ctx', SciHandler.validateAgainstStateAndDeductCaller rt ctx = .ok ctx' →
      ctx'.journal.balance signer = ctx.journal.balance signer ∧
      (∀ a, a ≠ signer → a ≠ payer → ctx'.journal.balance a = ctx.journal.balance a) ∧
      ∃ prefunded deduction, SciHandler.prefundSigner rt ctx payer = .ok prefunded ∧
        Takes rt prefunded deduction ∧
        (ctx'.journal.balance payer).toNat + deduction = (ctx.journal.balance payer).toNat ∧
        (ctx.cfg.Charges → deduction = (rt.effectiveGasPrice ctx.tx
          (ctx.block.basefee.setWidth 128)).toNat * aa.gasLimit.toNat + ctx.quotedCost)) ∧
    (∀ prefunded, SciHandler.prefundSigner rt ctx payer = .ok prefunded →
      rt.validateAccountNonceAndCode (prefunded.journal.accounts signer) ctx.tx ctx.cfg = .ok () →
      ∃ deducted, SciHandler.deductCaller rt ctx = .ok deducted) ∧
    (∀ executed gas ctx', executed.tx = ctx.tx →
      SciHandler.reimburseCaller rt executed gas = .ok ctx' →
      ctx'.journal.balance signer = executed.journal.balance signer ∧
      (ctx'.journal.balance payer).toNat =
        (executed.journal.balance payer).toNat + innerRefund rt executed gas ∧
      ∀ a, a ≠ signer → a ≠ payer → ctx'.journal.balance a = executed.journal.balance a) := by
  obtain rfl := fromAa_caller htx
  have hsponsor : ctx.tx.sponsor = some payer := sponsor_of_root htx hpayer hne
  refine ⟨?_, ?_, ?_⟩
  · intro ctx' h
    obtain ⟨deducted, hdeduct, hauthorize⟩ := validate_sponsored htx hpayer hne h
    obtain ⟨keychain, rfl⟩ := authorize_ok hauthorize
    obtain ⟨prefunded, deduction, hpre, htakes, hpaid, hexact⟩ :=
      deductSponsored_ok hrt htx hchain hne hdeduct
    refine ⟨hpaid.signer_eq, hpaid.others, prefunded, deduction, hpre, htakes, hpaid.payer_eq, ?_⟩
    intro hcharges
    rw [hexact hcharges, Context.additionalCost, hcharges.1, fromAa_gasLimit htx]
    rfl
  · intro prefunded hpre hnonce
    unfold deductCaller
    rw [hsponsor]
    exact deductSponsored_of_prefund hrt htx hchain hne hpre hnonce
  · intro executed gas ctx' hsame h
    obtain ⟨_, hsigner, hpaid, hothers, _⟩ := reimburse_sponsored hrt
      (by rw [hsame]; exact hsponsor) h
    rw [hsame] at hsigner hothers
    exact ⟨hsigner, hpaid, hothers⟩

/-- The session key holds nothing, and still pays nothing. -/
theorem sponsored_gas_conserved_empty_signer :
    ∃ ctx', SciHandler.validateAgainstStateAndDeductCaller
        (plainRuntime noTokens fun _ => .ok) (smallContext agentTransfer 2) = .ok ctx' ∧
      ctx'.journal.balance 2 = 0 := by
  obtain ⟨ctx', h⟩ := exists_of_isOk (show (validateAgainstStateAndDeductCaller
    (plainRuntime noTokens fun _ => .ok) (smallContext agentTransfer 2)).isOk = true by
      decide +kernel)
  exact ⟨ctx', h, ((sponsored_gas_conserved _ plainRuntime_lawful agentTransfer 2 1 [] rfl
    (by decide) (smallContext agentTransfer 2) rfl bounded_empty).1 ctx' h).1⟩

end SciChain
