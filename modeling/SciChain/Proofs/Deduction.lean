import SciChain.Evm.SciHandler
import SciChain.Proofs.L1Cost

namespace SciChain
open Library

variable {World : Type}

namespace Journal

section

variable (j : Journal World)

@[simp] theorem balance_setBalance (a b : Address) (amount : U256) :
    (j.setBalance a amount).balance b = if b = a then amount else j.balance b := by
  simp only [balance, setBalance, Function.update_apply]
  split <;> rfl

@[simp] theorem nonce_setBalance (a b : Address) (amount : U256) :
    (j.setBalance a amount).nonce b = j.nonce b := by
  simp only [nonce, setBalance, Function.update_apply]
  split
  · rename_i h
    rw [h]
  · rfl

@[simp] theorem balance_bumpNonce (a b : Address) : (j.bumpNonce a).balance b = j.balance b := by
  simp only [balance, bumpNonce, Function.update_apply]
  split
  · rename_i h
    rw [h]
  · rfl

@[simp] theorem nonce_bumpNonce (a b : Address) :
    (j.bumpNonce a).nonce b = if b = a then satAdd (j.nonce a) 1 else j.nonce b := by
  simp only [nonce, bumpNonce, Function.update_apply]
  split <;> rfl

theorem nonce_le_bumpNonce (a b : Address) :
    (j.nonce b).toNat ≤ ((j.bumpNonce a).nonce b).toNat := by
  rw [nonce_bumpNonce]
  split
  · rename_i h
    rw [h, toNat_satAdd]
    omega
  · exact Nat.le_refl _

end

theorem nonce_lt_bumpNonce {j : Journal World} (h : (j.nonce a).toNat < 2 ^ 64 - 1) :
    (j.nonce a).toNat < ((j.bumpNonce a).nonce a).toNat := by
  rw [nonce_bumpNonce, if_pos rfl, toNat_satAdd, show (1 : U64).toNat = 1 from rfl]
  omega

/-- Two journals that differ in balances only, as far as the handlers can see. -/
structure SameButBalances (j j' : Journal World) : Prop where
  nonce : ∀ a, j'.nonce a = j.nonce a
  keychain : j'.keychain = j.keychain
  agentState : j'.agentState = j.agentState

theorem SameButBalances.refl (j : Journal World) : SameButBalances j j :=
  ⟨fun _ => rfl, rfl, rfl⟩

theorem SameButBalances.trans (h : SameButBalances j j') (h' : SameButBalances j' j'') :
    SameButBalances j j'' :=
  ⟨fun a => (h'.nonce a).trans (h.nonce a), h'.keychain.trans h.keychain,
    h'.agentState.trans h.agentState⟩

theorem SameButBalances.setBalance (j : Journal World) (a : Address) (amount : U256) :
    SameButBalances j (j.setBalance a amount) := ⟨fun b => nonce_setBalance j a b amount, rfl, rfl⟩

/-- An amount went from one account to another. -/
structure Moved (source target : Address) (amount : Nat) (j j' : Journal World) : Prop where
  source_eq : (j'.balance source).toNat + amount = (j.balance source).toNat
  target_eq : (j'.balance target).toNat = (j.balance target).toNat + amount
  others : ∀ a, a ≠ source → a ≠ target → j'.balance a = j.balance a
  same : SameButBalances j j'

theorem Moved.supplyAtMost (h : Moved source target amount j j') (hne : source ≠ target)
    (hj : j.SupplyAtMost total) : j'.SupplyAtMost total :=
  HoldsAtMost.move hj hne h.source_eq h.target_eq (fun a hs ht => by rw [h.others a hs ht])

theorem transfer_ok (hne : source ≠ target) (h : j.transfer source target amount = .ok j') :
    Moved source target amount.toNat j j' := by
  simp only [transfer, if_neg hne, reject_bind_ok, pure_eq, Except.ok.injEq] at h
  obtain ⟨hfunds, hfits, rfl⟩ := h
  refine ⟨?_, ?_, ?_, (SameButBalances.setBalance ..).trans (.setBalance ..)⟩
  · rw [balance_setBalance, if_neg hne, balance_setBalance, if_pos rfl,
      BitVec.toNat_sub_of_le (BitVec.le_def.mpr (Nat.le_of_not_lt hfunds))]
    omega
  · rw [balance_setBalance, if_pos rfl, BitVec.toNat_add_of_lt (by omega)]
  · intro a hs ht
    rw [balance_setBalance, if_neg ht, balance_setBalance, if_neg hs]

/-- A transfer fails exactly for want of funds or of room. -/
theorem transfer_isOk (hne : source ≠ target) (j : Journal World) (amount : U256) :
    (∃ j', j.transfer source target amount = .ok j') ↔
      amount.toNat ≤ (j.balance source).toNat ∧
        (j.balance target).toNat + amount.toNat < 2 ^ 256 := by
  simp [transfer, if_neg hne, reject_bind_ok]

end Journal

/-- What a handler's phases leave alone. -/
structure Context.SameTx (ctx ctx' : Context World) : Prop where
  block : ctx'.block = ctx.block
  tx : ctx'.tx = ctx.tx
  cfg : ctx'.cfg = ctx.cfg

theorem Context.SameTx.refl (ctx : Context World) : ctx.SameTx ctx := ⟨rfl, rfl, rfl⟩

theorem Context.SameTx.trans {ctx ctx' : Context World} (h : ctx.SameTx ctx')
    (h' : ctx'.SameTx ctx'') : ctx.SameTx ctx'' :=
  ⟨h'.block.trans h.block, h'.tx.trans h.tx, h'.cfg.trans h.cfg⟩

theorem Context.SameTx.isDeposit_eq {ctx ctx' : Context World} (h : ctx.SameTx ctx') :
    ctx'.isDeposit = ctx.isDeposit := by
  unfold Context.isDeposit
  rw [h.tx]

theorem L1BlockInfo.l2Block_tryFetch (db : L1BlockInfo.Slots) (l2Block : U256)
    (spec : BaseUpgrade) : (tryFetch db l2Block spec).l2Block = some l2Block := by
  unfold tryFetch
  split
  · rfl
  · split <;> split <;> rfl

theorem L1BlockInfo.l2Block_txCostWithTx (info : L1BlockInfo) (tx : BaseTransaction)
    (spec : BaseUpgrade) : (info.txCostWithTx tx spec).2.l2Block = info.l2Block := by
  unfold txCostWithTx
  split
  · rfl
  · simp only [txCost_eq, calculateTxL1Cost]
    split
    · rfl
    · split <;> rfl

namespace Context

theorem fetchL1Block_of_current {ctx : Context World}
    (h : ctx.chain.l2Block = some ctx.block.number) : ctx.fetchL1Block = ctx :=
  if_neg (fun hne => hne h)

/-- Fetching replaces the cached information by that of the current block, if at all. -/
theorem fetchL1Block_eq (ctx : Context World) :
    ∃ chain, ctx.fetchL1Block = { ctx with chain } ∧ chain.l2Block = some ctx.block.number ∧
      (ctx.chain.Bounded → chain.Bounded) := by
  by_cases h : ctx.chain.l2Block = some ctx.block.number
  · exact ⟨ctx.chain, fetchL1Block_of_current h, h, id⟩
  · exact ⟨_, if_pos h, L1BlockInfo.l2Block_tryFetch .., fun _ => L1BlockInfo.bounded_tryFetch ..⟩

/-- L1 and operator cost of the transaction in the current block. -/
def quotedCost (ctx : Context World) : Nat :=
  (ctx.fetchL1Block.chain.additionalCost ctx.tx ctx.cfg.spec).toNat

/-- The cost the inner deduction takes besides gas. -/
def additionalCost (ctx : Context World) : Nat :=
  if ctx.cfg.isFeeChargeDisabled then 0 else ctx.quotedCost

end Context

namespace BaseHandler

/-- The inner deduction left the caller with this balance. -/
structure Deducted (ctx ctx' : Context World) (left : U256) : Prop where
  sameTx : ctx.SameTx ctx'
  chain : ctx'.chain = ctx.fetchL1Block.chain ∨
    ctx'.chain = (ctx.fetchL1Block.chain.txCostWithTx ctx.tx ctx.cfg.spec).2
  balance : ctx'.journal.balance ctx.tx.base.caller = left
  others : ∀ a, a ≠ ctx.tx.base.caller → ctx'.journal.balance a = ctx.journal.balance a
  nonce : ∀ a, ctx'.journal.nonce a =
    if a = ctx.tx.base.caller ∧ ctx.tx.base.kind.isCall = true then satAdd (ctx.journal.nonce a) 1
    else ctx.journal.nonce a
  keychain : ctx'.journal.keychain = ctx.journal.keychain
  agentState : ctx'.journal.agentState = ctx.journal.agentState

theorem chargeAdditionalCost_ok {ctx : Context World}
    (h : chargeAdditionalCost ctx.fetchL1Block balance = .ok r) :
    r.1.toNat + ctx.additionalCost = balance.toNat ∧ (r.2 = ctx.fetchL1Block.chain ∨
      r.2 = (ctx.fetchL1Block.chain.txCostWithTx ctx.tx ctx.cfg.spec).2) := by
  obtain ⟨chain, hfetch, _, _⟩ := ctx.fetchL1Block_eq
  unfold chargeAdditionalCost at h
  unfold Context.additionalCost Context.quotedCost L1BlockInfo.additionalCost
  simp only [hfetch] at h ⊢
  split at h
  · rename_i hfree
    cases h
    rw [if_pos hfree]
    exact ⟨rfl, Or.inl rfl⟩
  · rename_i hcharged
    rw [if_neg hcharged]
    split at h
    · cases h
    · rename_i cost chain' hcost
      split at h
      · cases h
      · rename_i left hleft
        cases h
        obtain ⟨hle, heq⟩ := checkedSub_eq_some.mp hleft
        rw [hcost]
        refine ⟨?_, Or.inr rfl⟩
        simp only [Option.getD_some]
        omega

theorem deduct_ok {ctx ctx' : Context World} (hdeposit : ctx.isDeposit = false)
    (h : validateAgainstStateAndDeductCaller rt ctx = .ok ctx') :
    ∃ funds left, funds.toNat + ctx.additionalCost =
        (ctx.journal.balance ctx.tx.base.caller).toNat ∧
      rt.calculateCallerFee funds ctx.tx ctx.block ctx.cfg = .ok left ∧
      Deducted ctx ctx' left := by
  obtain ⟨chain, hfetch, _, _⟩ := ctx.fetchL1Block_eq
  unfold validateAgainstStateAndDeductCaller at h
  simp only [hdeposit, Bool.false_eq_true, if_false, bind_ok, mapError_eq_ok, pure_eq,
    Except.ok.injEq] at h
  obtain ⟨_, _, r, hcost, left, hfee, rfl⟩ := h
  obtain ⟨hfunds, hchain⟩ := chargeAdditionalCost_ok hcost
  simp only [hfetch] at hfunds hfee hchain ⊢
  refine ⟨r.1, left, hfunds, hfee, ⟨rfl, rfl, rfl⟩, ?_, ?_, ?_, ?_, ?_, ?_⟩
  · simpa only [hfetch] using hchain
  · split <;> simp
  · intro a ha
    split <;> simp [ha]
  · intro a
    by_cases ha : a = ctx.tx.base.caller
    · cases hk : ctx.tx.base.kind.isCall <;> simp [ha]
    · cases hk : ctx.tx.base.kind.isCall <;> simp [ha]
  · split <;> rfl
  · split <;> rfl

theorem chargeAdditionalCost_of_funds {ctx : Context World} (balance : U256)
    (henv : ctx.tx.envelopedTx = some envelopedTx) (h : ctx.additionalCost ≤ balance.toNat) :
    ∃ r, chargeAdditionalCost ctx.fetchL1Block balance = .ok r ∧
      r.1.toNat + ctx.additionalCost = balance.toNat := by
  cases hr : chargeAdditionalCost ctx.fetchL1Block balance with
  | ok r => exact ⟨r, rfl, (chargeAdditionalCost_ok hr).1⟩
  | error e =>
    exfalso
    obtain ⟨chain, hfetch, _, _⟩ := ctx.fetchL1Block_eq
    unfold chargeAdditionalCost at hr
    unfold Context.additionalCost Context.quotedCost at h
    simp only [hfetch] at hr h
    split at hr
    · cases hr
    · rename_i hcharged
      rw [if_neg hcharged] at h
      have hcost := chain.fst_txCostWithTx henv ctx.cfg.spec
      split at hr
      · rename_i heq
        rw [heq] at hcost
        cases hcost
      · rename_i cost chain' heq
        rw [heq] at hcost
        cases hcost
        split at hr
        · rename_i hnone
          exact absurd h (Nat.not_le.mpr (checkedSub_eq_none.mp hnone))
        · cases hr

/-- With a good nonce, a caller that holds the additional cost and the maximal
spending passes the inner deduction. -/
theorem deduct_of_funds (hrt : rt.Lawful) {ctx : Context World} (hdeposit : ctx.isDeposit = false)
    (henv : ctx.tx.envelopedTx = some envelopedTx)
    (hnonce : rt.validateAccountNonceAndCode (ctx.journal.accounts ctx.tx.base.caller) ctx.tx
      ctx.cfg = .ok ()) (hmost : rt.maxBalanceSpending ctx.tx = .ok most)
    (hfunds : most.toNat + ctx.additionalCost ≤ (ctx.journal.balance ctx.tx.base.caller).toNat) :
    ∃ ctx', validateAgainstStateAndDeductCaller rt ctx = .ok ctx' := by
  obtain ⟨r, hcost, hr⟩ := chargeAdditionalCost_of_funds
    (ctx.journal.balance ctx.tx.base.caller) henv (by omega)
  have hfee : ∃ left, rt.calculateCallerFee r.1 ctx.tx ctx.block ctx.cfg = .ok left :=
    hrt.callerFee_ok hmost (by omega)
  obtain ⟨left, hfee⟩ := hfee
  obtain ⟨chain, hfetch, _, _⟩ := ctx.fetchL1Block_eq
  rw [hfetch] at hcost
  unfold validateAgainstStateAndDeductCaller
  simp only [hdeposit, Bool.false_eq_true, if_false, hfetch, hnonce, hcost, mapError_value,
    bind_value, hfee]
  exact ⟨_, rfl⟩

/-- Every rejection of the inner deduction marks the transaction as invalid. -/
theorem deduct_error (henv : ctx.tx.envelopedTx = some envelopedTx)
    (h : validateAgainstStateAndDeductCaller rt ctx = .error e) : e.isTxError = true := by
  obtain ⟨chain, hfetch, _, _⟩ := ctx.fetchL1Block_eq
  unfold validateAgainstStateAndDeductCaller at h
  split at h
  · cases h
  simp only [hfetch, bind_error, mapError_eq_error, mapError_eq_ok, pure_eq, reduceCtorEq,
    and_false, exists_false, or_false] at h
  rcases h with ⟨_, _, rfl⟩ | ⟨_, _, hcost | ⟨_, _, _, _, rfl⟩⟩
  · rfl
  · unfold chargeAdditionalCost at hcost
    split at hcost
    · cases hcost
    · have hsome := chain.fst_txCostWithTx henv ctx.cfg.spec
      split at hcost
      · rename_i heq
        rw [heq] at hsome
        cases hsome
      · split at hcost
        · obtain rfl := Except.error.inj hcost
          rfl
        · cases hcost
  · rfl

end BaseHandler

section FromAa

variable {aa : BaseAaTransaction} {signer : Address} {payload : Bytes}

variable {tx : BaseTransaction}

theorem fromAa_isDeposit {ctx : Context World} (h : ctx.tx = .fromAa aa signer payload) :
    ctx.isDeposit = false := by
  unfold Context.isDeposit BaseTransaction.txType
  rw [h]
  rfl

section

variable (h : tx = .fromAa aa signer payload)
include h

theorem fromAa_caller : tx.base.caller = signer := by rw [h]; rfl

theorem fromAa_parts : tx.aa = some ⟨aa.calls, aa.root, aa.feePayer⟩ := by rw [h]; rfl

theorem fromAa_gasLimit : tx.base.gasLimit = aa.gasLimit := by rw [h]; rfl

theorem fromAa_gasPrice : tx.base.gasPrice = aa.maxFeePerGas := by rw [h]; rfl

theorem fromAa_value : tx.base.value = 0 := by rw [h]; rfl

theorem fromAa_envelopedTx : tx.envelopedTx = some (sciAaTxTypeId :: payload) := by rw [h]; rfl

theorem fromAa_root : tx.root = aa.root := by rw [h]; rfl

theorem fromAa_feePayer : tx.feePayer = aa.feePayer := by rw [h]; rfl

end

theorem BaseTransaction.sponsor_ne (h : tx.sponsor = some payer) : payer ≠ tx.base.caller := by
  have hfilter := (Option.filter_eq_some_iff.mp h).2
  rwa [decide_eq_true_eq] at hfilter

end FromAa
end SciChain
