import SciChain.Proofs.Batch

namespace SciChain
open Library SciHandler

variable {World : Type} {rt : Runtime World} {ctx : Context World} {aa : BaseAaTransaction}
  {signer : Address} {payload : Bytes}

/-- The contexts an AA transaction passes through when it is committed. -/
structure Phases (rt : Runtime World) (ctx : Context World) (result : ExecutionResult)
    (committed : Context World) where
  initial : InitialAndFloorGas
  deducted : Context World
  body : FrameResult
  executed : Context World
  reimbursed : Context World
  rewarded : Context World
  initial_ok : rt.validateInitialTxGas ctx.tx ctx.cfg = .ok initial
  deduct_ok : SciHandler.validateAgainstStateAndDeductCaller rt ctx = .ok deducted
  execution_ok : SciHandler.execution rt deducted initial = .ok (body, executed)
  reimburse_ok : SciHandler.reimburseCaller rt executed
    (SciHandler.finalFrame executed initial 0 body).gas = .ok reimbursed
  reward_ok : BaseHandler.rewardBeneficiary rt reimbursed
    (SciHandler.finalFrame executed initial 0 body).gas = .ok rewarded
  result_ok : SciHandler.executionResult rt rewarded
    (SciHandler.finalFrame executed initial 0 body) = .ok (result, committed)

/-- The context after the deduction, if there is one. -/
def Context.deducted (rt : Runtime World) (ctx : Context World) : Context World :=
  okOr ctx (SciHandler.validateAgainstStateAndDeductCaller rt ctx)

theorem Phases.deducted_eq (p : Phases rt ctx result committed) : ctx.deducted rt = p.deducted :=
  okOr_of_eq p.deduct_ok ctx

/-- The frame result the transaction is paid and reported by. -/
def Phases.frame {result : ExecutionResult} {committed : Context World}
    (p : Phases rt ctx result committed) : FrameResult :=
  SciHandler.finalFrame p.executed p.initial 0 p.body

section

variable (htx : ctx.tx = .fromAa aa signer payload)
include htx

theorem deductCaller_ok (h : SciHandler.deductCaller rt ctx = .ok ctx') :
    ctx.SameTx ctx' ∧ (∀ a, ctx'.journal.nonce a =
        if a = signer ∧ ctx.tx.base.kind.isCall = true then satAdd (ctx.journal.nonce a) 1
        else ctx.journal.nonce a) ∧
      ctx'.journal.keychain = ctx.journal.keychain ∧
      ctx'.journal.agentState = ctx.journal.agentState := by
  unfold deductCaller at h
  split at h
  · rename_i payer hsponsor
    have hne := BaseTransaction.sponsor_ne hsponsor
    unfold deductSponsored at h
    simp only [bind_ok, pure_eq, Except.ok.injEq] at h
    obtain ⟨pre, hpre, deducted, hdeduct, journal, hreconcile, rfl⟩ := h
    obtain ⟨hsameTx, hfunded⟩ := prefundSigner_same hne hpre
    obtain ⟨_, _, _, _, hded⟩ :=
      BaseHandler.deduct_ok (fromAa_isDeposit (hsameTx.tx.trans htx)) hdeduct
    obtain ⟨_, _, _, hsame⟩ := reconcile_ok hne hreconcile
    have htrans := hsameTx.trans hded.sameTx
    refine ⟨⟨htrans.block, htrans.tx, htrans.cfg⟩, fun a => ?_, ?_, ?_⟩
    · refine (hsame.nonce a).trans ((hded.nonce a).trans ?_)
      rw [hfunded.nonce a, hsameTx.tx, fromAa_caller htx]
    · exact hsame.keychain.trans (hded.keychain.trans hfunded.keychain)
    · exact hsame.agentState.trans (hded.agentState.trans hfunded.agentState)
  · obtain ⟨_, _, _, _, hded⟩ := BaseHandler.deduct_ok (fromAa_isDeposit htx) h
    refine ⟨hded.sameTx, fun a => ?_, hded.keychain, hded.agentState⟩
    rw [hded.nonce a, fromAa_caller htx]

theorem validate_sameTx (h : SciHandler.validateAgainstStateAndDeductCaller rt ctx = .ok ctx') :
    ctx.SameTx ctx' := by
  obtain ⟨deducted, hdeduct, hauthorize⟩ := validate_ok h
  obtain ⟨keychain, rfl⟩ := authorize_ok hauthorize
  obtain ⟨hsame, _⟩ := deductCaller_ok htx hdeduct
  exact ⟨hsame.block, hsame.tx, hsame.cfg⟩

theorem validate_nonce (h : SciHandler.validateAgainstStateAndDeductCaller rt ctx = .ok ctx') :
    ctx'.journal.nonce signer =
      if ctx.tx.base.kind.isCall = true then satAdd (ctx.journal.nonce signer) 1
      else ctx.journal.nonce signer := by
  obtain ⟨deducted, hdeduct, hauthorize⟩ := validate_ok h
  obtain ⟨keychain, rfl⟩ := authorize_ok hauthorize
  obtain ⟨_, hnonce, _⟩ := deductCaller_ok htx hdeduct
  have hsigner := hnonce signer
  simp only [true_and] at hsigner
  exact hsigner

end

theorem exists_phases (hrt : rt.Lawful) (htx : ctx.tx = .fromAa aa signer payload)
    (h : SciHandler.run rt ctx = .ok (result, committed)) :
    Nonempty (Phases rt ctx result committed) := by
  have hrun : SciHandler.runWithoutCatchError rt ctx = .ok (result, committed) := by
    unfold SciHandler.run at h
    split at h
    · rename_i hok
      rw [hok, h]
    · unfold BaseHandler.catchError at h
      rw [fromAa_isDeposit htx, if_neg (by simp)] at h
      cases h
  unfold SciHandler.runWithoutCatchError at hrun
  simp only [bind_ok, mapError_eq_ok] at hrun
  obtain ⟨_, _, initial, hinitial, deducted, hdeduct, auth, hauth, ⟨body, executed⟩, hexec,
    reimbursed, hreimburse, rewarded, hreward, hresult⟩ := hrun
  have hlist : deducted.tx.base.authorizationListLen = 0 := by
    rw [(validate_sameTx htx hdeduct).tx, htx]
    rfl
  rw [hrt.authList_empty hlist] at hauth
  cases hauth
  exact ⟨⟨initial, deducted, body, executed, reimbursed, rewarded, hinitial, hdeduct, hexec,
    hreimburse, hreward, hresult⟩⟩

theorem Gas.final_within {gas : Gas} {limit floor : Nat} (hlimit : gas.limit = limit)
    (hremaining : gas.remaining ≤ limit) (hfloor : floor ≤ limit) (hlt : limit < 2 ^ 64) :
    (gas.setFinalRefund.checkGasFloor floor).limit = limit ∧
      (gas.setFinalRefund.checkGasFloor floor).remaining +
        (gas.setFinalRefund.checkGasFloor floor).refundedU64 ≤ limit := by
  have hspent : gas.spent / 5 ≤ limit - gas.remaining := by
    rw [Gas.spent, hlimit]
    exact Nat.div_le_self _ _
  have hrefund : gas.setFinalRefund.refundedU64 ≤ limit - gas.remaining := by
    have hmin := Nat.min_le_right gas.refundedU64 (gas.spent / 5)
    have hsmall : min gas.refundedU64 (gas.spent / 5) < 2 ^ 64 := by omega
    simp only [Gas.refundedU64, Gas.setFinalRefund] at hmin hsmall ⊢
    omega
  unfold Gas.checkGasFloor
  split
  · refine ⟨hlimit, ?_⟩
    show gas.limit - floor + 0 ≤ limit
    omega
  · refine ⟨hlimit, ?_⟩
    show gas.remaining + gas.setFinalRefund.refundedU64 ≤ limit
    omega

section AfterBody

theorem reimburse_same (hrt : rt.Lawful) (h : SciHandler.reimburseCaller rt ctx gas = .ok ctx') :
    ctx.SameTx ctx' ∧ ctx.journal.SameButBalances ctx'.journal := by
  cases hsponsor : ctx.tx.sponsor with
  | none =>
    unfold reimburseCaller at h
    simp only [hsponsor] at h
    cases h
    obtain ⟨balance, _, heq⟩ := reimburseCaller_eq hrt ctx gas
    rw [heq]
    exact ⟨⟨rfl, rfl, rfl⟩, .setBalance ..⟩
  | some payer =>
    obtain ⟨hsameTx, _, _, _, hsame⟩ := reimburse_sponsored hrt hsponsor h
    exact ⟨hsameTx, hsame⟩

theorem reward_same (hrt : rt.Lawful) (h : BaseHandler.rewardBeneficiary rt ctx gas = .ok ctx') :
    ctx.SameTx ctx' ∧ ctx.journal.SameButBalances ctx'.journal := by
  unfold BaseHandler.rewardBeneficiary at h
  split at h
  · cases h
    exact ⟨.refl ctx, .refl _⟩
  · obtain ⟨balance, heq⟩ := hrt.reward_eq ctx gas
    simp only [heq] at h
    split at h
    · cases h
    · cases h
      refine ⟨⟨rfl, rfl, rfl⟩, ?_⟩
      exact (((Journal.SameButBalances.setBalance ..).trans (.setBalance ..)).trans
        (.setBalance ..)).trans (.setBalance ..)

theorem settle_ok (h : SciHandler.settle rt ctx frame = .ok ctx') :
    ∃ keychain, ctx' = ctx.withKeychain keychain := by
  unfold settle at h
  split at h
  · exact ⟨ctx.journal.keychain, (Except.ok.inj h).symm⟩
  · dsimp only at h
    split at h
    · split at h
      · cases h
      · exact ⟨_, (Except.ok.inj h).symm⟩
    · exact ⟨ctx.journal.keychain, (Except.ok.inj h).symm⟩

theorem executionResult_ok (h : SciHandler.executionResult rt ctx frame = .ok (result, committed)) :
    ∃ settled, SciHandler.settle rt ctx frame = .ok settled ∧ result = BaseHandler.output frame ∧
      settled.SameTx committed ∧ committed.journal = settled.journal.commitTx := by
  unfold executionResult at h
  simp only [bind_ok] at h
  obtain ⟨settled, hsettle, h⟩ := h
  refine ⟨settled, hsettle, ?_⟩
  unfold BaseHandler.executionResult at h
  split at h
  · cases h
  · simp only [reject_bind_ok, pure_eq, Except.ok.injEq, Prod.mk.injEq] at h
    obtain ⟨_, rfl, rfl⟩ := h
    exact ⟨rfl, ⟨rfl, rfl, rfl⟩, rfl⟩

variable {result : ExecutionResult} {committed : Context World}

/-- After the body only balances and the keychain change. -/
theorem Phases.nonce_eq (hrt : rt.Lawful) (p : Phases rt ctx result committed) (a : Address) :
    committed.journal.nonce a = p.executed.journal.nonce a := by
  obtain ⟨settled, hsettle, _, _, hjournal⟩ := executionResult_ok p.result_ok
  obtain ⟨keychain, rfl⟩ := settle_ok hsettle
  obtain ⟨_, hreimburse⟩ := reimburse_same hrt p.reimburse_ok
  obtain ⟨_, hreward⟩ := reward_same hrt p.reward_ok
  rw [hjournal]
  exact (hreward.nonce a).trans (hreimburse.nonce a)

variable (hrt : rt.Lawful) (p : Phases rt ctx result committed)
  (htx : ctx.tx = .fromAa aa signer payload)
include hrt p htx

omit hrt in
theorem Phases.tx_eq : p.deducted.tx = .fromAa aa signer payload :=
  (validate_sameTx htx p.deduct_ok).tx.trans htx

omit hrt in
/-- The body is the creation of an ordinary transaction if the batch is empty,
and the batch otherwise. -/
theorem Phases.body_cases :
    (aa.calls = [] ∧ BaseHandler.execution rt p.deducted p.initial = .ok (p.body, p.executed)) ∨
      (aa.calls ≠ [] ∧ SciHandler.executeAaBatch rt p.deducted p.initial
        ⟨aa.calls, aa.root, aa.feePayer⟩ = .ok (p.body, p.executed)) := by
  have hexec := p.execution_ok
  unfold execution at hexec
  rw [p.tx_eq htx] at hexec
  by_cases hcalls : aa.calls = []
  · left
    simp only [BaseTransaction.fromAa, Option.filter, hcalls, ne_eq, not_true_eq_false,
      decide_false, Bool.false_eq_true, if_false] at hexec
    exact ⟨hcalls, hexec⟩
  · right
    simp only [BaseTransaction.fromAa, Option.filter, hcalls, ne_eq, not_false_eq_true,
      decide_true, if_true] at hexec
    exact ⟨hcalls, hexec⟩

theorem Phases.body_invariant {P : Journal World → Prop}
    (hstep : ∀ ctx input exit, P ctx.journal → rt.runExecLoop ctx input = .ok exit →
      P exit.journal) (h : P p.deducted.journal) : P p.executed.journal := by
  rcases p.body_cases htx with ⟨_, hbody⟩ | ⟨_, hbatch⟩
  · simp only [BaseHandler.execution, bind_ok, pure_eq, Except.ok.injEq, Prod.mk.injEq] at hbody
    obtain ⟨exit, hexit, _, hexecuted⟩ := hbody
    rw [← hexecuted]
    exact hstep _ _ exit h hexit
  · obtain ⟨_, ⟨_, s, hrun, hexecuted⟩ | ⟨_, hjournal, _⟩⟩ := executeAaBatch_cases hrt hbatch
    · rw [hexecuted]
      exact runCalls_invariant (P := fun ctx => P ctx.journal) hstep h hrun
    · rwa [hjournal]

/-- The body leaves the transaction and the fee parameters alone, and keeps
within what the initial gas leaves of the limit. -/
theorem Phases.body_spec :
    p.deducted.SameTx p.executed ∧ p.executed.chain = p.deducted.chain ∧
      p.body.gas.limit = aa.gasLimit.toNat ∧
      p.body.gas.remaining ≤ aa.gasLimit.toNat - p.initial.initialGas := by
  have hgasLimit := fromAa_gasLimit (p.tx_eq htx)
  rcases p.body_cases htx with ⟨_, hbody⟩ | ⟨_, hbatch⟩
  · simp only [BaseHandler.execution, bind_ok, pure_eq, Except.ok.injEq, Prod.mk.injEq] at hbody
    obtain ⟨exit, hexit, hframe, hexecuted⟩ := hbody
    have hgas := hrt.frame_gas hexit
    rw [gasLimit_frameInput, hgasLimit] at hgas
    rw [← hexecuted, ← hframe]
    refine ⟨⟨rfl, rfl, rfl⟩, rfl, ?_⟩
    unfold BaseHandler.lastFrameResult
    simp only [fromAa_isDeposit (p.tx_eq htx), Bool.false_eq_true, not_false_eq_true, true_or,
      if_true, hgasLimit]
    split
    · simp only [Gas.newSpent, Gas.eraseCost, Gas.recordRefund, true_and]
      omega
    · simp only [Gas.newSpent, Gas.eraseCost, true_and]
      omega
    · simp [Gas.newSpent]
  · obtain ⟨⟨hsame, hchain, hlimit, hgas⟩, _⟩ := executeAaBatch_cases hrt hbatch
    rw [hgasLimit] at hlimit hgas
    exact ⟨hsame, hchain, hlimit, hgas⟩

/-- The gas paid for: whatever is left or refunded lies within the limit. -/
theorem Phases.gas_spec :
    p.frame.gas.limit = aa.gasLimit.toNat ∧
      p.frame.gas.remaining + p.frame.gas.refundedU64 ≤ aa.gasLimit.toNat := by
  obtain ⟨hsame, _, hlimit, hremaining⟩ := p.body_spec hrt htx
  have hdeposit : p.executed.isDeposit = false :=
    fromAa_isDeposit (hsame.tx.trans (p.tx_eq htx))
  have hfloor : p.initial.floorGas ≤ aa.gasLimit.toNat := by
    have hle := (hrt.initialGas_le p.initial_ok).2
    rw [htx] at hle
    exact hle
  have hlt := aa.gasLimit.isLt
  simp only [Phases.frame, finalFrame, BaseHandler.refund, hdeposit,
    Bool.false_eq_true, false_and, if_false]
  generalize hg : p.body.gas.recordRefund 0 = gas
  have hglimit : gas.limit = aa.gasLimit.toNat := by rw [← hg]; exact hlimit
  have hgremaining : gas.remaining ≤ aa.gasLimit.toNat := by
    rw [← hg]
    exact Nat.le_trans hremaining (Nat.sub_le _ _)
  exact Gas.final_within hglimit hgremaining hfloor hlt

end AfterBody

end SciChain
