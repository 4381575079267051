import SciChain.Proofs.Phases

namespace SciChain
open Library SciHandler

variable {World : Type} {rt : Runtime World} {ctx : Context World}

/-- The calldata of all calls of a batch. -/
def batchData (calls : List AaCall) : Bytes := calls.flatMap (·.input)

/-- Creation costs of every call that creates. -/
def batchCreateGas : List AaCall → Nat
  | [] => 0
  | call :: rest => (if call.kind.isCall then 0 else createGas call.input) + batchCreateGas rest

/-- What the whole batch would owe as the data of one transaction. -/
def batchGas (calls : List AaCall) : InitialAndFloorGas where
  initialGas := 21000 + 4 * L1BlockInfo.getTokensInCalldataIstanbul (batchData calls) +
    batchCreateGas calls
  floorGas := 21000 + 10 * L1BlockInfo.getTokensInCalldataIstanbul (batchData calls)

/-- Calls that carry neither calldata nor init code. -/
def DataFree (calls : List AaCall) : Prop :=
  ∀ call ∈ calls, call.kind.isCall = true ∧ call.input = []

section Tokens

open L1BlockInfo

theorem tokens_append (a b : Bytes) : getTokensInCalldataIstanbul (a ++ b) =
    getTokensInCalldataIstanbul a + getTokensInCalldataIstanbul b := by
  simp only [getTokensInCalldataIstanbul, List.countP_append]
  omega

theorem tokens_eq_zero : getTokensInCalldataIstanbul a = 0 ↔ a = [] := by
  constructor
  · intro h
    cases a with
    | nil => rfl
    | cons byte rest =>
      simp only [getTokensInCalldataIstanbul, List.countP_cons] at h
      by_cases hz : byte = 0
      · simp [hz] at h
      · simp [hz] at h
  · rintro rfl
    rfl

theorem batchData_cons (call : AaCall) (rest : List AaCall) :
    batchData (call :: rest) = call.input ++ batchData rest := rfl

/-- What the data of some calls adds is nothing exactly if there is none. -/
theorem dataFree_iff (calls : List AaCall) : DataFree calls ↔
    getTokensInCalldataIstanbul (batchData calls) = 0 ∧ batchCreateGas calls = 0 := by
  induction calls with
  | nil => simp [DataFree, batchData, batchCreateGas, getTokensInCalldataIstanbul]
  | cons call rest ih =>
    have hcreate : (if call.kind.isCall = true then 0 else createGas call.input) = 0 ↔
        call.kind.isCall = true := by
      unfold createGas
      split
      · simp [*]
      · rename_i h
        simp only [h, Bool.false_eq_true, iff_false]
        omega
    have hstep : DataFree (call :: rest) ↔
        (call.kind.isCall = true ∧ call.input = []) ∧ DataFree rest := List.forall_mem_cons
    simp only [hstep, ih, batchData_cons, tokens_append, batchCreateGas, Nat.add_eq_zero_iff,
      tokens_eq_zero, hcreate]
    tauto

end Tokens

section FirstCall

variable (aa : BaseAaTransaction) (signer : Address) (payload : Bytes)

theorem firstCall_le :
    (batchGas (aa.calls.take 1)).initialGas ≤
      (initialTxGas (BaseTransaction.fromAa aa signer payload).base).initialGas ∧
    (batchGas (aa.calls.take 1)).floorGas =
      (initialTxGas (BaseTransaction.fromAa aa signer payload).base).floorGas := by
  cases hcalls : aa.calls with
  | nil =>
    simp only [batchGas, initialTxGas, BaseTransaction.fromAa, TxEnv.fromRecoveredTx,
      BaseAaTransaction.toEip1559FirstCall, hcalls, batchCreateGas, List.take_nil,
      List.head?_nil, Option.getD_none, batchData, List.flatMap_nil, and_true]
    omega
  | cons call rest =>
    simp only [batchGas, initialTxGas, BaseTransaction.fromAa, TxEnv.fromRecoveredTx,
      BaseAaTransaction.toEip1559FirstCall, hcalls, List.take_succ_cons, List.take_zero,
      List.head?_cons, Option.getD_some, batchData, batchCreateGas, List.flatMap_cons,
      List.flatMap_nil, List.append_nil, and_true]
    omega

theorem firstCall_eq (haccess : aa.accessList = []) (hcalls : aa.calls ≠ []) :
    (initialTxGas (BaseTransaction.fromAa aa signer payload).base).initialGas =
      (batchGas (aa.calls.take 1)).initialGas := by
  cases hlist : aa.calls with
  | nil => exact absurd hlist hcalls
  | cons call rest =>
    simp only [batchGas, initialTxGas, BaseTransaction.fromAa, TxEnv.fromRecoveredTx,
      BaseAaTransaction.toEip1559FirstCall, hlist, haccess, accessListGas, List.take_succ_cons,
      List.take_zero, List.head?_cons, Option.getD_some, batchData, batchCreateGas,
      List.flatMap_cons, List.flatMap_nil, List.append_nil]
    omega

end FirstCall

/-- The calls after the first add nothing exactly if they carry no data. -/
theorem batchGas_split (calls : List AaCall) :
    (batchGas calls).initialGas = (batchGas (calls.take 1)).initialGas +
      (4 * L1BlockInfo.getTokensInCalldataIstanbul (batchData calls.tail) +
        batchCreateGas calls.tail) ∧
    (batchGas calls).floorGas = (batchGas (calls.take 1)).floorGas +
      10 * L1BlockInfo.getTokensInCalldataIstanbul (batchData calls.tail) := by
  cases calls with
  | nil => exact ⟨rfl, rfl⟩
  | cons call rest =>
    simp only [batchGas, batchData_cons, tokens_append, batchCreateGas, List.take_succ_cons,
      List.take_zero, List.tail_cons]
    have hnone : L1BlockInfo.getTokensInCalldataIstanbul (batchData []) = 0 := rfl
    rw [hnone]
    omega

theorem Gas.floor_le_used {gas : Gas} (h : floor ≤ (gas.checkGasFloor floor).limit) :
    floor ≤ (gas.checkGasFloor floor).used := by
  unfold Gas.checkGasFloor at h ⊢
  split at h
  · rename_i hlow
    rw [if_pos hlow]
    simp only [Gas.used, Gas.spent, Gas.refundedU64] at h ⊢
    omega
  · rename_i hhigh
    rw [if_neg hhigh]
    omega

section Charged

variable {aa : BaseAaTransaction} {signer : Address} {payload : Bytes}
  {result : ExecutionResult} {committed : Context World}

/-- The gas of an executed transaction: the body spends the initial gas at least,
and no less than the floor is paid for. -/
theorem Phases.initial_le_spent (hrt : rt.Lawful) (p : Phases rt ctx result committed)
    (htx : ctx.tx = .fromAa aa signer payload) :
    p.initial.initialGas ≤ p.body.gas.spent ∧ p.initial.floorGas ≤ p.frame.gas.used := by
  have hinitial := hrt.initialGas_le p.initial_ok
  rw [fromAa_gasLimit htx] at hinitial
  obtain ⟨_, _, hlimit, hremaining⟩ := p.body_spec hrt htx
  constructor
  · unfold Gas.spent
    omega
  · have hfinal : p.frame.gas.limit = aa.gasLimit.toNat := (p.gas_spec hrt htx).1
    simp only [Phases.frame, finalFrame] at hfinal ⊢
    exact Gas.floor_le_used (by rw [← hfinal] at hinitial; exact hinitial.2)

end Charged

section Idle

/-- A frame of code that does nothing: no gas is used, a creation counts up its
caller's nonce. -/
def idleFrame (ctx : Context Unit) (input : FrameInput) : FrameExit Unit :=
  match input with
  | .create inputs => plainExit inputs.gasLimit (ctx.journal.bumpNonce inputs.caller) .ok
  | .call inputs => plainExit inputs.gasLimit ctx.journal .ok

def idleRuntime : Runtime Unit :=
  { pricedRuntime noTokens fun _ => .ok with
    runExecLoop := fun ctx input => .ok (idleFrame ctx input) }

theorem idleFrame_exit (ctx : Context Unit) (input : FrameInput) :
    (idleFrame ctx input).frame.result = .ok ∧
      (idleFrame ctx input).frame.gas.remaining = input.gasLimit ∧
      (idleFrame ctx input).error = none := by
  cases input <;> exact ⟨rfl, rfl, rfl⟩

theorem idleFrame_balance (ctx : Context Unit) (input : FrameInput) (a : Address) :
    (idleFrame ctx input).journal.balance a = ctx.journal.balance a := by
  cases input with
  | create inputs => exact Journal.balance_bumpNonce ..
  | call inputs => rfl

theorem idleRuntime_lawful : idleRuntime.Lawful :=
  { (pricedRuntime_lawful : (pricedRuntime noTokens fun _ => .ok).Lawful) with
    frame_gas := by
      intro ctx input exit h
      cases h
      exact Nat.le_of_eq (idleFrame_exit ctx input).2.1
    frame_nonce := by
      intro ctx input exit h a
      cases h
      cases input with
      | call inputs => exact Nat.le_refl _
      | create inputs => exact Journal.nonce_le_bumpNonce ..
    create_nonce := by
      intro ctx inputs exit h _ hlt
      cases h
      exact Journal.nonce_lt_bumpNonce hlt
    frame_supply := by
      intro ctx input exit total h hsupply
      cases h
      unfold Journal.SupplyAtMost
      simp only [idleFrame_balance]
      exact hsupply
    frame_keychain := by
      intro ctx input exit h
      cases h
      refine ⟨[], ?_⟩
      cases input <;> rfl }

theorem runCalls_idle (caller : Address) (s : BatchState Unit) (calls : List AaCall) :
    ∃ s', runCalls idleRuntime caller s calls = .ok (.inl s') ∧ s'.remaining = s.remaining ∧
      (s.ctx.error = none ∨ calls ≠ [] → s'.ctx.error = none) := by
  induction calls generalizing s with
  | nil => exact ⟨s, rfl, rfl, fun h => h.resolve_right (fun hne => hne rfl)⟩
  | cons call rest ih =>
    obtain ⟨hok, hgas, herror⟩ := idleFrame_exit s.ctx (s.input caller call)
    obtain ⟨s', hrun, hremaining, hclean⟩ := ih (s.next (idleFrame s.ctx (s.input caller call)))
    refine ⟨s', ?_, hremaining.trans (hgas.trans (gasLimit_frameInput ..)),
      fun _ => hclean (Or.inl herror)⟩
    have hexit : idleRuntime.runExecLoop s.ctx (s.input caller call) =
        .ok (idleFrame s.ctx (s.input caller call)) := rfl
    simp only [runCalls, hexit, bind_value, hok]
    exact hrun

/-- A batch with nothing but its calls: no fee, no root, no access list, and all the
gas there can be. -/
def bareBatch (calls : List AaCall) : BaseAaTransaction where
  chainId := 1
  nonce := 0
  maxPriorityFeePerGas := 0
  maxFeePerGas := 0
  gasLimit := maxWord 64
  calls := calls
  accessList := []
  feePayer := none
  root := none

def bareContext (calls : List AaCall) : Context Unit where
  block := ⟨1, 2000, 99, 0, none⟩
  tx := .fromAa (bareBatch calls) 2 []
  cfg := ⟨.Azul, false, false⟩
  journal :=
    { accounts := fun a => ⟨if a = 2 then maxWord 256 else 0, 0, 0, none⟩
      keychain := .empty
      agentState := .empty
      world := () }
  chain := .empty
  db := fun _ => 0
  error := none

theorem bareContext_tx (calls : List AaCall) :
    (bareContext calls).tx = .fromAa (bareBatch calls) 2 [] := rfl

theorem bareContext_isDeposit (calls : List AaCall) : (bareContext calls).isDeposit = false := rfl

theorem bare_validate (calls : List AaCall) : ∃ deducted,
    validateAgainstStateAndDeductCaller idleRuntime (bareContext calls) = .ok deducted := by
  have hcost : (bareContext calls).additionalCost < 2 ^ 241 := by
    obtain ⟨chain, hfetch, _, hb⟩ := (bareContext calls).fetchL1Block_eq
    have hquote := (L1BlockInfo.txCostWithTx_spec (hb L1BlockInfo.bounded_empty)
      (bareContext calls).tx (bareContext calls).cfg.spec).1
    rw [Context.additionalCost, if_neg (by exact Bool.false_ne_true), Context.quotedCost, hfetch]
    exact hquote
  have hmost : idleRuntime.maxBalanceSpending (bareContext calls).tx = .ok 0 := by
    have hplain : idleRuntime.maxBalanceSpending = plainMaxSpending := rfl
    rw [hplain]
    unfold plainMaxSpending
    exact if_pos (show (maxWord 64).toNat * (0 : U128).toNat < 2 ^ 128 ∧
      (maxWord 64).toNat * (0 : U128).toNat + (0 : U256).toNat < 2 ^ 256 by decide)
  obtain ⟨deducted, hdeduct⟩ := BaseHandler.deduct_of_funds idleRuntime_lawful
    (bareContext_isDeposit calls) rfl rfl hmost
    (by show 0 + _ ≤ (maxWord 256).toNat; rw [toNat_maxWord]; omega)
  have hsame := (BaseHandler.deduct_ok rfl hdeduct).choose_spec.choose_spec.2.2.sameTx
  refine ⟨deducted.withKeychain (deducted.journal.keychain.setKeychainTxOrigin
    deducted.tx.base.caller), ?_⟩
  have hdeposit : deducted.isDeposit = false := hsame.isDeposit_eq
  have hroot : deducted.tx.root = none := by rw [hsame.tx]; rfl
  have hdeductCaller : deductCaller idleRuntime (bareContext calls) = .ok deducted := hdeduct
  have hpayer : ¬((bareContext calls).tx.feePayer.isSome = true ∧
      (bareContext calls).tx.feePayer ≠ (bareContext calls).tx.root) :=
    fun h => Bool.false_ne_true h.1
  unfold validateAgainstStateAndDeductCaller
  rw [reject_neg hpayer, bind_value, hdeductCaller, bind_value]
  unfold authorize
  simp [hdeposit, hroot]

variable {calls : List AaCall}

theorem bare_execution (hcalls : calls ≠ []) (hsame : (bareContext calls).SameTx deducted)
    (initial : InitialAndFloorGas) :
    ∃ body executed, execution idleRuntime deducted initial = .ok (body, executed) ∧
      body.gas.remaining = 2 ^ 64 - 1 - initial.initialGas ∧ executed.error = none ∧
      (bareContext calls).SameTx executed := by
  have hparts : deducted.tx.aa.filter (fun aa => aa.calls ≠ []) = some ⟨calls, none, none⟩ := by
    rw [hsame.tx]
    exact Option.filter_some_pos (decide_eq_true hcalls)
  obtain ⟨s, hrun, hremaining, herror⟩ := runCalls_idle deducted.tx.base.caller
    ⟨deducted, deducted.tx.base.gasLimit.toNat - initial.initialGas, 0, none⟩ calls
  have hgas : s.remaining = 2 ^ 64 - 1 - initial.initialGas := by
    rw [hremaining, hsame.tx]
    show (maxWord 64).toNat - _ = _
    rw [toNat_maxWord]
  have hexec : execution idleRuntime deducted initial = .ok (finalizeBatchGas
      (s.last.getD ⟨.ok, Gas.newSpent deducted.tx.base.gasLimit.toNat⟩)
      deducted.tx.base.gasLimit.toNat s.remaining s.refund, s.ctx) := by
    unfold execution executeAaBatch
    rw [hparts]
    simp only [Option.getD_none, hrun, bind_value]
    rfl
  have hbatch := hexec
  unfold execution at hbatch
  rw [hparts] at hbatch
  have hkept := (executeAaBatch_cases idleRuntime_lawful hbatch).1.1
  refine ⟨_, s.ctx, hexec, ?_, herror (Or.inr hcalls), hsame.trans hkept⟩
  simp only [finalizeBatchGas, Gas.newSpent, Gas.eraseCost, Gas.recordRefund]
  split <;> simp [hgas]

section

variable (hcalls : calls ≠ [])
  (hfits : (batchGas (calls.take 1)).initialGas < 2 ^ 64 ∧ (batchGas (calls.take 1)).floorGas < 2 ^ 64)
include hcalls hfits

theorem bare_initial :
    idleRuntime.validateInitialTxGas (bareContext calls).tx (bareContext calls).cfg =
      .ok (initialTxGas (bareContext calls).tx.base) := by
  have hlimit : (bareContext calls).tx.base.gasLimit.toNat = 2 ^ 64 - 1 := toNat_maxWord 64
  have heq : (initialTxGas (bareContext calls).tx.base).initialGas = _ :=
    firstCall_eq (bareBatch calls) 2 [] rfl hcalls
  have hfloor : _ = (initialTxGas (bareContext calls).tx.base).floorGas :=
    (firstCall_le (bareBatch calls) 2 []).2
  have hpaid : (initialTxGas (bareContext calls).tx.base).initialGas ≤
        (bareContext calls).tx.base.gasLimit.toNat ∧
      (initialTxGas (bareContext calls).tx.base).floorGas ≤
        (bareContext calls).tx.base.gasLimit.toNat := by
    rw [hlimit, heq, ← hfloor]
    exact ⟨Nat.le_pred_of_lt hfits.1, Nat.le_pred_of_lt hfits.2⟩
  exact if_pos hpaid

/-- Every batch whose first call can be paid for is executed in some state. -/
theorem bare_run :
    ∃ result committed, SciHandler.run idleRuntime (bareContext calls) = .ok (result, committed) := by
  have hvalid : validateEnv idleRuntime (bareContext calls) = .ok () := by
    unfold validateEnv BaseHandler.validateEnv
    rfl
  have hinitial := bare_initial hcalls hfits
  obtain ⟨deducted, hdeduct⟩ := bare_validate calls
  have hsame := validate_sameTx (bareContext_tx calls) hdeduct
  have hauth : idleRuntime.applyEip7702AuthList deducted = .ok (0, deducted.journal) := rfl
  obtain ⟨body, executed, hexec, _, herror, hkept⟩ := bare_execution hcalls hsame
    (initialTxGas (bareContext calls).tx.base)
  generalize hframe : finalFrame executed (initialTxGas (bareContext calls).tx.base) 0 body = frame
  have hsponsor : executed.tx.sponsor = none := by rw [hkept.tx]; rfl
  have hreimburse : reimburseCaller idleRuntime executed frame.gas =
      .ok (BaseHandler.reimburseCaller idleRuntime executed frame.gas) := by
    unfold reimburseCaller
    rw [hsponsor]
  generalize hreimbursed : BaseHandler.reimburseCaller idleRuntime executed frame.gas = reimbursed
    at hreimburse
  have hkept' : (bareContext calls).SameTx reimbursed := by
    rw [← hreimbursed]
    exact ⟨hkept.block, hkept.tx, hkept.cfg⟩
  have henv : reimbursed.tx.envelopedTx = some [sciAaTxTypeId] := by rw [hkept'.tx]; rfl
  have hdeposit : reimbursed.isDeposit = false := hkept'.isDeposit_eq
  have hreward : ∃ rewarded, BaseHandler.rewardBeneficiary idleRuntime reimbursed frame.gas =
      .ok rewarded ∧ rewarded.error = none ∧ reimbursed.SameTx rewarded := by
    unfold BaseHandler.rewardBeneficiary
    simp only [hdeposit, Bool.false_eq_true, if_false, henv]
    refine ⟨_, rfl, ?_, rfl, rfl, rfl⟩
    rw [← hreimbursed]
    exact herror
  obtain ⟨rewarded, hreward, hclean, hlast⟩ := hreward
  have hroot : rewarded.tx.root = none := by rw [hlast.tx, hkept'.tx]; rfl
  have hordinary : rewarded.isDeposit = false := hlast.isDeposit_eq.trans hdeposit
  have hsettle : settle idleRuntime rewarded frame = .ok rewarded := by
    unfold settle
    rw [hroot]
  refine ⟨BaseHandler.output frame, { rewarded with
    journal := rewarded.journal.commitTx, chain := rewarded.chain.clearTxL1Cost }, ?_⟩
  unfold SciHandler.run runWithoutCatchError executionResult BaseHandler.executionResult
  simp only [hvalid, hinitial, mapError_value, bind_value, hdeduct, hauth, hexec, hframe,
    hreimburse, hreward, hsettle, hclean, hordinary, Bool.false_eq_true, false_and, and_false]
  rfl

end

end Idle

/-- A batch pays for the calldata and the init code of all its calls, in every state
and whatever its calls do, exactly if the calls after the first carry none: the gas
is computed from the first call alone. A first call that no gas limit can pay for is
never executed. -/
theorem batch_pays_for_data_iff (calls : List AaCall) :
    (∀ (World : Type) (rt : Runtime World) (ctx : Context World) (aa : BaseAaTransaction)
      (signer : Address) (payload : Bytes) (result : ExecutionResult) (committed : Context World)
      (p : Phases rt ctx result committed), rt.Lawful → rt.ChargesData →
      ctx.cfg.spec.isEnabledIn .Isthmus = true → ctx.tx = .fromAa aa signer payload →
      aa.calls = calls → SciHandler.run rt ctx = .ok (result, committed) →
      (batchGas calls).initialGas ≤ p.body.gas.spent ∧
        (batchGas calls).floorGas ≤ p.frame.gas.used) ↔
    (∀ call ∈ calls.tail, call.kind.isCall = true ∧ call.input = []) ∨
      2 ^ 64 ≤ (batchGas (calls.take 1)).initialGas ∨
      2 ^ 64 ≤ (batchGas (calls.take 1)).floorGas := by
  obtain ⟨hinitialSplit, hfloorSplit⟩ := batchGas_split calls
  constructor
  · intro h
    by_contra hbad
    simp only [not_or, Nat.not_le] at hbad
    obtain ⟨hdata, hfits⟩ := hbad
    have hcalls : calls ≠ [] := by
      rintro rfl
      exact hdata nofun
    obtain ⟨result, committed, hrun⟩ := bare_run hcalls hfits
    obtain ⟨p⟩ := exists_phases idleRuntime_lawful (bareContext_tx calls) hrun
    have hdataCharged : idleRuntime.ChargesData :=
      (pricedRuntime_chargesData : (pricedRuntime noTokens fun _ => .ok).ChargesData)
    have hpaid := (h Unit idleRuntime (bareContext calls) (bareBatch calls) 2 [] result committed p
      idleRuntime_lawful hdataCharged rfl rfl rfl hrun).1
    -- The body of the idle batch spends the gas of the first call and no more.
    have hgas : p.initial = initialTxGas (bareContext calls).tx.base :=
      Except.ok.inj (p.initial_ok.symm.trans (bare_initial hcalls hfits))
    have hsame := validate_sameTx (bareContext_tx calls) p.deduct_ok
    obtain ⟨body, executed, hexec, hremaining, _⟩ := bare_execution hcalls hsame p.initial
    obtain ⟨hbody, _⟩ := Prod.mk.inj (Except.ok.inj (p.execution_ok.symm.trans hexec))
    have hlimit : p.body.gas.limit = 2 ^ 64 - 1 :=
      (p.body_spec idleRuntime_lawful (bareContext_tx calls)).2.2.1.trans (toNat_maxWord 64)
    have heq : (initialTxGas (bareContext calls).tx.base).initialGas = _ :=
      firstCall_eq (bareBatch calls) 2 [] rfl hcalls
    have hspent : p.body.gas.spent ≤ (batchGas (calls.take 1)).initialGas := by
      have hfirst := hfits.1
      unfold Gas.spent
      rw [hlimit, hbody, hremaining, hgas, heq]
      show 2 ^ 64 - 1 - (2 ^ 64 - 1 - (batchGas (calls.take 1)).initialGas) ≤ _
      omega
    refine hdata ((dataFree_iff calls.tail).mpr ?_)
    omega
  · rintro hcond World rt ctx aa signer payload result committed p hrt hdata hspec htx rfl hrun
    obtain ⟨hinitial, hfloor⟩ := p.initial_le_spent hrt htx
    have hgas := hdata _ _ _ hspec p.initial_ok
    obtain ⟨hfirst, hfirstFloor⟩ := firstCall_le aa signer payload
    rw [htx] at hgas
    rw [hgas] at hinitial hfloor
    have hlimit := hrt.initialGas_le p.initial_ok
    rw [hgas, fromAa_gasLimit htx] at hlimit
    rcases hcond with hfree | hlarge | hlarge
    · obtain ⟨htokens, hcreate⟩ := (dataFree_iff aa.calls.tail).mp hfree
      omega
    · omega
    · omega

/-- Two calls, the second with a thousand bytes of calldata. -/
def freeRider : BaseAaTransaction :=
  { agentTransfer with
    calls := [⟨.call 7, 0, []⟩, ⟨.call 8, 0, List.replicate 1000 1⟩]
    feePayer := none
    root := none }

/-- They are carried for the price of none: 21000 gas is charged where the data of the
batch has an intrinsic gas of 37000 and a floor of 61000. -/
theorem later_calldata_is_free :
    (SciHandler.run (pricedRuntime noTokens fun _ => .ok) (smallContext freeRider 1)).map (·.1) =
      .ok (.success 21000 0) ∧
    (batchGas freeRider.calls).initialGas = 37000 ∧ (batchGas freeRider.calls).floorGas = 61000 := by
  refine ⟨?_, ?_, ?_⟩ <;> decide +kernel

end SciChain
