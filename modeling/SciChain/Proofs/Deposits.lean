import SciChain.Proofs.FeeConservation

namespace SciChain
open Library SciHandler Journal

variable {World : Type} {rt : Runtime World} {ctx : Context World} {tx : TxDeposit}
  {sender : Address} {encoded : Bytes}

theorem fromDeposit_isDeposit (h : ctx.tx = .fromDeposit tx sender encoded) :
    ctx.isDeposit = true := by
  unfold Context.isDeposit BaseTransaction.txType
  rw [h]
  exact decide_eq_true (ite_self depositTransactionType)

/-- The mint as it is added to the sender's balance. -/
def TxDeposit.credit (tx : TxDeposit) : U256 := tx.mint.setWidth 256

theorem toNat_credit (tx : TxDeposit) : tx.credit.toNat = tx.mint.toNat :=
  BitVec.toNat_setWidth_of_le (by decide)

/-- The journal after the deduction: the mint is credited, and a call has raised
the nonce. -/
def depositCredited (j : Journal World) (tx : TxDeposit) (sender : Address) : Journal World :=
  if tx.kind.isCall then (j.incrBalance sender tx.credit).bumpNonce sender
  else j.incrBalance sender tx.credit

/-- The context the single frame of a deposit starts from. -/
def depositEntered (ctx : Context World) (tx : TxDeposit) (sender : Address) : Context World :=
  { ctx with journal := depositCredited ctx.journal tx sender }.withKeychain
    (ctx.journal.keychain.setKeychainTxOrigin sender)

/-- The one call of a deposit. -/
def depositInput (ctx : Context World) (tx : TxDeposit) (sender : Address) (gas : Nat) :
    FrameInput :=
  (depositEntered ctx tx sender).journal.frameInput sender tx.kind tx.value tx.input gas

theorem supply_depositEntered (h : ctx.journal.supply + tx.mint.toNat < 2 ^ 256) :
    (depositEntered ctx tx sender).journal.supply = ctx.journal.supply + tx.mint.toNat := by
  have hcredit := ctx.journal.supply_incrBalance sender tx.credit (by rw [toNat_credit]; exact h)
  rw [toNat_credit] at hcredit
  show (depositCredited ctx.journal tx sender).supply = _
  unfold depositCredited
  split
  · rw [supply_bumpNonce, hcredit]
  · exact hcredit

section Run

variable (hspends : rt.SpendsValue) (htx : ctx.tx = .fromDeposit tx sender encoded)
  (hcharges : ctx.cfg.Charges)

include htx in
theorem authorize_deposit (ctx' : Context World) (hsame : ctx.SameTx ctx') :
    SciHandler.authorize rt ctx' =
      .ok (ctx'.withKeychain (ctx'.journal.keychain.setKeychainTxOrigin sender)) := by
  unfold authorize
  simp only [hsame.isDeposit_eq, fromDeposit_isDeposit htx, if_true]
  rw [hsame.tx, htx]
  rfl

include hspends htx hcharges

theorem deductDeposit_eq : BaseHandler.deductDeposit rt ctx =
    { ctx with journal := depositCredited ctx.journal tx sender } := by
  have hvalue : rt.effectiveBalanceSpending ctx.tx (ctx.block.basefee.setWidth 128)
      (ctx.block.blobGasprice.getD 0) - ctx.tx.base.value = 0#256 := by
    rw [hspends ctx.tx _ _ (by rw [htx]; rfl), BitVec.sub_self]
  have hsub : ∀ balance : U256, satSub balance 0#256 = balance := fun balance =>
    BitVec.eq_of_toNat_eq (by rw [toNat_satSub]; rfl)
  unfold BaseHandler.deductDeposit
  simp only [hvalue, hsub, hcharges.2, Bool.false_eq_true, false_and, if_false]
  rw [htx]
  rfl

theorem validate_deposit : SciHandler.validateAgainstStateAndDeductCaller rt ctx =
    .ok (depositEntered ctx tx sender) := by
  have hsponsor : ctx.tx.sponsor = none := by rw [htx]; rfl
  have hpayer : ¬(ctx.tx.feePayer.isSome = true ∧ ctx.tx.feePayer ≠ ctx.tx.root) := by
    rw [htx]
    simp [BaseTransaction.feePayer, BaseTransaction.fromDeposit]
  unfold validateAgainstStateAndDeductCaller deductCaller
    BaseHandler.validateAgainstStateAndDeductCaller
  simp only [reject_neg hpayer, hsponsor, fromDeposit_isDeposit htx, if_true, bind_value,
    deductDeposit_eq hspends htx hcharges]
  refine (authorize_deposit htx { ctx with journal := depositCredited ctx.journal tx sender }
    ⟨rfl, rfl, rfl⟩).trans ?_
  unfold depositEntered depositCredited
  split <;> rfl

omit hspends in
/-- Unused gas was not paid for, so nothing is given back. -/
theorem reimburse_deposit (hrt : rt.Lawful) (hsame : ctx.SameTx ctx') (gas : Gas) :
    ∃ j, SciHandler.reimburseCaller rt ctx' gas = .ok { ctx' with journal := j } ∧
      (∀ a, j.balance a = ctx'.journal.balance a) := by
  have hdeposit : ctx'.isDeposit = true := hsame.isDeposit_eq.trans (fromDeposit_isDeposit htx)
  have hsponsor : ctx'.tx.sponsor = none := by rw [hsame.tx, htx]; rfl
  have hprice : rt.effectiveGasPrice ctx'.tx (ctx'.block.basefee.setWidth 128) = 0#128 := by
    have hle := hrt.effectiveGasPrice_le ctx'.tx (ctx'.block.basefee.setWidth 128)
    rw [hsame.tx, htx] at hle ⊢
    exact BitVec.eq_of_toNat_eq (Nat.le_zero.mp hle)
  have hexact := @Runtime.Lawful.reimburse_exact _ rt hrt ctx' gas 0#256 0
    (by rw [hsame.cfg]; exact hcharges)
    (by rw [hprice, show (0#128).toNat = 0 from rfl, Nat.zero_mul]) (by decide)
    (BitVec.isLt _)
  obtain ⟨balance, _, heq⟩ := hrt.reimburse_eq ctx' gas 0#256
  refine ⟨rt.reimburseCaller ctx' gas 0#256, ?_, fun a => ?_⟩
  · unfold reimburseCaller BaseHandler.reimburseCaller
    simp only [hsponsor, hdeposit, not_true_eq_false, false_and, if_false]
    rfl
  · rw [heq] at hexact ⊢
    rw [balance_setBalance, if_pos rfl] at hexact
    rw [balance_setBalance]
    split
    · rename_i ha
      rw [ha]
      exact BitVec.eq_of_toNat_eq hexact
    · rfl

end Run

/-- What a deposit leaves when it fails: its nonce and its mint. -/
def depositFailed (j : Journal World) (tx : TxDeposit) (sender : Address) : Journal World :=
  ((j.bumpNonce sender).incrBalance sender tx.credit).commitTx

/-- The two ways a deposit is included. -/
inductive DepositOutcome (rt : Runtime World) (ctx : Context World) (tx : TxDeposit)
    (sender : Address) : ExecutionResult → Journal World → Prop
  /-- The frame ended in a success or a revert; nothing it left is changed any more. -/
  | ran {result : ExecutionResult} {j : Journal World} {gas : Nat} {exit : FrameExit World} :
      result.isHalt = false →
      rt.runExecLoop (depositEntered ctx tx sender) (depositInput ctx tx sender gas) = .ok exit →
      (∀ a, j.balance a = exit.journal.balance a) → DepositOutcome rt ctx tx sender result j
  | failed : DepositOutcome rt ctx tx sender (.failedDeposit tx.gasLimit.toNat)
      (depositFailed ctx.journal tx sender)

theorem catchError_deposit (htx : ctx.tx = .fromDeposit tx sender encoded)
    (hregolith : ctx.isRegolith = true) (he : e.isTxError = true) :
    ∃ committed, BaseHandler.catchError ctx e =
        .ok (.failedDeposit tx.gasLimit.toNat, committed) ∧
      committed.journal = depositFailed ctx.journal tx sender := by
  unfold BaseHandler.catchError
  simp only [he, fromDeposit_isDeposit htx, hregolith, true_and, true_or, if_true]
  exact ⟨_, by rw [htx]; rfl, rfl⟩

section

variable (hrt : rt.Lawful) (hfaultless : rt.Faultless) (hspends : rt.SpendsValue)
  (htx : ctx.tx = .fromDeposit tx sender encoded) (hcharges : ctx.cfg.Charges)
include hrt hfaultless hspends htx hcharges

/-- The phases of a deposit up to its result: one frame, after which no balance
changes any more. -/
theorem phases_deposit (hvalid : SciHandler.validateEnv rt ctx = .ok ())
    (hinitial : rt.validateInitialTxGas ctx.tx ctx.cfg = .ok initial) :
    ∃ gas exit frame last,
      rt.runExecLoop (depositEntered ctx tx sender) (depositInput ctx tx sender gas) = .ok exit ∧
      (∀ a, last.journal.balance a = exit.journal.balance a) ∧ ctx.SameTx last ∧
      last.error = none ∧
      SciHandler.runWithoutCatchError rt ctx = BaseHandler.executionResult last frame := by
  unfold depositInput
  generalize hentered : depositEntered ctx tx sender = entered
  have hsame : ctx.SameTx entered := by rw [← hentered]; exact ⟨rfl, rfl, rfl⟩
  have hbase : entered.tx.base = TxEnv.fromRecoveredDeposit tx sender := by
    rw [hsame.tx, htx]
    rfl
  have hparts : entered.tx.aa = none := by rw [hsame.tx, htx]; rfl
  obtain ⟨exit, hexit, hnone⟩ := hfaultless entered (entered.journal.frameInput sender tx.kind
    tx.value tx.input (tx.gasLimit.toNat - initial.initialGas))
  generalize hexecuted : { entered with journal := exit.journal, error := exit.error } = executed
  have hexecution : execution rt entered initial =
      .ok (BaseHandler.lastFrameResult entered exit.frame, executed) := by
    unfold execution BaseHandler.execution
    simp [hparts, hbase, TxEnv.fromRecoveredDeposit, hexit, hexecuted]
  have hsame' : ctx.SameTx executed := by
    rw [← hexecuted]
    exact ⟨hsame.block, hsame.tx, hsame.cfg⟩
  generalize hframe : finalFrame executed initial 0
    (BaseHandler.lastFrameResult entered exit.frame) = frame
  obtain ⟨j, hreimburse, hbalance⟩ := reimburse_deposit htx hcharges hrt hsame' frame.gas
  refine ⟨_, exit, frame, { executed with journal := j }, hexit, ?_,
    ⟨hsame'.block, hsame'.tx, hsame'.cfg⟩, by rw [← hexecuted]; exact hnone, ?_⟩
  · rw [← hexecuted] at hbalance
    exact hbalance
  · have hauth : rt.applyEip7702AuthList entered = .ok (0, entered.journal) :=
      hrt.authList_empty (by rw [hsame.tx, htx]; rfl)
    have hreward : BaseHandler.rewardBeneficiary rt { executed with journal := j } frame.gas =
        .ok { executed with journal := j } := by
      unfold BaseHandler.rewardBeneficiary
      exact if_pos (hsame'.isDeposit_eq.trans (fromDeposit_isDeposit htx))
    have hsettle : settle rt { executed with journal := j } frame =
        .ok { executed with journal := j } := by
      unfold settle
      simp only [hsame'.tx, htx]
      rfl
    have hvalidated := validate_deposit hspends htx hcharges
    rw [hentered] at hvalidated
    unfold runWithoutCatchError executionResult
    simp only [hvalid, hinitial, mapError_value, bind_value, hvalidated, hauth, hexecution,
      hframe, hreimburse, hreward, hsettle]

theorem run_deposit (hregolith : ctx.isRegolith = true) (hsystem : tx.isSystemTransaction = false) :
    ∃ result committed, SciHandler.run rt ctx = .ok (result, committed) ∧
      DepositOutcome rt ctx tx sender result committed.journal := by
  have hdeposit := fromDeposit_isDeposit htx
  have hvalid : SciHandler.validateEnv rt ctx = .ok () := by
    unfold SciHandler.validateEnv BaseHandler.validateEnv
    simp only [hdeposit, if_true]
    exact reject_neg (by rw [htx]; simp [BaseTransaction.fromDeposit, hsystem]) _
  -- Every failure is one of the transaction, and is caught.
  have hfails : ∀ {e : EVMError}, SciHandler.runWithoutCatchError rt ctx = .error e →
      e.isTxError = true → ∃ result committed, SciHandler.run rt ctx = .ok (result, committed) ∧
        DepositOutcome rt ctx tx sender result committed.journal := by
    intro e he htxError
    obtain ⟨committed, hcatch, hjournal⟩ := catchError_deposit htx hregolith htxError
    refine ⟨_, committed, ?_, by rw [hjournal]; exact .failed⟩
    unfold SciHandler.run
    rw [he]
    exact hcatch
  cases hinitial : rt.validateInitialTxGas ctx.tx ctx.cfg with
  | error e =>
    refine hfails (e := .invalid e) ?_ rfl
    unfold SciHandler.runWithoutCatchError
    simp only [hvalid, hinitial, bind_value, Except.mapError, bind_fail]
  | ok initial =>
    obtain ⟨gas, exit, frame, last, hexit, hbalance, hsame, herror, hrun⟩ :=
      phases_deposit hrt hfaultless hspends htx hcharges hvalid hinitial
    by_cases hhalt : (BaseHandler.output frame).isHalt = true
    · refine hfails (e := .transaction .haltedDepositPostRegolith) ?_ rfl
      have hregolith' : last.isRegolith = true := by
        unfold Context.isRegolith at hregolith ⊢
        rw [hsame.cfg]
        exact hregolith
      rw [hrun]
      unfold BaseHandler.executionResult
      simp only [herror]
      rw [reject_pos ⟨hhalt, hsame.isDeposit_eq.trans hdeposit, hregolith'⟩]
      rfl
    · refine ⟨BaseHandler.output frame, { last with
        journal := last.journal.commitTx, chain := last.chain.clearTxL1Cost }, ?_,
        .ran (by simpa using hhalt) hexit hbalance⟩
      unfold SciHandler.run
      rw [hrun]
      unfold BaseHandler.executionResult
      simp only [herror]
      rw [reject_neg (fun h => hhalt h.1)]
      rfl

end

/-- Deposits cannot fail: whatever the body does, a deposit that is no system
transaction is included. If it neither succeeds nor reverts, all that is left of it
is the sender's nonce and the mint, at the price of the gas limit. The supply grows
by exactly the mint up to the frame, and the frame alone can change it again. -/
theorem deposits_never_fail (rt : Runtime World) (hrt : rt.Lawful) (hfaultless : rt.Faultless)
    (hspends : rt.SpendsValue) (tx : TxDeposit) (sender : Address) (encoded : Bytes)
    (ctx : Context World) (htx : ctx.tx = .fromDeposit tx sender encoded)
    (hcharges : ctx.cfg.Charges) (hregolith : ctx.isRegolith = true)
    (hsystem : tx.isSystemTransaction = false)
    (hsupply : ctx.journal.supply + tx.mint.toNat < 2 ^ 256) :
    ∃ result committed, SciHandler.run rt ctx = .ok (result, committed) ∧
      ((result.isHalt = false ∧ ∃ gas exit,
          rt.runExecLoop (depositEntered ctx tx sender) (depositInput ctx tx sender gas) =
            .ok exit ∧
          (depositEntered ctx tx sender).journal.supply = ctx.journal.supply + tx.mint.toNat ∧
          committed.journal.supply = exit.journal.supply) ∨
        (result = .failedDeposit tx.gasLimit.toNat ∧
          (∀ a, a ≠ sender → committed.journal.accounts a = ctx.journal.accounts a) ∧
          committed.journal.accounts sender = { ctx.journal.accounts sender with
            nonce := satAdd (ctx.journal.nonce sender) 1
            balance := ctx.journal.balance sender + tx.mint.setWidth 256 } ∧
          committed.journal.keychain =
            (ctx.journal.keychain.setTransactionKey 0).setTxOrigin 0 ∧
          committed.journal.agentState = ctx.journal.agentState ∧
          committed.journal.world = ctx.journal.world ∧
          committed.journal.supply = ctx.journal.supply + tx.mint.toNat)) := by
  obtain ⟨result, committed, hrun, hout⟩ :=
    run_deposit hrt hfaultless hspends htx hcharges hregolith hsystem
  refine ⟨result, committed, hrun, ?_⟩
  generalize committed.journal = j at hout
  cases hout with
  | ran hhalt hexit hbalance =>
    exact Or.inl ⟨hhalt, _, _, hexit, supply_depositEntered hsupply, supply_congr hbalance⟩
  | failed =>
    have hcredit := toNat_credit tx
    have hheld := ctx.journal.balance_le_supply sender
    have hbalance : satAdd ((ctx.journal.bumpNonce sender).balance sender) tx.credit =
        ctx.journal.balance sender + tx.mint.setWidth 256 := by
      have hfits : (ctx.journal.balance sender).toNat + tx.credit.toNat < 2 ^ 256 := by omega
      refine BitVec.eq_of_toNat_eq (Eq.trans ?_ (BitVec.toNat_add_of_lt hfits).symm)
      rw [balance_bumpNonce, toNat_satAdd]
      omega
    refine Or.inr ⟨rfl, fun a ha => ?_, ?_, rfl, rfl, rfl, ?_⟩
    · simp [depositFailed, commitTx, incrBalance, setBalance,
        bumpNonce, ha]
    · simp only [depositFailed, commitTx, incrBalance, setBalance,
        Function.update_self, hbalance]
      simp [bumpNonce]
    · have hsum := (ctx.journal.bumpNonce sender).supply_incrBalance sender tx.credit
        (by rw [supply_bumpNonce, hcredit]; exact hsupply)
      rw [supply_bumpNonce, hcredit] at hsum
      exact hsum

section Sample

variable {abi : TokenAbi} {verdict : FrameInput → InstructionResult}

theorem pricedRuntime_faultless : (pricedRuntime abi verdict).Faultless := by
  intro ctx input
  refine ⟨plainFrame verdict ctx input, rfl, ?_⟩
  unfold plainFrame
  cases input with
  | create inputs => rfl
  | call inputs =>
    dsimp only
    split <;> rfl

theorem pricedRuntime_spendsValue : (pricedRuntime abi verdict).SpendsValue := by
  intro tx basefee blobPrice hprice
  have hfree : (plainGasPrice tx basefee).toNat = 0 := by
    have hle := plainGasPrice_le tx basefee
    rw [hprice] at hle
    exact Nat.le_zero.mp hle
  apply BitVec.eq_of_toNat_eq
  simp only [pricedRuntime, plainRuntime]
  rw [toNat_satAdd, toNat_satMul_setWidth _ _ (by decide), hfree]
  omega

/-- A mint of seven, of which three are sent on. -/
def sampleDeposit : TxDeposit :=
  ⟨1, .call 7, 7, 3, 50000, false, []⟩

def depositContext : Context Unit :=
  { smallContext agentTransfer 2 with tx := .fromDeposit sampleDeposit 5 [] }

theorem depositContext_tx : depositContext.tx = .fromDeposit sampleDeposit 5 [] := rfl

theorem depositContext_supply :
    depositContext.journal.supply + sampleDeposit.mint.toNat < 2 ^ 256 := by
  have hsingle := supply_of_single (j := depositContext.journal) (a := 1)
    (fun b hb => if_neg hb)
  rw [hsingle]
  decide

/-- The code at the target halts: the deposit is included all the same. -/
theorem deposits_never_fail_halted :
    ∃ result committed, SciHandler.run (pricedRuntime noTokens fun _ => .halt) depositContext =
      .ok (result, committed) := by
  obtain ⟨result, committed, hrun, _⟩ := deposits_never_fail
    (pricedRuntime noTokens fun _ => .halt) pricedRuntime_lawful pricedRuntime_faultless
    pricedRuntime_spendsValue sampleDeposit 5 [] depositContext rfl ⟨rfl, rfl⟩ rfl rfl
    depositContext_supply
  exact ⟨result, committed, hrun⟩

/-- A call whose target hands the value to a contract it creates, which destroys
itself in its own favour: the value is gone. -/
def burningFrame (ctx : Context Unit) (input : FrameInput) : FrameExit Unit :=
  match input with
  | .create inputs => plainExit inputs.gasLimit (ctx.journal.bumpNonce inputs.caller) .ok
  | .call inputs =>
    plainExit inputs.gasLimit (ctx.journal.setBalance inputs.caller
      (satSub (ctx.journal.balance inputs.caller) inputs.value)) .ok

def burningRuntime : Runtime Unit :=
  { pricedRuntime noTokens fun _ => .ok with
    runExecLoop := fun ctx input => .ok (burningFrame ctx input) }

theorem burningFrame_supply (ctx : Context Unit) (input : FrameInput)
    (h : ctx.journal.SupplyAtMost total) : (burningFrame ctx input).journal.SupplyAtMost total := by
  intro s
  refine Nat.le_trans (Finset.sum_le_sum fun a _ => ?_) (h s)
  unfold burningFrame
  cases input with
  | create inputs =>
    simp only [plainExit, balance_bumpNonce]
    exact Nat.le_refl _
  | call inputs =>
    simp only [plainExit, balance_setBalance]
    split
    · rename_i ha
      rw [ha, toNat_satSub]
      exact Nat.sub_le _ _
    · exact Nat.le_refl _

theorem burningFrame_nonce (ctx : Context Unit) (input : FrameInput) (a : Address) :
    (ctx.journal.nonce a).toNat ≤ ((burningFrame ctx input).journal.nonce a).toNat := by
  unfold burningFrame
  cases input with
  | create inputs => exact nonce_le_bumpNonce ..
  | call inputs =>
    simp only [plainExit, nonce_setBalance]
    exact Nat.le_refl _

/-- It is as documented: frames may destroy native tokens, but not create any. -/
theorem burningRuntime_lawful : burningRuntime.Lawful :=
  { (pricedRuntime_lawful : (pricedRuntime noTokens fun _ => .ok).Lawful) with
    frame_gas := by
      intro ctx input exit h
      cases h
      cases input <;> exact remaining_plainExit_le ..
    frame_nonce := by
      intro ctx input exit h
      cases h
      exact burningFrame_nonce ctx input
    create_nonce := by
      intro ctx inputs exit h _ hlt
      cases h
      exact nonce_lt_bumpNonce hlt
    frame_supply := by
      intro ctx input exit total h hsupply
      cases h
      exact burningFrame_supply ctx input hsupply
    frame_keychain := by
      intro ctx input exit h
      cases h
      refine ⟨[], ?_⟩
      cases input <;> rfl }

theorem burningRuntime_faultless : burningRuntime.Faultless := by
  intro ctx input
  refine ⟨burningFrame ctx input, rfl, ?_⟩
  cases input <;> rfl

/-- A deposit that mints seven and whose body destroys three succeeds, and the
supply grows by four. -/
theorem deposit_body_burns :
    burningRuntime.Lawful ∧ burningRuntime.Faultless ∧ burningRuntime.SpendsValue ∧
    ∃ result committed, SciHandler.run burningRuntime depositContext = .ok (result, committed) ∧
      result.isHalt = false ∧
      committed.journal.supply + 3 = depositContext.journal.supply + sampleDeposit.mint.toNat := by
  have hspends : burningRuntime.SpendsValue :=
    (pricedRuntime_spendsValue : (pricedRuntime noTokens fun _ => .ok).SpendsValue)
  refine ⟨burningRuntime_lawful, burningRuntime_faultless, hspends, ?_⟩
  obtain ⟨result, committed, hrun, hout⟩ := run_deposit burningRuntime_lawful
    burningRuntime_faultless hspends depositContext_tx ⟨rfl, rfl⟩ rfl rfl
  have hhalt : result.isHalt = false := by
    have hsuccess : ((run burningRuntime depositContext).map
        (fun r => r.1.isHalt)) = .ok false := by decide +kernel
    rw [hrun] at hsuccess
    exact Except.ok.inj hsuccess
  refine ⟨result, committed, hrun, hhalt, ?_⟩
  generalize committed.journal = j at hout
  cases hout with
  | failed => cases hhalt
  | ran _ hexit hbalance =>
    cases hexit
    have hset := (depositEntered depositContext sampleDeposit 5).journal.supply_setBalance 5
      (satSub ((depositEntered depositContext sampleDeposit 5).journal.balance 5) 3)
    rw [supply_depositEntered depositContext_supply] at hset
    rw [supply_congr hbalance]
    have hleft : (satSub ((depositEntered depositContext sampleDeposit 5).journal.balance 5)
        3).toNat = 4 := by decide +kernel
    have hheld : ((depositEntered depositContext sampleDeposit 5).journal.balance 5).toNat = 7 := by
      decide +kernel
    rw [hleft, hheld] at hset
    show ((depositEntered depositContext sampleDeposit 5).journal.setBalance 5
      (satSub ((depositEntered depositContext sampleDeposit 5).journal.balance 5) 3)).supply +
        3 = _
    omega

end Sample

end SciChain
