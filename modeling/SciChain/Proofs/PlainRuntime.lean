import SciChain.Proofs.Deduction

namespace SciChain
open Library

/-- Effective price of an EIP-1559 transaction. -/
def plainGasPrice (tx : BaseTransaction) (basefee : U128) : U128 :=
  let price := satAdd basefee (tx.base.gasPriorityFee.getD 0)
  if price.toNat < tx.base.gasPrice.toNat then price else tx.base.gasPrice

/-- The gas is multiplied as a number of 128 bits. -/
def plainMaxSpending (tx : BaseTransaction) : Except InvalidTransaction U256 :=
  let gas := tx.base.gasLimit.toNat * tx.base.gasPrice.toNat
  if gas < 2 ^ 128 ∧ gas + tx.base.value.toNat < 2 ^ 256 then
    .ok (BitVec.ofNat 256 (gas + tx.base.value.toNat))
  else .error .overflowPaymentInTransaction

def plainCallerFee (balance : U256) (tx : BaseTransaction) (block : BlockEnv) (cfg : CfgEnv) :
    Except InvalidTransaction U256 := do
  let most ← plainMaxSpending tx
  reject (cfg.isBalanceCheckDisabled = false ∧ balance.toNat < most.toNat)
    (.lackOfFundForMaxFee most balance)
  let price := plainGasPrice tx (block.basefee.setWidth 128)
  pure (satSub balance (satMul (price.setWidth 256) (tx.base.gasLimit.setWidth 256)))

/-- Gas is left over unless the frame halts. -/
def plainExit (gasLimit : Nat) (journal : Journal Unit) (result : InstructionResult) :
    FrameExit Unit :=
  ⟨⟨result, gasLimit, if result = .halt then 0 else gasLimit, 0⟩, journal, none⟩

/-- A frame that runs no code: a call moves its value, a creation counts up its
caller's nonce, and `verdict` decides how the code would have ended. -/
def plainFrame (verdict : FrameInput → InstructionResult) (ctx : Context Unit)
    (input : FrameInput) : FrameExit Unit :=
  match input with
  | .create inputs =>
    plainExit inputs.gasLimit (ctx.journal.bumpNonce inputs.caller) (verdict input)
  | .call inputs =>
    match ctx.journal.transfer inputs.caller inputs.targetAddress inputs.value with
    | .error _ => plainExit inputs.gasLimit ctx.journal .halt
    | .ok journal =>
      plainExit inputs.gasLimit (if verdict input = .ok then journal else ctx.journal)
        (verdict input)

/-- The libraries of a chain on which no code runs. It is the smallest one that
behaves as documented, and every part of it can be computed. -/
def plainRuntime (abi : TokenAbi) (verdict : FrameInput → InstructionResult) : Runtime Unit where
  tokenAbi := abi
  keychainAbi _ := .error .malformed
  validateEnv _ _ _ := .ok ()
  validateInitialTxGas tx _ :=
    if 21000 ≤ tx.base.gasLimit.toNat then .ok ⟨21000, 21000⟩ else .error (.mainnet 0)
  validateAccountNonceAndCode account tx _ := do
    reject (account.nonce.toNat < tx.base.nonce.toNat) (.nonceTooHigh tx.base.nonce account.nonce)
    reject (tx.base.nonce.toNat < account.nonce.toNat) (.nonceTooLow tx.base.nonce account.nonce)
  maxBalanceSpending := plainMaxSpending
  effectiveBalanceSpending tx basefee _ :=
    satAdd (satMul ((plainGasPrice tx basefee).setWidth 256) (tx.base.gasLimit.setWidth 256))
      tx.base.value
  effectiveGasPrice := plainGasPrice
  calculateCallerFee := plainCallerFee
  applyEip7702AuthList ctx := .ok (0, ctx.journal)
  runExecLoop ctx input := .ok (plainFrame verdict ctx input)
  reimburseCaller ctx gas extra :=
    let price := plainGasPrice ctx.tx (ctx.block.basefee.setWidth 128)
    let unused : U256 := BitVec.ofNat 256 (price.toNat * (gas.remaining + gas.refundedU64))
    ctx.journal.incrBalance ctx.tx.base.caller (satAdd unused extra)
  rewardBeneficiary ctx gas :=
    let price := plainGasPrice ctx.tx (ctx.block.basefee.setWidth 128)
    let tip := satSub price (ctx.block.basefee.setWidth 128)
    ctx.journal.incrBalance ctx.block.beneficiary (BitVec.ofNat 256 (tip.toNat * gas.used))

section Lawful

variable {abi : TokenAbi} {verdict : FrameInput → InstructionResult}

theorem plainGasPrice_le (tx : BaseTransaction) (basefee : U128) :
    (plainGasPrice tx basefee).toNat ≤ tx.base.gasPrice.toNat := by
  unfold plainGasPrice
  dsimp only
  split
  · rename_i h
    exact Nat.le_of_lt h
  · exact Nat.le_refl _

theorem plainGasPrice_mul_le (tx : BaseTransaction) (basefee : U128) :
    (plainGasPrice tx basefee).toNat * tx.base.gasLimit.toNat ≤
      tx.base.gasLimit.toNat * tx.base.gasPrice.toNat := by
  rw [Nat.mul_comm]
  exact Nat.mul_le_mul_left _ (plainGasPrice_le tx basefee)

theorem plainMaxSpending_ok (h : plainMaxSpending tx = .ok most) :
    most.toNat = tx.base.gasLimit.toNat * tx.base.gasPrice.toNat + tx.base.value.toNat := by
  unfold plainMaxSpending at h
  dsimp only at h
  split at h
  · rename_i hlt
    cases h
    rw [BitVec.toNat_ofNat, Nat.mod_eq_of_lt hlt.2]
  · cases h

theorem plainCallerFee_ok (h : plainCallerFee balance tx block cfg = .ok left) :
    ∃ most, plainMaxSpending tx = .ok most ∧
      (cfg.isBalanceCheckDisabled = false → most.toNat ≤ balance.toNat) ∧
      left.toNat = balance.toNat -
        (plainGasPrice tx (block.basefee.setWidth 128)).toNat * tx.base.gasLimit.toNat := by
  simp only [plainCallerFee, bind_ok, reject_ok, pure_eq, Except.ok.injEq, not_and,
    Nat.not_lt] at h
  obtain ⟨most, hmost, _, hfunds, rfl⟩ := h
  refine ⟨most, hmost, hfunds, ?_⟩
  rw [toNat_satSub, toNat_satMul_setWidth _ _ (by decide)]

theorem remaining_plainExit_le (gasLimit : Nat) (journal : Journal Unit)
    (result : InstructionResult) :
    (plainExit gasLimit journal result).frame.gas.remaining ≤ gasLimit := by
  simp only [plainExit]
  split <;> omega

/-- A call leaves the journal as it is, or moves its value. -/
theorem plainFrame_call_cases (ctx : Context Unit) (inputs : CallInputs) :
    (plainFrame verdict ctx (.call inputs)).journal = ctx.journal ∨
      (inputs.caller ≠ inputs.targetAddress ∧ Journal.Moved inputs.caller inputs.targetAddress
        inputs.value.toNat ctx.journal (plainFrame verdict ctx (.call inputs)).journal) := by
  unfold plainFrame
  dsimp only
  split
  · exact .inl rfl
  · rename_i journal hmove
    simp only [plainExit]
    split
    · by_cases hself : inputs.caller = inputs.targetAddress
      · simp only [Journal.transfer, if_pos hself, reject_bind_ok, pure_eq,
          Except.ok.injEq] at hmove
        exact .inl hmove.2.symm
      · exact .inr ⟨hself, Journal.transfer_ok hself hmove⟩
    · exact .inl rfl

theorem plainFrame_journal (ctx : Context Unit) (input : FrameInput) :
    (plainFrame verdict ctx input).journal.keychain = ctx.journal.keychain ∧
      ∀ a, (ctx.journal.nonce a).toNat ≤
        ((plainFrame verdict ctx input).journal.nonce a).toNat := by
  cases input with
  | create inputs => exact ⟨rfl, fun a => Journal.nonce_le_bumpNonce ..⟩
  | call inputs =>
    rcases plainFrame_call_cases ctx inputs with hkept | ⟨_, hmoved⟩
    · rw [hkept]
      exact ⟨rfl, fun _ => Nat.le_refl _⟩
    · have hsame := hmoved.same
      exact ⟨hsame.keychain, fun a => Nat.le_of_eq (congrArg BitVec.toNat (hsame.nonce a).symm)⟩

theorem plainFrame_supply (ctx : Context Unit) (input : FrameInput)
    (h : ctx.journal.SupplyAtMost total) :
    (plainFrame verdict ctx input).journal.SupplyAtMost total := by
  cases input with
  | create inputs =>
    unfold plainFrame Journal.SupplyAtMost plainExit
    simp only [Journal.balance_bumpNonce]
    exact h
  | call inputs =>
    rcases plainFrame_call_cases ctx inputs with hkept | ⟨hne, hmoved⟩
    · rwa [hkept]
    · exact hmoved.supplyAtMost hne h

theorem plainFrame_gas (ctx : Context Unit) (input : FrameInput) :
    (plainFrame verdict ctx input).frame.gas.remaining ≤ input.gasLimit := by
  unfold plainFrame
  cases input with
  | create inputs => exact remaining_plainExit_le ..
  | call inputs =>
    dsimp only
    split <;> exact remaining_plainExit_le ..

theorem plainRuntime_lawful : (plainRuntime abi verdict).Lawful where
  maxBalanceSpending_eq := plainMaxSpending_ok
  effectiveGasPrice_le := plainGasPrice_le
  initialGas_le := by
    intro tx cfg gas h
    simp only [plainRuntime] at h
    split at h
    · cases h
      exact ⟨by assumption, by assumption⟩
    · cases h
  callerFee_ok := by
    intro tx most balance block cfg hmost hle
    simp only [plainRuntime, plainCallerFee] at hmost ⊢
    rw [hmost, bind_value, reject_neg (fun h => absurd h.2 (Nat.not_lt.mpr hle)), bind_value]
    exact ⟨_, rfl⟩
  callerFee_le := by
    intro tx balance block cfg left h
    obtain ⟨_, _, _, hleft⟩ := plainCallerFee_ok h
    omega
  callerFee_ge := by
    intro tx most balance block cfg left hmost h
    obtain ⟨_, _, _, hleft⟩ := plainCallerFee_ok h
    have hmax := plainMaxSpending_ok hmost
    have hprice := plainGasPrice_mul_le tx (block.basefee.setWidth 128)
    omega
  callerFee_exact := by
    intro tx balance block cfg left hcharges h
    obtain ⟨most, hmost, hfunds, hleft⟩ := plainCallerFee_ok h
    have hmax := plainMaxSpending_ok hmost
    have hle := hfunds hcharges.2
    have hprice := plainGasPrice_mul_le tx (block.basefee.setWidth 128)
    simp only [plainRuntime]
    omega
  authList_empty := fun _ => rfl
  frame_gas := by
    intro ctx input exit h
    cases h
    exact plainFrame_gas ctx input
  frame_nonce := by
    intro ctx input exit h
    cases h
    exact (plainFrame_journal ctx input).2
  create_nonce := by
    intro ctx inputs exit h _ hlt
    cases h
    exact Journal.nonce_lt_bumpNonce hlt
  frame_supply := by
    intro ctx input exit total h hsupply
    cases h
    exact plainFrame_supply ctx input hsupply
  frame_keychain := by
    intro ctx input exit h
    cases h
    exact ⟨[], (plainFrame_journal ctx input).1⟩
  reimburse_eq := by
    intro ctx gas extra
    refine ⟨_, ?_, rfl⟩
    rw [toNat_satAdd]
    omega
  reimburse_exact := by
    intro ctx gas extra refund _ hrefund hsmall hfits
    have hunused : (BitVec.ofNat 256 refund).toNat = refund := by
      rw [BitVec.toNat_ofNat, Nat.mod_eq_of_lt (by omega)]
    simp only [plainRuntime] at hrefund ⊢
    rw [← hrefund, Journal.incrBalance, Journal.balance_setBalance, if_pos rfl, toNat_satAdd,
      toNat_satAdd, hunused]
    omega
  reward_eq := fun _ _ => ⟨_, rfl⟩

/-- The plain runtime with the prices of a chain: data is paid for, and offers
below the base fee are refused. -/
def pricedRuntime (abi : TokenAbi) (verdict : FrameInput → InstructionResult) : Runtime Unit :=
  { plainRuntime abi verdict with
    validateEnv := fun block tx _ =>
      reject ((plainGasPrice tx (block.basefee.setWidth 128)).toNat < block.basefee.toNat)
        (.invalid (.mainnet 1))
    validateInitialTxGas := fun tx _ =>
      let gas := initialTxGas tx.base
      if gas.initialGas ≤ tx.base.gasLimit.toNat ∧ gas.floorGas ≤ tx.base.gasLimit.toNat then
        .ok gas
      else .error (.mainnet 0) }

theorem pricedRuntime_initialGas
    (h : (pricedRuntime abi verdict).validateInitialTxGas tx cfg = .ok gas) :
    gas = initialTxGas tx.base ∧ gas.initialGas ≤ tx.base.gasLimit.toNat ∧
      gas.floorGas ≤ tx.base.gasLimit.toNat := by
  simp only [pricedRuntime] at h
  split at h
  · rename_i hle
    cases h
    exact ⟨rfl, hle⟩
  · cases h

theorem pricedRuntime_lawful : (pricedRuntime abi verdict).Lawful :=
  { (plainRuntime_lawful : (plainRuntime abi verdict).Lawful) with
    initialGas_le := fun h => (pricedRuntime_initialGas h).2 }

theorem pricedRuntime_chargesData : (pricedRuntime abi verdict).ChargesData :=
  fun _ _ _ _ h => (pricedRuntime_initialGas h).1

theorem pricedRuntime_exactFees : (pricedRuntime abi verdict).ExactFees where
  basefee_le := by
    intro block tx cfg _ h
    exact Nat.le_of_not_lt ((reject_ok ..).mp h)
  reimburse_charged := by
    intro ctx gas extra refund funds left _ _ _ hrefund hfits
    have hunused : (BitVec.ofNat 256 refund).toNat = refund := by
      rw [BitVec.toNat_ofNat, Nat.mod_eq_of_lt (by omega)]
    simp only [pricedRuntime, plainRuntime] at hrefund ⊢
    rw [← hrefund, Journal.incrBalance, Journal.balance_setBalance, if_pos rfl, toNat_satAdd,
      toNat_satAdd, hunused]
    omega
  reward_charged := by
    intro ctx gas tip funds left _ _ _ htip hfits
    have hwidth : (ctx.block.basefee.setWidth 128 : U128).toNat = ctx.block.basefee.toNat :=
      BitVec.toNat_setWidth_of_le (by decide)
    have hearned : (BitVec.ofNat 256 tip).toNat = tip := by
      rw [BitVec.toNat_ofNat, Nat.mod_eq_of_lt (by omega)]
    simp only [pricedRuntime, plainRuntime] at htip ⊢
    rw [toNat_satSub, hwidth, ← htip, Journal.incrBalance, Journal.balance_setBalance, if_pos rfl,
      toNat_satAdd, hearned]
    omega

end Lawful

section SmallChain

/-- A session key 2 of root 1, with a native limit and no call scopes. -/
def agentKeySteps : List KeychainStep :=
  [⟨1000, .setTxOrigin 1⟩,
   ⟨1000, .authorizeKey 1 2 .Secp256k1
      { expiry := 100000, enforceLimits := true, limits := [⟨0, 1000000, 0⟩],
        allowAnyCalls := true, allowedCalls := [] } none⟩]

/-- L1 fee words: a base fee of a million at scalar 1000, and an operator fee of 7. -/
def smallL1Words : L1BlockInfo.Slots
  | 1 => 1000000
  | 3 => BitVec.ofNat 256 (1000 * 2 ^ 96)
  | 8 => 7
  | _ => 0

/-- A chain on which only account 1 holds funds, about to run an AA transaction. -/
def smallContext (aa : BaseAaTransaction) (signer : Address) : Context Unit where
  block := ⟨1, 2000, 99, 1, none⟩
  tx := .fromAa aa signer []
  cfg := ⟨.Azul, false, false⟩
  journal :=
    { accounts := fun a => ⟨if a = 1 then 1000000000 else 0, 0, 0, none⟩
      keychain := run KeychainStep.apply .empty agentKeySteps
      agentState := .empty
      world := () }
  chain := .empty
  db := smallL1Words
  error := none

theorem smallContext_supply (aa : BaseAaTransaction) (signer : Address) :
    (smallContext aa signer).journal.SupplyAtMost (2 ^ 256 - 1) := by
  refine holdsAtMost_of_single (a := 1) (Nat.le_pred_of_lt (BitVec.isLt _)) (fun a ha => ?_)
  simp only [Journal.balance, smallContext, if_neg ha]
  rfl

/-- A transfer of 5 by the session key, its gas paid by the root. -/
def agentTransfer : BaseAaTransaction where
  chainId := 1
  nonce := 0
  maxPriorityFeePerGas := 0
  maxFeePerGas := 2
  gasLimit := 30000
  calls := [⟨.call 7, 5, []⟩]
  accessList := []
  feePayer := some 1
  root := some 1

/-- No calldata is that of a token. -/
def noTokens : TokenAbi := ⟨fun _ => none, fun _ => none, fun _ => none, fun _ => none⟩

end SmallChain

end SciChain
