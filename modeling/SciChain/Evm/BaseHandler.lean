import SciChain.Evm.Runtime

namespace SciChain
open Library

variable {World : Type}

def l1FeeVault : Address := 0x420000000000000000000000000000000000001a
def baseFeeVault : Address := 0x4200000000000000000000000000000000000019
def operatorFeeVault : Address := 0x420000000000000000000000000000000000001b

/-- Outcome of a committed transaction. -/
inductive ExecutionResult where
  | success (gasUsed gasRefunded : Nat)
  | revert (gasUsed : Nat)
  | halt (gasUsed : Nat)
  /-- A deposit that failed but is included all the same. -/
  | failedDeposit (gasUsed : Nat)
  deriving DecidableEq, Repr

def ExecutionResult.isHalt : ExecutionResult → Bool
  | .halt _ | .failedDeposit _ => true
  | _ => false

namespace Context

def isDeposit (ctx : Context World) : Bool := ctx.tx.txType = depositTransactionType

def isRegolith (ctx : Context World) : Bool := ctx.cfg.spec.isEnabledIn .Regolith

/-- Loads the L1 information unless it is that of the current block. -/
def fetchL1Block (ctx : Context World) : Context World :=
  if ctx.chain.l2Block ≠ some ctx.block.number then
    { ctx with chain := L1BlockInfo.tryFetch ctx.db ctx.block.number ctx.cfg.spec }
  else ctx

end Context

namespace BaseHandler

def validateEnv (rt : Runtime World) (ctx : Context World) : Except EVMError Unit := do
  if ctx.isDeposit then
    reject (ctx.tx.deposit.isSystemTransaction ∧ ctx.isRegolith)
      (.transaction .depositSystemTxPostRegolith)
  else
    reject (ctx.tx.envelopedTx.isNone) (.transaction .missingEnvelopedTx)
    rt.validateEnv ctx.block ctx.tx ctx.cfg

/-- Deposits are not checked: the mint is added, the effective spending taken. -/
def deductDeposit (rt : Runtime World) (ctx : Context World) : Context World :=
  let tx := ctx.tx
  let effectiveBalanceSpending :=
    rt.effectiveBalanceSpending tx (ctx.block.basefee.setWidth 128) (ctx.block.blobGasprice.getD 0)
      - tx.base.value
  let mint : U256 := (tx.deposit.mint.getD 0).setWidth 256
  let newBalance :=
    satSub (satAdd (ctx.journal.balance tx.base.caller) mint) effectiveBalanceSpending
  let newBalance :=
    if ctx.cfg.isBalanceCheckDisabled ∧ newBalance.toNat < tx.base.value.toNat then tx.base.value
    else newBalance
  let journal := ctx.journal.setBalance tx.base.caller newBalance
  { ctx with
    journal := if tx.base.kind.isCall then journal.bumpNonce tx.base.caller else journal }

/-- Takes the L1 and operator cost from a balance. -/
def chargeAdditionalCost (ctx : Context World) (balance : U256) :
    Except EVMError (U256 × L1BlockInfo) :=
  if ctx.cfg.isFeeChargeDisabled then .ok (balance, ctx.chain) else
  match ctx.chain.txCostWithTx ctx.tx ctx.cfg.spec with
  | (none, _) => .error (.custom .failedToLoadEnvelopedTransaction)
  | (some additionalCost, chain) =>
    match checkedSub balance additionalCost with
    | none => .error (.invalid (.lackOfFundForMaxFee additionalCost balance))
    | some newBalance => .ok (newBalance, chain)

def validateAgainstStateAndDeductCaller (rt : Runtime World) (ctx : Context World) :
    Except EVMError (Context World) :=
  if ctx.isDeposit then .ok (deductDeposit rt ctx) else do
  let ctx := ctx.fetchL1Block
  let caller := ctx.tx.base.caller
  (rt.validateAccountNonceAndCode (ctx.journal.accounts caller) ctx.tx ctx.cfg).mapError .invalid
  let (balance, chain) ← chargeAdditionalCost ctx (ctx.journal.balance caller)
  let balance ← (rt.calculateCallerFee balance ctx.tx ctx.block ctx.cfg).mapError .invalid
  let journal := ctx.journal.setBalance caller balance
  pure { ctx with
    chain
    journal := if ctx.tx.base.kind.isCall then journal.bumpNonce caller else journal }

/-- Spends the whole gas limit and gives back what the frame left. -/
def lastFrameResult (ctx : Context World) (frame : FrameResult) : FrameResult :=
  let gas := Gas.newSpent ctx.tx.base.gasLimit.toNat
  let counts := ¬ctx.isDeposit ∨ ctx.isRegolith
  match frame.result with
  | .ok =>
    if counts then
      { frame with gas := (gas.eraseCost frame.gas.remaining).recordRefund frame.gas.refunded }
    else if ctx.tx.deposit.isSystemTransaction then
      { frame with gas := gas.eraseCost ctx.tx.base.gasLimit.toNat }
    else { frame with gas }
  | .revert =>
    if counts then { frame with gas := gas.eraseCost frame.gas.remaining } else { frame with gas }
  | .halt => { frame with gas }

/-- The single call of an ordinary transaction. -/
def execution (rt : Runtime World) (ctx : Context World) (initial : InitialAndFloorGas) :
    Except EVMError (FrameResult × Context World) := do
  let tx := ctx.tx.base
  let input := ctx.journal.frameInput tx.caller tx.kind tx.value tx.data
    (tx.gasLimit.toNat - initial.initialGas)
  let exit ← rt.runExecLoop ctx input
  pure (lastFrameResult ctx exit.frame, { ctx with journal := exit.journal, error := exit.error })

def refund (ctx : Context World) (frame : FrameResult) (eip7702Refund : Int) : FrameResult :=
  let gas := frame.gas.recordRefund eip7702Refund
  { frame with gas := if ctx.isDeposit ∧ ¬ctx.isRegolith then gas else gas.setFinalRefund }

def reimburseCaller (rt : Runtime World) (ctx : Context World) (gas : Gas) : Context World :=
  let additionalRefund :=
    if ¬ctx.isDeposit ∧ ¬ctx.cfg.isFeeChargeDisabled then
      ctx.chain.operatorFeeRefund gas ctx.cfg.spec
    else 0
  { ctx with journal := rt.reimburseCaller ctx gas additionalRefund }

/-- Pays the beneficiary and the three fee vaults. -/
def rewardBeneficiary (rt : Runtime World) (ctx : Context World) (gas : Gas) :
    Except EVMError (Context World) :=
  if ctx.isDeposit then .ok ctx else
  let journal := rt.rewardBeneficiary ctx gas
  match ctx.tx.envelopedTx with
  | none => .error (.custom .failedToLoadEnvelopedTransaction)
  | some envelopedTx =>
    let (l1Cost, chain) := ctx.chain.calculateTxL1Cost envelopedTx ctx.cfg.spec
    let operatorFeeCost :=
      if ctx.cfg.spec.isEnabledIn .Isthmus then
        chain.operatorFeeCharge envelopedTx (BitVec.ofNat 256 gas.used) ctx.cfg.spec
      else 0
    let baseFeeAmount : U128 := satMul (ctx.block.basefee.setWidth 128) (BitVec.ofNat 128 gas.used)
    .ok { ctx with
      chain
      journal := ((journal.incrBalance l1FeeVault l1Cost).incrBalance baseFeeVault
        (baseFeeAmount.setWidth 256)).incrBalance operatorFeeVault operatorFeeCost }

def output (frame : FrameResult) : ExecutionResult :=
  match frame.result with
  | .ok => .success frame.gas.used frame.gas.refundedU64
  | .revert => .revert frame.gas.used
  | .halt => .halt frame.gas.used

def executionResult (ctx : Context World) (frame : FrameResult) :
    Except EVMError (ExecutionResult × Context World) :=
  match ctx.error with
  | some e => .error (.custom e)
  | none => do
    let result := output frame
    reject (result.isHalt ∧ ctx.isDeposit ∧ ctx.isRegolith)
      (.transaction .haltedDepositPostRegolith)
    pure (result, { ctx with journal := ctx.journal.commitTx, chain := ctx.chain.clearTxL1Cost })

/-- A failing deposit is included with its mint and nonce only; any other
failing transaction leaves no trace. `start` is the context before it. -/
def catchError (start : Context World) (e : EVMError) :
    Except EVMError (ExecutionResult × Context World) :=
  if e.isTxError ∧ start.isDeposit then
    let caller := start.tx.base.caller
    let mint : U256 := (start.tx.deposit.mint.getD 0).setWidth 256
    let journal := ((start.journal.bumpNonce caller).incrBalance caller mint).commitTx
    let gasUsed :=
      if start.isRegolith ∨ ¬start.tx.deposit.isSystemTransaction then
        start.tx.base.gasLimit.toNat
      else 0
    .ok (.failedDeposit gasUsed, { start with journal, chain := start.chain.clearTxL1Cost })
  else .error e

end BaseHandler
end SciChain
