import SciChain.Evm.BaseHandler

namespace SciChain
open Library

variable {World : Type}

/-- The context of the keychain hook and of the precompiles. -/
def Context.storageCtx (ctx : Context World) : StorageCtx := launchCtx ctx.block.timestamp

def Context.withKeychain (ctx : Context World) (keychain : AccountKeychain) : Context World :=
  { ctx with journal := { ctx.journal with keychain } }

/-- The gas metered against the key of an agent: none unless its root pays. -/
def BaseTransaction.meteredGas (tx : BaseTransaction) (root : Address) (gas : U64) : U256 :=
  SciChain.meteredGas (tx.feePayer = some root) gas tx.base.gasPrice

namespace SciHandler

def validateEnv (rt : Runtime World) (ctx : Context World) : Except EVMError Unit :=
  BaseHandler.validateEnv rt ctx

/-- The most the inner deduction can take: gas at the fee cap, L1 and operator cost. -/
def prefund (rt : Runtime World) (ctx : Context World) : Except EVMError (U256 × L1BlockInfo) := do
  let maxGas ← (rt.maxBalanceSpending ctx.tx).mapError fun e => .custom (.maxGasOverflow e)
  let (additionalCost, chain) := ctx.chain.txCostWithTx ctx.tx ctx.cfg.spec
  pure (satAdd maxGas (additionalCost.getD 0), chain)

/-- Brings the signer back to an earlier balance, at the payer's expense or to
its benefit. -/
def reconcile (journal : Journal World) (signer payer : Address) (before : U256) :
    Except EVMError (Journal World) :=
  let after := journal.balance signer
  let (source, target, amount) :=
    if before.toNat ≤ after.toNat then (signer, payer, after - before)
    else (payer, signer, before - after)
  if amount = 0 then .ok journal
  else (journal.transfer source target amount).mapError fun e =>
    .custom (.feePayerGasReconcileFailed e)

/-- Moves to the signer, from `payer`, what the inner deduction may require. -/
def prefundSigner (rt : Runtime World) (ctx : Context World) (payer : Address) :
    Except EVMError (Context World) := do
  let ctx := ctx.fetchL1Block
  let (amount, chain) ← prefund rt ctx
  let journal ← (ctx.journal.transfer payer ctx.tx.base.caller amount).mapError fun e =>
    .custom (.feePayerCannotCoverGas payer e)
  pure { ctx with chain, journal }

/-- The inner deduction at the expense of `payer`. -/
def deductSponsored (rt : Runtime World) (ctx : Context World) (payer : Address) :
    Except EVMError (Context World) := do
  let signer := ctx.tx.base.caller
  let prefunded ← prefundSigner rt ctx payer
  let deducted ← BaseHandler.validateAgainstStateAndDeductCaller rt prefunded
  let journal ← reconcile deducted.journal signer payer (ctx.journal.balance signer)
  pure { deducted with journal }

/-- The keychain's part of the validation: agents pass the hook, for all others
the origin is seeded. -/
def authorize (rt : Runtime World) (ctx : Context World) : Except EVMError (Context World) :=
  let signer := ctx.tx.base.caller
  let seeded := ctx.withKeychain (ctx.journal.keychain.setKeychainTxOrigin signer)
  if ctx.isDeposit then .ok seeded else
  match ctx.tx.root, ctx.tx.aa with
  | some root, some parts =>
    match ctx.journal.keychain.runAaKeychainHook rt.tokenAbi ctx.storageCtx ctx.journal.agentState
        root signer parts.calls (ctx.tx.meteredGas root ctx.tx.base.gasLimit) with
    | .error fault => .error (.custom (.hook fault))
    | .ok (.reject message, _) => .error (.invalid (.str message))
    | .ok (.pass, keychain) => .ok (ctx.withKeychain keychain)
  | _, _ => .ok seeded

def deductCaller (rt : Runtime World) (ctx : Context World) : Except EVMError (Context World) :=
  match ctx.tx.sponsor with
  | some payer => deductSponsored rt ctx payer
  | none => BaseHandler.validateAgainstStateAndDeductCaller rt ctx

def validateAgainstStateAndDeductCaller (rt : Runtime World) (ctx : Context World) :
    Except EVMError (Context World) := do
  reject (ctx.tx.feePayer.isSome ∧ ctx.tx.feePayer ≠ ctx.tx.root)
    (.invalid (.str .feePayerMustEqualRoot))
  let ctx ← deductCaller rt ctx
  authorize rt ctx

/-- `i64::saturating_add`. -/
def satAddI64 (a b : Int) : Int := max (-(2 ^ 63)) (min (a + b) (2 ^ 63 - 1))

/-- The whole limit is spent, then what is left given back. -/
def finalizeBatchGas (frame : FrameResult) (gasLimit remaining : Nat) (refund : Int) :
    FrameResult :=
  let gas := (Gas.newSpent gasLimit).eraseCost remaining
  { frame with gas := if 0 < refund then gas.recordRefund refund else gas }

/-- Where the loop over the calls of a batch stands. -/
structure BatchState (World : Type) where
  ctx : Context World
  remaining : Nat
  refund : Int
  last : Option FrameResult

/-- The frame of the next call, with all the gas that is left. -/
def BatchState.input (s : BatchState World) (caller : Address) (call : AaCall) : FrameInput :=
  s.ctx.journal.frameInput caller call.kind call.value call.input s.remaining

/-- The state after a frame that succeeded. -/
def BatchState.next (s : BatchState World) (exit : FrameExit World) : BatchState World where
  ctx := { s.ctx with journal := exit.journal, error := exit.error }
  remaining := exit.frame.gas.remaining
  refund := satAddI64 s.refund exit.frame.gas.refunded
  last := some exit.frame

/-- The loop over the calls, stopped by the first one that fails. -/
def runCalls (rt : Runtime World) (caller : Address) :
    BatchState World → List AaCall →
      Except EVMError (BatchState World ⊕ FrameResult × Context World)
  | s, [] => .ok (.inl s)
  | s, call :: rest => do
    let exit ← rt.runExecLoop s.ctx (s.input caller call)
    match exit.frame.result with
    | .ok => runCalls rt caller (s.next exit) rest
    | _ => pure (.inr (exit.frame, (s.next exit).ctx))

/-- Runs the calls of a batch as `root`, or as the signer without one. The
journal goes back to the outer checkpoint when a call fails. -/
def executeAaBatch (rt : Runtime World) (ctx : Context World) (initial : InitialAndFloorGas)
    (aa : AaTransactionParts) : Except EVMError (FrameResult × Context World) := do
  let gasLimit := ctx.tx.base.gasLimit.toNat
  let caller := aa.root.getD ctx.tx.base.caller
  match ← runCalls rt caller ⟨ctx, gasLimit - initial.initialGas, 0, none⟩ aa.calls with
  | .inr (frame, failed) =>
    let remaining := if frame.result = .revert then frame.gas.remaining else 0
    pure (finalizeBatchGas frame gasLimit remaining 0, { failed with journal := ctx.journal })
  | .inl s =>
    -- The batch is not empty, so there is a last result.
    let frame := s.last.getD ⟨.ok, Gas.newSpent gasLimit⟩
    pure (finalizeBatchGas frame gasLimit s.remaining s.refund, s.ctx)

def execution (rt : Runtime World) (ctx : Context World) (initial : InitialAndFloorGas) :
    Except EVMError (FrameResult × Context World) :=
  match ctx.tx.aa.filter fun aa => aa.calls ≠ [] with
  | some aa => executeAaBatch rt ctx initial aa
  | none => BaseHandler.execution rt ctx initial

/-- The refund of the inner handler, passed on to the sponsor. -/
def reimburseCaller (rt : Runtime World) (ctx : Context World) (gas : Gas) :
    Except EVMError (Context World) :=
  match ctx.tx.sponsor with
  | none => .ok (BaseHandler.reimburseCaller rt ctx gas)
  | some payer =>
    let signer := ctx.tx.base.caller
    let before := ctx.journal.balance signer
    let ctx := BaseHandler.reimburseCaller rt ctx gas
    let refund := satSub (ctx.journal.balance signer) before
    if refund = 0 then .ok ctx else
    match ctx.journal.transfer signer payer refund with
    | .error e => .error (.custom (.feePayerRefundFailed e))
    | .ok journal => .ok { ctx with journal }

/-- The deferred deductions of an agent's transaction: the batch only if it was
carried out, the gas in any case. -/
def settle (rt : Runtime World) (ctx : Context World) (frame : FrameResult) :
    Except EVMError (Context World) :=
  match ctx.tx.root with
  | none => .ok ctx
  | some root =>
    let bodyOk := frame.result = .ok
    let gasDeduction := ctx.tx.meteredGas root (BitVec.ofNat 64 frame.gas.used)
    let calls := if bodyOk then (ctx.tx.aa.map (·.calls)).getD [] else []
    if bodyOk ∨ gasDeduction ≠ 0 then
      match ctx.journal.keychain.applyAaPostExecutionDeductions rt.tokenAbi ctx.storageCtx root
          ctx.tx.base.caller calls gasDeduction with
      | .error fault => .error (.custom (.hook fault))
      | .ok keychain => .ok (ctx.withKeychain keychain)
    else .ok ctx

def executionResult (rt : Runtime World) (ctx : Context World) (frame : FrameResult) :
    Except EVMError (ExecutionResult × Context World) := do
  let ctx ← settle rt ctx frame
  BaseHandler.executionResult ctx frame

/-- The gas of the transaction as it is paid for: the refund capped, the
calldata floor applied. -/
def finalFrame (ctx : Context World) (initial : InitialAndFloorGas) (eip7702Refund : Int)
    (frame : FrameResult) : FrameResult :=
  let frame := BaseHandler.refund ctx frame eip7702Refund
  { frame with gas := frame.gas.checkGasFloor initial.floorGas }

/-- The phases of a transaction, in the order the EVM runs a handler's. -/
def runWithoutCatchError (rt : Runtime World) (ctx : Context World) :
    Except EVMError (ExecutionResult × Context World) := do
  validateEnv rt ctx
  let initial ← (rt.validateInitialTxGas ctx.tx ctx.cfg).mapError .invalid
  let deducted ← validateAgainstStateAndDeductCaller rt ctx
  let (eip7702Refund, journal) ← rt.applyEip7702AuthList deducted
  let (frame, executed) ← execution rt { deducted with journal } initial
  let frame := finalFrame executed initial eip7702Refund frame
  let reimbursed ← reimburseCaller rt executed frame.gas
  let rewarded ← BaseHandler.rewardBeneficiary rt reimbursed frame.gas
  executionResult rt rewarded frame

def run (rt : Runtime World) (ctx : Context World) :
    Except EVMError (ExecutionResult × Context World) :=
  match runWithoutCatchError rt ctx with
  | .ok committed => .ok committed
  | .error e => BaseHandler.catchError ctx e

end SciHandler
end SciChain
