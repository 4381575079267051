import SciChain.Keychain.Runs
import SciChain.Library.Tally

namespace SciChain
open Library

/-- Storage of the circuit breaker precompile. -/
structure SciAgentState where
  tripped : Address → Bool

def SciAgentState.empty : SciAgentState := ⟨fun _ => false⟩

/-- One call of an AA batch; `kind` is its `to` field. -/
structure AaCall where
  kind : TxKind
  value : U256
  input : Bytes
  deriving DecidableEq, Repr

/-- The generated decoders of the token interface: the amount of each call, and
for `transferFrom` its source, or nothing for calldata they refuse. -/
structure TokenAbi where
  transfer : Bytes → Option U256
  approve : Bytes → Option U256
  transferFrom : Bytes → Option (Address × U256)
  transferWithMemo : Bytes → Option U256

/-- The token and amount a call is metered with, for the calls recognized as
moving tokens of `root`. -/
def classifyTokenCall (abi : TokenAbi) (root target : Address) (data : Bytes) :
    Option (Address × U256) :=
  if data.length < 4 then none else
  let selector := selectorOf data
  if selector = transferSelector then (abi.transfer data).map (target, ·)
  else if selector = approveSelector then (abi.approve data).map (target, ·)
  else if selector = transferFromSelector then
    (abi.transferFrom data).bind fun call => if call.1 = root then some (target, call.2) else none
  else if selector = transferWithMemoSelector then (abi.transferWithMemo data).map (target, ·)
  else none

def AaCall.tokenSpend (abi : TokenAbi) (root : Address) (call : AaCall) : Option (Address × U256) :=
  match call.kind with
  | .create => none
  | .call target => classifyTokenCall abi root target call.input

/-- Rejections, formatted into the text of an `InvalidTransaction`. -/
inductive RejectMessage where
  /-- "AA tx unauthorized: session key .. has no active keychain key for root .." -/
  | aaTxUnauthorized (sessionKey root : Address)
  /-- "SCI AA keychain hook rejected tx: .." -/
  | hookRejectedTx (e : TempoPrecompileError)
  /-- "AA fee_payer must equal root (sponsored gas is authorized via the keychain on the
  root account)" -/
  | feePayerMustEqualRoot
  deriving DecidableEq, Repr

/-- Faults of the keychain hooks, formatted into a custom error. -/
inductive HookFault where
  /-- "keychain probe failed: .." -/
  | keychainProbeFailed (e : TempoPrecompileError)
  /-- "SCI AA keychain hook system error: .." -/
  | hookSystemError (e : TempoPrecompileError)
  /-- "apply AA deductions failed: .." -/
  | applyDeductionsFailed (e : TempoPrecompileError)
  deriving DecidableEq, Repr

inductive HookOutcome where
  | pass
  | reject (message : RejectMessage)
  deriving DecidableEq, Repr

/-- The gas metered against the key at the transaction's fee cap, zero unless
`root` pays for the gas. -/
def meteredGas (rootPays : Bool) (gas : U64) (maxFeePerGas : U128) : U256 :=
  if rootPays then satMul (gas.setWidth 256) (maxFeePerGas.setWidth 256) else 0

namespace AccountKeychain

/-- `set_keychain_tx_origin`, for a transaction that is not an agent's. -/
def setKeychainTxOrigin (kc : AccountKeychain) (caller : Address) : AccountKeychain :=
  (kc.setTxOrigin caller).setTransactionKey 0

/-- One turn of the call loop of the hook: the scope check, then the native
value and the recognized token amount go to their totals. -/
def hookCall (abi : TokenAbi) (ctx : StorageCtx) (kc : AccountKeychain)
    (root sessionKey : Address) (totals : List (Address × U256)) (call : AaCall) :
    Result (List (Address × U256)) := do
  kc.validateCallScopeForTransaction ctx root sessionKey call.kind call.input
  let totals := if call.value = 0 then totals else record totals 0 call.value
  match call.tokenSpend abi root with
  | none => pure totals
  | some spend => pure (record totals spend.1 spend.2)

/-- The part of the hook that runs under a journal checkpoint. -/
def hookChecks (abi : TokenAbi) (ctx : StorageCtx) (agents : SciAgentState)
    (kc : AccountKeychain) (root sessionKey : Address) (calls : List AaCall)
    (gasReservation : U256) : Result AccountKeychain := do
  reject (agents.tripped sessionKey) (.sciAgentState (.keyTripped sessionKey))
  let kc := (kc.setTransactionKey sessionKey).setTxOrigin sessionKey
  let totals ← calls.foldlM (kc.hookCall abi ctx root sessionKey) []
  let totals := if gasReservation = 0 then totals else record totals 0 gasReservation
  reject ((kc.keys root sessionKey).enforceLimits ∧ totals.any fun entry =>
      (kc.effectiveRemainingLimit ctx root sessionKey entry.1 ctx.now).toNat < entry.2.toNat)
    (.accountKeychain .spendingLimitExceeded)
  pure kc

/-- `run_aa_keychain_hook`: the authorization gate of an agent transaction. -/
def runAaKeychainHook (abi : TokenAbi) (ctx : StorageCtx) (agents : SciAgentState)
    (kc : AccountKeychain) (root sessionKey : Address) (calls : List AaCall)
    (gasReservation : U256) : Except HookFault (HookOutcome × AccountKeychain) :=
  let kc := (kc.setTxOrigin sessionKey).setTransactionKey 0
  match kc.keyIsActive ctx root sessionKey with
  | .error e => .error (.keychainProbeFailed e)
  | .ok false => .ok (.reject (.aaTxUnauthorized sessionKey root), kc)
  | .ok true =>
    match hookChecks abi ctx agents kc root sessionKey calls gasReservation with
    | .ok checked => .ok (.pass, checked)
    | .error e =>
      -- The checkpoint is reverted in both cases.
      if e.isSystemError then .error (.hookSystemError e)
      else .ok (.reject (.hookRejectedTx e), kc)

def deductCall (abi : TokenAbi) (ctx : StorageCtx) (root sessionKey : Address)
    (kc : AccountKeychain) (call : AaCall) : Result AccountKeychain :=
  match call.tokenSpend abi root with
  | none => .ok kc
  | some spend => kc.verifyAndUpdateSpending ctx root sessionKey spend.1 spend.2

def deductAll (abi : TokenAbi) (ctx : StorageCtx) (kc : AccountKeychain)
    (root sessionKey : Address) (calls : List AaCall) (gasDeduction : U256) :
    Result AccountKeychain := do
  let sentinelTotal := calls.foldl (fun total call => satAdd total call.value) gasDeduction
  let kc ← (if sentinelTotal = 0 then pure kc
    else kc.verifyAndUpdateSpending ctx root sessionKey 0 sentinelTotal)
  calls.foldlM (deductCall abi ctx root sessionKey) kc

def applyAaPostExecutionDeductions (abi : TokenAbi) (ctx : StorageCtx) (kc : AccountKeychain)
    (root sessionKey : Address) (calls : List AaCall) (gasDeduction : U256) :
    Except HookFault AccountKeychain :=
  (deductAll abi ctx kc root sessionKey calls gasDeduction).mapError .applyDeductionsFailed

end AccountKeychain
end SciChain
