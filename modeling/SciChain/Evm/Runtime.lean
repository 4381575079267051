import SciChain.Evm.L1Block
import SciChain.Library.Holdings

namespace SciChain
open Library

inductive Bytecode where
  | legacy (code : Bytes)
  | eip7702 (delegatedAddress : Address)
  deriving DecidableEq, Repr

structure AccountInfo where
  balance : U256
  nonce : U64
  codeHash : B256
  code : Option Bytecode
  deriving DecidableEq, Repr

/-- The state a transaction works on. `World` is all that no modelled function
reads: contract storage, logs, access marks. Reverting to a checkpoint restores
the journal that was there. -/
structure Journal (World : Type) where
  accounts : Address → AccountInfo
  keychain : AccountKeychain
  agentState : SciAgentState
  world : World

namespace Journal

variable {World : Type}

def balance (j : Journal World) (a : Address) : U256 := (j.accounts a).balance

def nonce (j : Journal World) (a : Address) : U64 := (j.accounts a).nonce

def setBalance (j : Journal World) (a : Address) (balance : U256) : Journal World :=
  { j with accounts := Function.update j.accounts a { j.accounts a with balance } }

/-- The nonce stays where it is once it has reached the largest value. -/
def bumpNonce (j : Journal World) (a : Address) : Journal World :=
  let nonce := satAdd (j.nonce a) 1
  { j with accounts := Function.update j.accounts a { j.accounts a with nonce } }

def incrBalance (j : Journal World) (a : Address) (amount : U256) : Journal World :=
  j.setBalance a (satAdd (j.balance a) amount)

/-- `transfer`; a failing one ends the transaction. -/
def transfer (j : Journal World) (source target : Address) (amount : U256) :
    Except TransferError (Journal World) := do
  reject ((j.balance source).toNat < amount.toNat) .outOfFunds
  if source = target then pure j else do
    reject (2 ^ 256 ≤ (j.balance target).toNat + amount.toNat) .overflowPayment
    pure ((j.setBalance source (j.balance source - amount)).setBalance target
      (j.balance target + amount))

/-- All accounts together hold at most `total`. -/
def SupplyAtMost (j : Journal World) (total : Nat) : Prop :=
  HoldsAtMost (fun a => (j.balance a).toNat) total

/-- Transient keychain storage ends with the transaction. -/
def commitTx (j : Journal World) : Journal World :=
  { j with keychain := (j.keychain.setTransactionKey 0).setTxOrigin 0 }

end Journal

structure BlockEnv where
  number : U256
  timestamp : U256
  beneficiary : Address
  basefee : U64
  blobGasprice : Option U128
  deriving DecidableEq, Repr

structure CfgEnv where
  spec : BaseUpgrade
  isFeeChargeDisabled : Bool
  isBalanceCheckDisabled : Bool
  deriving DecidableEq, Repr

/-- Fees are charged and balances checked, as in a block and unlike in a
simulation. -/
def CfgEnv.Charges (cfg : CfgEnv) : Prop :=
  cfg.isFeeChargeDisabled = false ∧ cfg.isBalanceCheckDisabled = false

/-- What a handler works on: `chain` is the cached L1 information, `db` the
stored words it is fetched from, `error` a fault a frame left behind. -/
structure Context (World : Type) where
  block : BlockEnv
  tx : BaseTransaction
  cfg : CfgEnv
  journal : Journal World
  chain : L1BlockInfo
  db : L1BlockInfo.Slots
  error : Option CustomError

inductive InstructionResult where
  | ok
  | revert
  | halt
  deriving DecidableEq, Repr

structure FrameResult where
  result : InstructionResult
  gas : Gas
  deriving DecidableEq, Repr

structure CallInputs where
  input : Bytes
  gasLimit : Nat
  bytecodeAddress : Address
  knownBytecode : B256 × Bytecode
  targetAddress : Address
  caller : Address
  value : U256
  deriving DecidableEq, Repr

structure CreateInputs where
  caller : Address
  value : U256
  initCode : Bytes
  gasLimit : Nat
  deriving DecidableEq, Repr

/-- Input of a frame at depth zero. -/
inductive FrameInput where
  | call (inputs : CallInputs)
  | create (inputs : CreateInputs)
  deriving DecidableEq, Repr

def FrameInput.gasLimit : FrameInput → Nat
  | .call inputs => inputs.gasLimit
  | .create inputs => inputs.gasLimit

/-- Code that runs at an account: that of its delegate, if it has one. -/
def Journal.codeAt {World : Type} (j : Journal World) (target : Address) : B256 × Bytecode :=
  let account := j.accounts target
  match account.code with
  | some (.eip7702 delegated) =>
    let delegate := j.accounts delegated
    (delegate.codeHash, delegate.code.getD (.legacy []))
  | _ => (account.codeHash, account.code.getD (.legacy []))

/-- The frame of one call, for the single call of an ordinary transaction and
for each call of a batch. -/
def Journal.frameInput {World : Type} (j : Journal World) (caller : Address) (kind : TxKind)
    (value : U256) (input : Bytes) (gasLimit : Nat) : FrameInput :=
  match kind with
  | .call target =>
    .call { input, gasLimit, bytecodeAddress := target, knownBytecode := j.codeAt target,
            targetAddress := target, caller, value }
  | .create => .create { caller, value, initCode := input, gasLimit }

structure InitialAndFloorGas where
  initialGas : Nat
  floorGas : Nat
  deriving DecidableEq, Repr

/-- What a frame leaves behind. -/
structure FrameExit (World : Type) where
  frame : FrameResult
  journal : Journal World
  error : Option CustomError

/-- The libraries the handlers are written against: the EVM and the generated
decoders. -/
structure Runtime (World : Type) where
  tokenAbi : TokenAbi
  keychainAbi : Bytes → Except AbiError KeychainCall
  validateEnv : BlockEnv → BaseTransaction → CfgEnv → Except EVMError Unit
  validateInitialTxGas : BaseTransaction → CfgEnv → Except InvalidTransaction InitialAndFloorGas
  validateAccountNonceAndCode :
    AccountInfo → BaseTransaction → CfgEnv → Except InvalidTransaction Unit
  maxBalanceSpending : BaseTransaction → Except InvalidTransaction U256
  effectiveBalanceSpending : BaseTransaction → U128 → U128 → U256
  effectiveGasPrice : BaseTransaction → U128 → U128
  calculateCallerFee : U256 → BaseTransaction → BlockEnv → CfgEnv → Except InvalidTransaction U256
  applyEip7702AuthList : Context World → Except EVMError (Int × Journal World)
  runExecLoop : Context World → FrameInput → Except EVMError (FrameExit World)
  reimburseCaller : Context World → Gas → U256 → Journal World
  rewardBeneficiary : Context World → Gas → Journal World

/-- The documented behaviour of the libraries that the results rest on. -/
structure Runtime.Lawful {World : Type} (rt : Runtime World) : Prop where
  maxBalanceSpending_eq : ∀ {tx most}, rt.maxBalanceSpending tx = .ok most →
    most.toNat = tx.base.gasLimit.toNat * tx.base.gasPrice.toNat + tx.base.value.toNat
  effectiveGasPrice_le : ∀ tx basefee,
    (rt.effectiveGasPrice tx basefee).toNat ≤ tx.base.gasPrice.toNat
  initialGas_le : ∀ {tx cfg gas}, rt.validateInitialTxGas tx cfg = .ok gas →
    gas.initialGas ≤ tx.base.gasLimit.toNat ∧ gas.floorGas ≤ tx.base.gasLimit.toNat
  /-- Covering the maximal spending is enough, and at most that is taken. -/
  callerFee_ok : ∀ {tx most balance block cfg}, rt.maxBalanceSpending tx = .ok most →
    most.toNat ≤ balance.toNat → ∃ left, rt.calculateCallerFee balance tx block cfg = .ok left
  callerFee_le : ∀ {tx balance block cfg left},
    rt.calculateCallerFee balance tx block cfg = .ok left →
    left.toNat ≤ max balance.toNat tx.base.value.toNat
  callerFee_ge : ∀ {tx most balance block cfg left}, rt.maxBalanceSpending tx = .ok most →
    rt.calculateCallerFee balance tx block cfg = .ok left →
    balance.toNat ≤ left.toNat + most.toNat
  /-- In a block the whole gas limit is taken, at the effective price. -/
  callerFee_exact : ∀ {tx balance block cfg left}, cfg.Charges →
    rt.calculateCallerFee balance tx block cfg = .ok left →
    left.toNat + (rt.effectiveGasPrice tx (block.basefee.setWidth 128)).toNat *
      tx.base.gasLimit.toNat = balance.toNat
  authList_empty : ∀ {ctx}, ctx.tx.base.authorizationListLen = 0 →
    rt.applyEip7702AuthList ctx = .ok (0, ctx.journal)
  frame_gas : ∀ {ctx input exit}, rt.runExecLoop ctx input = .ok exit →
    exit.frame.gas.remaining ≤ input.gasLimit
  /-- Frames never lower a nonce. -/
  frame_nonce : ∀ {ctx input exit}, rt.runExecLoop ctx input = .ok exit →
    ∀ a, (ctx.journal.nonce a).toNat ≤ (exit.journal.nonce a).toNat
  /-- A creation raises its caller's nonce before its own checkpoint is made, unless
  the caller cannot pay the value. -/
  create_nonce : ∀ {ctx inputs exit}, rt.runExecLoop ctx (.create inputs) = .ok exit →
    exit.frame.result = .ok ∨ inputs.value = 0 →
    (ctx.journal.nonce inputs.caller).toNat < 2 ^ 64 - 1 →
    (ctx.journal.nonce inputs.caller).toNat < (exit.journal.nonce inputs.caller).toNat
  /-- Frames create no native tokens. -/
  frame_supply : ∀ {ctx input exit total}, rt.runExecLoop ctx input = .ok exit →
    ctx.journal.SupplyAtMost total → exit.journal.SupplyAtMost total
  /-- Only its precompile writes the keychain's storage. -/
  frame_keychain : ∀ {ctx input exit}, rt.runExecLoop ctx input = .ok exit →
    ∃ calls, exit.journal.keychain = callAll rt.keychainAbi ctx.journal.keychain calls
  /-- The unused gas goes to the caller, and nothing else changes. -/
  reimburse_eq : ∀ ctx gas extra, ∃ balance,
    (ctx.journal.balance ctx.tx.base.caller).toNat ≤ balance.toNat ∧
    rt.reimburseCaller ctx gas extra = ctx.journal.setBalance ctx.tx.base.caller balance
  reimburse_exact : ∀ {ctx gas extra refund}, ctx.cfg.Charges →
    refund = (rt.effectiveGasPrice ctx.tx (ctx.block.basefee.setWidth 128)).toNat *
      (gas.remaining + gas.refundedU64) →
    refund < 2 ^ 128 →
    (ctx.journal.balance ctx.tx.base.caller).toNat + refund + extra.toNat < 2 ^ 256 →
    ((rt.reimburseCaller ctx gas extra).balance ctx.tx.base.caller).toNat =
      (ctx.journal.balance ctx.tx.base.caller).toNat + refund + extra.toNat
  reward_eq : ∀ ctx gas, ∃ balance,
    rt.rewardBeneficiary ctx gas = ctx.journal.setBalance ctx.block.beneficiary balance

/-- Gas of a creation besides its calldata: the creation itself and two for each
word of init code. -/
def createGas (initCode : Bytes) : Nat := 32000 + 2 * ((initCode.length + 31) / 32)

/-- Access list: 2400 for an address, 1900 for a storage key. -/
def accessListGas : AccessList → Nat
  | [] => 0
  | (_, keys) :: rest => 2400 + 1900 * keys.length + accessListGas rest

/-- Intrinsic gas of EIP-2028, and floor of EIP-7623, of a transaction's own data. -/
def initialTxGas (tx : TxEnv) : InitialAndFloorGas where
  initialGas := 21000 + 4 * L1BlockInfo.getTokensInCalldataIstanbul tx.data +
    (if tx.kind.isCall then 0 else createGas tx.data) + accessListGas tx.accessList +
    25000 * tx.authorizationListLen
  floorGas := 21000 + 10 * L1BlockInfo.getTokensInCalldataIstanbul tx.data

/-- From the upgrade that has the floor on, initial and floor gas are those formulas. -/
def Runtime.ChargesData {World : Type} (rt : Runtime World) : Prop :=
  ∀ tx cfg gas, cfg.spec.isEnabledIn .Isthmus = true →
    rt.validateInitialTxGas tx cfg = .ok gas → gas = initialTxGas tx.base

/-- The documented arithmetic of the fees of a valid transaction. Its charge is
computed with overflow checks, so every part of a charge that was accepted can be
paid back or out in the same width. -/
structure Runtime.ExactFees {World : Type} (rt : Runtime World) : Prop where
  /-- No transaction that offers less than the base fee is valid. -/
  basefee_le : ∀ {block tx cfg}, cfg.Charges → rt.validateEnv block tx cfg = .ok () →
    block.basefee.toNat ≤ (rt.effectiveGasPrice tx (block.basefee.setWidth 128)).toNat
  reimburse_charged : ∀ {ctx gas extra refund funds left}, ctx.cfg.Charges →
    rt.calculateCallerFee funds ctx.tx ctx.block ctx.cfg = .ok left →
    gas.remaining + gas.refundedU64 ≤ ctx.tx.base.gasLimit.toNat →
    refund = (rt.effectiveGasPrice ctx.tx (ctx.block.basefee.setWidth 128)).toNat *
      (gas.remaining + gas.refundedU64) →
    (ctx.journal.balance ctx.tx.base.caller).toNat + refund + extra.toNat < 2 ^ 256 →
    ((rt.reimburseCaller ctx gas extra).balance ctx.tx.base.caller).toNat =
      (ctx.journal.balance ctx.tx.base.caller).toNat + refund + extra.toNat
  /-- The beneficiary earns what the price exceeds the base fee by. -/
  reward_charged : ∀ {ctx gas tip funds left}, ctx.cfg.Charges →
    rt.calculateCallerFee funds ctx.tx ctx.block ctx.cfg = .ok left →
    gas.used ≤ ctx.tx.base.gasLimit.toNat →
    tip = ((rt.effectiveGasPrice ctx.tx (ctx.block.basefee.setWidth 128)).toNat -
      ctx.block.basefee.toNat) * gas.used →
    (ctx.journal.balance ctx.block.beneficiary).toNat + tip < 2 ^ 256 →
    ((rt.rewardBeneficiary ctx gas).balance ctx.block.beneficiary).toNat =
      (ctx.journal.balance ctx.block.beneficiary).toNat + tip

/-- A database that does not fail: frames end with a result, and leave no fault behind. -/
def Runtime.Faultless {World : Type} (rt : Runtime World) : Prop :=
  ∀ ctx input, ∃ exit, rt.runExecLoop ctx input = .ok exit ∧ exit.error = none

/-- Without a gas price only the value is spent. -/
def Runtime.SpendsValue {World : Type} (rt : Runtime World) : Prop :=
  ∀ tx basefee blobPrice, tx.base.gasPrice = 0 →
    rt.effectiveBalanceSpending tx basefee blobPrice = tx.base.value

end SciChain
