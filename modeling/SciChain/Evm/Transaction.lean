import SciChain.Handler.Hook

namespace SciChain

/-- Upgrade ladder of the chain; a specification is the upgrade it stands at. -/
inductive BaseUpgrade where
  | Bedrock | Regolith | Canyon | Ecotone | Fjord | Granite | Holocene | Isthmus | Jovian | Azul
  | Beryl
  deriving DecidableEq, Repr

namespace BaseUpgrade

def level : BaseUpgrade → Nat
  | Bedrock => 0 | Regolith => 1 | Canyon => 2 | Ecotone => 3 | Fjord => 4 | Granite => 5
  | Holocene => 6 | Isthmus => 7 | Jovian => 8 | Azul => 9 | Beryl => 10

def isEnabledIn (spec other : BaseUpgrade) : Bool := other.level ≤ spec.level

end BaseUpgrade

/-- Gas counter of a frame. The refund is signed: frames may take some of it back. -/
structure Gas where
  limit : Nat
  remaining : Nat
  refunded : Int
  deriving DecidableEq, Repr

namespace Gas

def newSpent (limit : Nat) : Gas := ⟨limit, 0, 0⟩

def eraseCost (gas : Gas) (returned : Nat) : Gas :=
  { gas with remaining := gas.remaining + returned }

def recordRefund (gas : Gas) (refund : Int) : Gas := { gas with refunded := gas.refunded + refund }

def spent (gas : Gas) : Nat := gas.limit - gas.remaining

/-- `refunded() as u64`. -/
def refundedU64 (gas : Gas) : Nat := (gas.refunded % 2 ^ 64).toNat

def used (gas : Gas) : Nat := gas.spent - gas.refundedU64

/-- Caps the refund at a fifth of the gas spent; every upgrade is past London. -/
def setFinalRefund (gas : Gas) : Gas :=
  { gas with refunded := (min gas.refundedU64 (gas.spent / 5) : Nat) }

/-- The calldata floor: less than the floor cannot have been used. -/
def checkGasFloor (gas : Gas) (floorGas : Nat) : Gas :=
  if gas.used < floorGas then ⟨gas.limit, gas.limit - floorGas, 0⟩ else gas

end Gas

abbrev AccessList := List (Address × List B256)

structure TxEip1559 where
  chainId : U64
  nonce : U64
  gasLimit : U64
  maxFeePerGas : U128
  maxPriorityFeePerGas : U128
  kind : TxKind
  value : U256
  accessList : AccessList
  input : Bytes
  deriving DecidableEq, Repr

/-- The account-abstraction transaction, of type 0x76. -/
structure BaseAaTransaction where
  chainId : U64
  nonce : U64
  maxPriorityFeePerGas : U128
  maxFeePerGas : U128
  gasLimit : U64
  calls : List AaCall
  accessList : AccessList
  feePayer : Option Address
  root : Option Address
  deriving DecidableEq, Repr

def sciAaTxTypeId : UInt8 := 0x76
def depositTransactionType : UInt8 := 0x7e

/-- The transaction as an ordinary one that makes the first call only. -/
def BaseAaTransaction.toEip1559FirstCall (tx : BaseAaTransaction) : TxEip1559 :=
  let first := tx.calls.head?.getD ⟨.create, 0, []⟩
  { chainId := tx.chainId, nonce := tx.nonce, gasLimit := tx.gasLimit,
    maxFeePerGas := tx.maxFeePerGas, maxPriorityFeePerGas := tx.maxPriorityFeePerGas,
    kind := first.kind, value := first.value, accessList := tx.accessList, input := first.input }

structure TxEnv where
  txType : UInt8
  caller : Address
  gasLimit : U64
  gasPrice : U128
  gasPriorityFee : Option U128
  kind : TxKind
  value : U256
  data : Bytes
  nonce : U64
  chainId : Option U64
  accessList : AccessList
  authorizationListLen : Nat
  deriving DecidableEq, Repr

def TxEnv.fromRecoveredTx (tx : TxEip1559) (caller : Address) : TxEnv where
  txType := 2
  caller := caller
  gasLimit := tx.gasLimit
  gasPrice := tx.maxFeePerGas
  gasPriorityFee := some tx.maxPriorityFeePerGas
  kind := tx.kind
  value := tx.value
  data := tx.input
  nonce := tx.nonce
  chainId := some tx.chainId
  accessList := tx.accessList
  authorizationListLen := 0

/-- The deposit transaction, of type 0x7e. Its sender is passed beside it. -/
structure TxDeposit where
  sourceHash : B256
  kind : TxKind
  mint : U128
  value : U256
  gasLimit : U64
  isSystemTransaction : Bool
  input : Bytes
  deriving DecidableEq, Repr

/-- Deposits are free of gas fees; what they do not set is the default. -/
def TxEnv.fromRecoveredDeposit (tx : TxDeposit) (caller : Address) : TxEnv where
  txType := depositTransactionType
  caller := caller
  gasLimit := tx.gasLimit
  gasPrice := 0
  gasPriorityFee := none
  kind := tx.kind
  value := tx.value
  data := tx.input
  nonce := 0
  chainId := some 1
  accessList := []
  authorizationListLen := 0

structure AaTransactionParts where
  calls : List AaCall
  root : Option Address
  feePayer : Option Address
  deriving DecidableEq, Repr

structure DepositTransactionParts where
  sourceHash : B256
  mint : Option U128
  isSystemTransaction : Bool
  deriving DecidableEq, Repr

structure BaseTransaction where
  base : TxEnv
  envelopedTx : Option Bytes
  deposit : DepositTransactionParts
  aa : Option AaTransactionParts
  deriving DecidableEq, Repr

namespace BaseTransaction

def txType (tx : BaseTransaction) : UInt8 :=
  if tx.deposit.sourceHash ≠ 0 then depositTransactionType else tx.base.txType

def root (tx : BaseTransaction) : Option Address := tx.aa.bind (·.root)

def feePayer (tx : BaseTransaction) : Option Address := tx.aa.bind (·.feePayer)

/-- The account that pays for the gas in place of the signer. -/
def sponsor (tx : BaseTransaction) : Option Address :=
  tx.feePayer.filter fun payer => payer ≠ tx.base.caller

/-- The environment of an AA transaction: the first call without its value, and
the whole batch beside it. `payload` is the encoding after the type byte. -/
def fromAa (tx : BaseAaTransaction) (caller : Address) (payload : Bytes) : BaseTransaction where
  base := { TxEnv.fromRecoveredTx tx.toEip1559FirstCall caller with value := 0 }
  envelopedTx := some (sciAaTxTypeId :: payload)
  deposit := ⟨0, none, false⟩
  aa := some ⟨tx.calls, tx.root, tx.feePayer⟩

def fromDeposit (tx : TxDeposit) (caller : Address) (encoded : Bytes) : BaseTransaction where
  base := TxEnv.fromRecoveredDeposit tx caller
  envelopedTx := some encoded
  deposit := ⟨tx.sourceHash, some tx.mint, tx.isSystemTransaction⟩
  aa := none

end BaseTransaction

inductive TransferError where
  | outOfFunds
  | overflowPayment
  deriving DecidableEq, Repr

/-- Reasons for which a transaction must not be included. `mainnet` stands for
the variants only the library itself constructs. -/
inductive InvalidTransaction where
  | lackOfFundForMaxFee (fee balance : U256)
  | overflowPaymentInTransaction
  | nonceTooHigh (tx state : U64)
  | nonceTooLow (tx state : U64)
  | rejectCallerWithCode
  | str (message : RejectMessage)
  | mainnet (code : Nat)
  deriving DecidableEq, Repr

inductive BaseTransactionError where
  | base (e : InvalidTransaction)
  | depositSystemTxPostRegolith
  | haltedDepositPostRegolith
  | missingEnvelopedTx
  deriving DecidableEq, Repr

/-- Texts of the errors made with `from_string`. -/
inductive CustomError where
  /-- "[OPTIMISM] Failed to load enveloped transaction." -/
  | failedToLoadEnvelopedTransaction
  /-- "max gas overflow: .." -/
  | maxGasOverflow (e : InvalidTransaction)
  /-- "fee_payer .. cannot cover gas: .." -/
  | feePayerCannotCoverGas (payer : Address) (e : TransferError)
  /-- "fee_payer gas reconcile failed: .." -/
  | feePayerGasReconcileFailed (e : TransferError)
  /-- "fee_payer refund failed: .." -/
  | feePayerRefundFailed (e : TransferError)
  | hook (fault : HookFault)
  /-- A fault inside a frame, or left in the context by one. -/
  | context (code : Nat)
  deriving DecidableEq, Repr

/-- Errors of a handler over a database that does not fail. -/
inductive EVMError where
  | transaction (e : BaseTransactionError)
  | custom (e : CustomError)
  deriving DecidableEq, Repr

namespace EVMError

def invalid (e : InvalidTransaction) : EVMError := .transaction (.base e)

def isTxError : EVMError → Bool
  | .transaction _ => true
  | .custom _ => false

end EVMError

end SciChain
