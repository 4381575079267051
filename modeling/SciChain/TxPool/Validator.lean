import SciChain.Evm.L1Block
import SciChain.Keychain.PackedKey

namespace SciChain.TxPool
open Library RawStorage

inductive BaseTxPoolError where
  | daFootprintExceedsBlockGasLimit (transactionDaFootprint blockGasLimit : U64)
  | aaFeePayerRootMismatch
  | aaSponsoredSignerNotAuthorized (root signer : Address)
  deriving DecidableEq, Repr

inductive InvalidPoolTransactionError where
  | insufficientFunds (got expected : U256)
  | other (error : BaseTxPoolError)
  deriving DecidableEq, Repr

/-- The pooled form of an AA transaction. `payload` is the encoding after the
type byte. -/
structure PooledTransaction where
  aa : BaseAaTransaction
  sender : Address
  payload : Bytes
  estimatedDaSize : U64

def PooledTransaction.encoded2718 (tx : PooledTransaction) : Bytes := sciAaTxTypeId :: tx.payload

/-- `U256::from(max_fee_per_gas).saturating_mul(U256::from(gas_limit))`. -/
def gasCost (aa : BaseAaTransaction) : U256 :=
  satMul (aa.maxFeePerGas.setWidth 256) (aa.gasLimit.setWidth 256)

def addValues (cost : U256) (calls : List AaCall) : U256 :=
  calls.foldl (fun acc c => satAdd acc c.value) cost

/-- What the signer must cover of an AA transaction. -/
def aaSignerPoolCost (aa : BaseAaTransaction) (signer : Address) : U256 :=
  let signerPaysGas := aa.feePayer = none ∨ aa.feePayer = some signer
  let signerPaysValue := aa.root = none ∨ aa.root = some signer
  let cost := if signerPaysGas then satAdd 0 (gasCost aa) else 0
  if signerPaysValue then addValues cost aa.calls else cost

/-- The pooled cost is that of the signer. -/
def PooledTransaction.cost (tx : PooledTransaction) : U256 := aaSignerPoolCost tx.aa tx.sender

/-- The payer of a sponsored transaction. -/
def PooledTransaction.sponsor (tx : PooledTransaction) : Option Address :=
  tx.aa.feePayer.filter fun payer => payer ≠ tx.sender

def defaultDaFootprintGasScalar : BitVec 16 := 400

/-- What the validator reads: the L1 information and upgrade of its tip, and the
latest state. No keychain storage means that the state provider fails. -/
structure Validator where
  requiresL1DataGasFee : Bool
  l1BlockInfo : L1BlockInfo
  specId : BaseUpgrade
  isJovianActive : Bool
  blockTimestamp : U64
  blockGasLimit : U64
  accountBalance : Address → U256
  keychainStorage : Option Slots

namespace Validator

def l1Cost (v : Validator) (tx : PooledTransaction) : U256 :=
  (v.l1BlockInfo.txCost tx.encoded2718 (tx.aa.gasLimit.setWidth 256) v.specId).1

def applyBaseChecks (v : Validator) (tx : PooledTransaction) :
    Except InvalidPoolTransactionError Unit :=
  if v.requiresL1DataGasFee = false then .ok () else do
  let daFootprint := satMul tx.estimatedDaSize
    ((v.l1BlockInfo.daFootprintGasScalar.getD defaultDaFootprintGasScalar).setWidth 64)
  reject (v.isJovianActive = true ∧ v.blockGasLimit.toNat < daFootprint.toNat)
    (.other (.daFootprintExceedsBlockGasLimit daFootprint v.blockGasLimit))
  let cost := satAdd tx.cost (v.l1Cost tx)
  let balance := v.accountBalance tx.sender
  -- The sponsor's balance is verified separately.
  reject (tx.sponsor = none ∧ balance.toNat < cost.toNat) (.insufficientFunds balance cost)

def checkAaSponsorBalance (v : Validator) (tx : PooledTransaction) :
    Except InvalidPoolTransactionError Unit :=
  match tx.sponsor with
  | none => .ok ()
  | some feePayer =>
    let l1Cost := if v.requiresL1DataGasFee then v.l1Cost tx else 0
    let needed := satAdd (satAdd (gasCost tx.aa) (addValues 0 tx.aa.calls)) l1Cost
    let balance := v.accountBalance feePayer
    reject (balance.toNat < needed.toNat) (.insufficientFunds balance needed)

def checkAaKeychainAuthorization (keccak256 : Bytes → B256) (v : Validator)
    (tx : PooledTransaction) : Except InvalidPoolTransactionError Unit := do
  reject (tx.aa.feePayer.isSome ∧ tx.aa.feePayer ≠ tx.aa.root) (.other .aaFeePayerRootMismatch)
  match tx.sponsor, v.keychainStorage with
  | some root, some storage =>
    reject (AccountKeychain.authorizedKeyWordIsActive
        (storage (AccountKeychain.authorizedKeySlot keccak256 root tx.sender))
        v.blockTimestamp = false)
      (.other (.aaSponsoredSignerNotAuthorized root tx.sender))
  | _, _ => .ok ()

/-- The checks of `validate_one_with_state` that follow those of the inner
validator. -/
def validateAa (keccak256 : Bytes → B256) (v : Validator) (tx : PooledTransaction) :
    Except InvalidPoolTransactionError Unit := do
  v.applyBaseChecks tx
  v.checkAaSponsorBalance tx
  v.checkAaKeychainAuthorization keccak256 tx

end Validator
end SciChain.TxPool
