import SciChain.Evm.Flz
import SciChain.Evm.Transaction

namespace SciChain
open Library

/-- Fee parameters of the L1 origin block, and the L1 cost of the transaction
under way once it has been computed. -/
structure L1BlockInfo where
  l2Block : Option U256
  l1BaseFee : U256
  l1FeeOverhead : Option U256
  l1BaseFeeScalar : U256
  l1BlobBaseFee : Option U256
  l1BlobBaseFeeScalar : Option U256
  operatorFeeScalar : Option U256
  operatorFeeConstant : Option U256
  daFootprintGasScalar : Option (BitVec 16)
  emptyEcotoneScalars : Bool
  txL1Cost : Option U256
  deriving DecidableEq, Repr

/-- Bytes of a storage word from an offset on, in big-endian order. -/
def wordSlice (word : U256) (offset len : Nat) : Nat :=
  word.toNat / 2 ^ (8 * (32 - offset - len)) % 2 ^ (8 * len)

namespace L1BlockInfo

def empty : L1BlockInfo :=
  ⟨none, 0, none, 0, none, none, none, none, none, false, none⟩

/-- Storage of the L1 block predeploy. -/
abbrev Slots := Nat → U256

def l1BaseFeeSlot : Nat := 1
def ecotoneL1FeeScalarsSlot : Nat := 3
def l1OverheadSlot : Nat := 5
def l1ScalarSlot : Nat := 6
def ecotoneL1BlobBaseFeeSlot : Nat := 7
def operatorFeeScalarsSlot : Nat := 8
def daFootprintGasScalarSlot : Nat := 8

def fetchDaFootprintGasScalar (db : Slots) : BitVec 16 :=
  BitVec.ofNat 16 (wordSlice (db daFootprintGasScalarSlot) 18 2)

def tryFetchJovian (info : L1BlockInfo) (db : Slots) : L1BlockInfo :=
  { info with daFootprintGasScalar := some (fetchDaFootprintGasScalar db) }

def tryFetchIsthmus (info : L1BlockInfo) (db : Slots) : L1BlockInfo :=
  let operatorFeeScalars := db operatorFeeScalarsSlot
  { info with
    operatorFeeScalar := some (BitVec.ofNat 256 (wordSlice operatorFeeScalars 20 4))
    operatorFeeConstant := some (BitVec.ofNat 256 (wordSlice operatorFeeScalars 24 8)) }

def tryFetchEcotone (info : L1BlockInfo) (db : Slots) : L1BlockInfo :=
  let l1FeeScalars := db ecotoneL1FeeScalarsSlot
  let blobBaseFeeScalar : U256 := BitVec.ofNat 256 (wordSlice l1FeeScalars 20 4)
  let emptyScalars : Bool := blobBaseFeeScalar = 0 ∧ wordSlice l1FeeScalars 16 8 = 0
  { info with
    l1BlobBaseFee := some (db ecotoneL1BlobBaseFeeSlot)
    l1BaseFeeScalar := BitVec.ofNat 256 (wordSlice l1FeeScalars 16 4)
    l1BlobBaseFeeScalar := some blobBaseFeeScalar
    emptyEcotoneScalars := emptyScalars
    l1FeeOverhead := if emptyScalars then some (db l1OverheadSlot) else none }

def tryFetch (db : Slots) (l2Block : U256) (spec : BaseUpgrade) : L1BlockInfo :=
  let out := { empty with l2Block := some l2Block, l1BaseFee := db l1BaseFeeSlot }
  if ¬spec.isEnabledIn .Ecotone then
    { out with
      l1BaseFeeScalar := db l1ScalarSlot
      l1FeeOverhead := some (db l1OverheadSlot) }
  else
    let out := out.tryFetchEcotone db
    let out := if spec.isEnabledIn .Isthmus then out.tryFetchIsthmus db else out
    if spec.isEnabledIn .Jovian then out.tryFetchJovian db else out

def operatorFeeChargeInner (info : L1BlockInfo) (gas : U256) (spec : BaseUpgrade) : U256 :=
  let scalar := info.operatorFeeScalar.getD 0
  let constant := info.operatorFeeConstant.getD 0
  let product :=
    if spec.isEnabledIn .Jovian then satMul (satMul gas scalar) 100
    else satMul gas scalar / 1000000
  satAdd product constant

/-- Empty and deposit envelopes cost nothing. -/
def isExempt (input : Bytes) : Bool := input.head?.all (· = depositTransactionType)

def operatorFeeCharge (info : L1BlockInfo) (input : Bytes) (gasLimit : U256)
    (spec : BaseUpgrade) : U256 :=
  if isExempt input then 0 else info.operatorFeeChargeInner gasLimit spec

def operatorFeeRefund (info : L1BlockInfo) (gas : Gas) (spec : BaseUpgrade) : U256 :=
  if ¬spec.isEnabledIn .Isthmus then 0 else
  let costGasLimit := info.operatorFeeChargeInner (BitVec.ofNat 256 gas.limit) spec
  let costGasUsed := info.operatorFeeChargeInner
    (BitVec.ofNat 256 (gas.limit - (gas.remaining + gas.refundedU64))) spec
  satSub costGasLimit costGasUsed

/-- Tokens of calldata, in which a non-zero byte counts four times. -/
def getTokensInCalldataIstanbul (input : Bytes) : Nat :=
  input.countP (· = 0) + input.countP (· ≠ 0) * 4

def dataGas (input : Bytes) (spec : BaseUpgrade) : U256 :=
  if spec.isEnabledIn .Fjord then
    satMul ((txEstimatedSizeFjord input).setWidth 256) 16 / 1000000
  else
    let tokens := getTokensInCalldataIstanbul input
    let tokens := if ¬spec.isEnabledIn .Regolith then tokens + 68 * 4 else tokens
    (satMul (BitVec.ofNat 64 tokens) 4 : U64).setWidth 256

def calculateL1FeeScaledEcotone (info : L1BlockInfo) : U256 :=
  let calldataCostPerByte := satMul (satMul info.l1BaseFee 16) info.l1BaseFeeScalar
  let blobCostPerByte := satMul (info.l1BlobBaseFee.getD 0) (info.l1BlobBaseFeeScalar.getD 0)
  satAdd calldataCostPerByte blobCostPerByte

def calculateTxL1CostBedrock (info : L1BlockInfo) (input : Bytes) (spec : BaseUpgrade) : U256 :=
  satMul (satMul (satAdd (dataGas input spec) (info.l1FeeOverhead.getD 0)) info.l1BaseFee)
    info.l1BaseFeeScalar / 1000000

/-- The first Ecotone block, whose scalars are unset, is still priced as before. -/
def calculateTxL1CostEcotone (info : L1BlockInfo) (input : Bytes) (spec : BaseUpgrade) : U256 :=
  if info.emptyEcotoneScalars then info.calculateTxL1CostBedrock input spec
  else satMul info.calculateL1FeeScaledEcotone (dataGas input spec) / (1000000 * 16)

def calculateTxL1CostFjord (info : L1BlockInfo) (input : Bytes) : U256 :=
  let l1FeeScaled := info.calculateL1FeeScaledEcotone
  if l1FeeScaled = 0 then 0
  else satMul ((txEstimatedSizeFjord input).setWidth 256) l1FeeScaled / 1000000000000

/-- The L1 cost by the formula of the upgrade. -/
def l1CostOf (info : L1BlockInfo) (input : Bytes) (spec : BaseUpgrade) : U256 :=
  if spec.isEnabledIn .Fjord then info.calculateTxL1CostFjord input
  else if spec.isEnabledIn .Ecotone then info.calculateTxL1CostEcotone input spec
  else info.calculateTxL1CostBedrock input spec

/-- Computes the L1 cost once and keeps it for the later stages. -/
def calculateTxL1Cost (info : L1BlockInfo) (input : Bytes) (spec : BaseUpgrade) :
    U256 × L1BlockInfo :=
  match info.txL1Cost with
  | some cost => (cost, info)
  | none =>
    if isExempt input then (0, info)
    else (info.l1CostOf input spec, { info with txL1Cost := some (info.l1CostOf input spec) })

def clearTxL1Cost (info : L1BlockInfo) : L1BlockInfo := { info with txL1Cost := none }

/-- The cost a transaction has besides its gas: L1 data and operator fee. -/
def txCost (info : L1BlockInfo) (envelopedTx : Bytes) (gasLimit : U256) (spec : BaseUpgrade) :
    U256 × L1BlockInfo :=
  let (l1Cost, info) := info.calculateTxL1Cost envelopedTx spec
  if spec.isEnabledIn .Isthmus then
    (satAdd l1Cost (info.operatorFeeCharge envelopedTx gasLimit spec), info)
  else (l1Cost, info)

def txCostWithTx (info : L1BlockInfo) (tx : BaseTransaction) (spec : BaseUpgrade) :
    Option U256 × L1BlockInfo :=
  match tx.envelopedTx with
  | none => (none, info)
  | some envelopedTx =>
    let (cost, info) := info.txCost envelopedTx (tx.base.gasLimit.setWidth 256) spec
    (some cost, info)

end L1BlockInfo
end SciChain
