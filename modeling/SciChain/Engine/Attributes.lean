import SciChain.Derive.SystemConfig
import SciChain.Engine.State

namespace SciChain.Engine
open Derive Library
open Derive.Calldata (BaseFeeParams EIP1559ParamError)

structure Withdrawal where
  index : U64
  validatorIndex : U64
  address : Address
  amount : U64
  deriving DecidableEq, Repr

/-- What a block is to be built from. The EIP-1559 parameters are eight bytes: the
denominator and then the elasticity. -/
structure BasePayloadAttributes where
  timestamp : U64
  prevRandao : B256
  suggestedFeeRecipient : Address
  withdrawals : Option (List Withdrawal)
  parentBeaconBlockRoot : Option B256
  transactions : Option (List Bytes)
  noTxPool : Option Bool
  gasLimit : Option U64
  eip1559Params : Option U64
  minBaseFee : Option U64
  deriving DecidableEq, Repr

structure AttributesWithParent where
  attributes : BasePayloadAttributes
  parent : L2BlockInfo
  derivedFrom : Option BlockInfo
  isLastInSpan : Bool
  deriving DecidableEq, Repr

def isDepositTx (tx : Bytes) : Bool := tx.head? = some 0x7e

namespace AttributesWithParent

def blockNumber (a : AttributesWithParent) : U64 := satAdd a.parent.blockInfo.number 1

def isDepositsOnly (a : AttributesWithParent) : Bool :=
  (a.attributes.transactions.getD []).all isDepositTx

def asDepositsOnly (a : AttributesWithParent) : AttributesWithParent :=
  { a with attributes :=
    { a.attributes with transactions := a.attributes.transactions.map (·.filter isDepositTx) } }

end AttributesWithParent

inductive BlockTransactions where
  | full (txs : List BaseTxEnvelope)
  | hashes (hashes : List B256)
  | uncle
  deriving DecidableEq, Repr

/-- A block as the execution layer returns it: the hash it reports, the header with the
hash of its fields, and the other fields that are compared with attributes. -/
structure RpcBlock where
  reportedHash : B256
  header : Header
  mixHash : B256
  gasLimit : U64
  beneficiary : Address
  withdrawalsRoot : Option B256
  parentBeaconBlockRoot : Option B256
  extraData : Bytes
  transactions : BlockTransactions
  withdrawals : Option (List Withdrawal)
  deriving DecidableEq, Repr

/-- `into_consensus`: hashes of transactions are dropped. -/
def RpcBlock.intoConsensus (block : RpcBlock) : BaseBlock where
  header := block.header
  transactions :=
    match block.transactions with
    | .full txs => txs
    | .hashes _ => []
    | .uncle => []

/-- The parts of the rollup configuration that only the engine reads are added here. -/
structure EngineConfig where
  rollup : RollupConfig
  azulTime : Option U64
  postCanyonParams : BaseFeeParams

def EngineConfig.isBaseAzulActive (cfg : EngineConfig) (timestamp : U64) : Bool :=
  activeSince cfg.azulTime timestamp

/-- The encodings that are read and never written here: `decode_2718_exact` with the hash
of a transaction, and the L1 attributes in the calldata of a deposit. -/
structure TxReader where
  decodeTx : Bytes → Option BaseTxEnvelope
  txHash : BaseTxEnvelope → B256
  decodeCalldata : Bytes → Option L1BlockInfoTx

inductive AttributesMismatch where
  | parentHash (attributes block : B256)
  | timestamp (attributes block : U64)
  | prevRandao (attributes block : B256)
  | malformedBlockTransactions
  | malformedAttributesTransaction
  | transactionLen (attributes block : Nat)
  | transactionContent (attributes block : B256)
  | missingAttributesEIP1559
  | missingBlockEIP1559
  | missingAttributesMinBaseFee
  | minBaseFee (attributes block : U64)
  | invalidExtraDataVersion
  | unknownExtraDataDecodingError (error : EIP1559ParamError)
  | invalidEIP1559ParamsCombination
  | eip1559Parameters (attributes block : BaseFeeParams)
  | gasLimit (attributes block : U64)
  | missingAttributesGasLimit
  | feeRecipient (attributes block : Address)
  | parentBeaconBlockRoot (attributes block : Option B256)
  | canyonWithdrawalsNotEmpty
  | canyonNotEmptyHash
  | bedrockWithdrawals
  | isthmusMissingWithdrawalsRoot
  deriving DecidableEq, Repr

/-- The root of the empty trie. -/
def emptyRootHash : B256 := 0x56e81f171bcc55a6ff8345e692c0f86e5b48e01b996cadc001622fb5e363b421

/-- The elasticity and the denominator. -/
def decodeParams (params : U64) : U32 × U32 := (params.setWidth 32, (params >>> 32).setWidth 32)

namespace AttributesMatch

variable (cfg : EngineConfig) (reader : TxReader)

def checkWithdrawals (attributes : AttributesWithParent) (block : RpcBlock) :
    Except AttributesMismatch Unit :=
  let time := block.header.timestamp
  let attrWithdrawals := attributes.attributes.withdrawals
  do
    if cfg.rollup.isCanyonActive time then
      reject (attrWithdrawals ≠ some []) .canyonWithdrawalsNotEmpty
      reject (block.withdrawals ≠ some []) .canyonWithdrawalsNotEmpty
      reject (¬cfg.rollup.isIsthmusActive time ∧ block.withdrawalsRoot ≠ some emptyRootHash)
        .canyonNotEmptyHash
    else
      reject (attrWithdrawals.isSome = true) .bedrockWithdrawals
    reject (cfg.rollup.isIsthmusActive time ∧ block.withdrawalsRoot = none)
      .isthmusMissingWithdrawalsRoot

def compareTransactions : List Bytes → List BaseTxEnvelope → Except AttributesMismatch Unit
  | bytes :: attributesTxs, tx :: blockTxs =>
    match reader.decodeTx bytes with
    | none => .error .malformedAttributesTransaction
    | some attrTx =>
      if attrTx ≠ tx then .error (.transactionContent (reader.txHash attrTx) (reader.txHash tx))
      else compareTransactions attributesTxs blockTxs
  | _, _ => .ok ()

def checkTransactions (attributesTxs : List Bytes) (block : RpcBlock) :
    Except AttributesMismatch Unit :=
  match block.transactions with
  | .uncle => .error .malformedBlockTransactions
  | .hashes hashes =>
    if attributesTxs = [] ∧ hashes = [] then .ok () else .error .malformedBlockTransactions
  | .full blockTxs =>
    if attributesTxs.length ≠ blockTxs.length then
      .error (.transactionLen attributesTxs.length blockTxs.length)
    else compareTransactions reader attributesTxs blockTxs

/-- The elasticity and the denominator that the attributes ask for. -/
def attributesParams (elasticity denominator : U32) : Except AttributesMismatch (U128 × U128) :=
  if elasticity = 0 ∧ denominator ≠ 0 then .error .invalidEIP1559ParamsCombination
  else if elasticity = 0 then
    .ok (cfg.postCanyonParams.elasticityMultiplier, cfg.postCanyonParams.maxChangeDenominator)
  else .ok (elasticity.setWidth 128, denominator.setWidth 128)

/-- The elasticity, the denominator and from Jovian on the minimum base fee of a block. -/
def blockParams (block : RpcBlock) : Except AttributesMismatch (U128 × U128 × Option U64) :=
  let decoded : Option (Except EIP1559ParamError (U32 × U32 × Option U64)) :=
    if cfg.rollup.isJovianActive block.header.timestamp then
      some ((Calldata.JovianExtraData.decode block.extraData).map fun p => (p.1, p.2.1, some p.2.2))
    else if cfg.rollup.isHoloceneActive block.header.timestamp then
      some ((Calldata.HoloceneExtraData.decode block.extraData).map fun p => (p.1, p.2, none))
    else none
  match decoded with
  | none => .error .missingBlockEIP1559
  | some (.ok (elasticity, denominator, minBaseFee)) =>
    .ok (elasticity.setWidth 128, denominator.setWidth 128, minBaseFee)
  | some (.error .noEIP1559Params) => .error .missingBlockEIP1559
  | some (.error (.invalidVersion _)) => .error .invalidExtraDataVersion
  | some (.error e) => .error (.unknownExtraDataDecodingError e)

def checkEip1559 (attributes : AttributesWithParent) (block : RpcBlock) :
    Except AttributesMismatch Unit :=
  match attributes.attributes.eip1559Params.map decodeParams with
  | none =>
    if cfg.rollup.isHoloceneActive block.header.timestamp then .error .missingAttributesEIP1559
    else .ok ()
  | some (elasticity, denominator) => do
    let (ae, ad) ← attributesParams cfg elasticity denominator
    let (be, bd, jovianBlockMbf) ← blockParams cfg block
    reject (ae ≠ be ∨ ad ≠ bd) (.eip1559Parameters ⟨ad, ae⟩ ⟨bd, be⟩)
    match jovianBlockMbf, attributes.attributes.minBaseFee with
    | none, _ => .ok ()
    | some _, none => .error .missingAttributesMinBaseFee
    | some blockMbf, some attrMbf => reject (attrMbf ≠ blockMbf) (.minBaseFee attrMbf blockMbf)

/-- Whether a block is what the attributes would build. -/
def check (attributes : AttributesWithParent) (block : RpcBlock) :
    Except AttributesMismatch Unit := do
  let attrs := attributes.attributes
  reject (attributes.parent.blockInfo.hash ≠ block.header.parentHash)
    (.parentHash attributes.parent.blockInfo.hash block.header.parentHash)
  reject (attrs.timestamp ≠ block.header.timestamp)
    (.timestamp attrs.timestamp block.header.timestamp)
  reject (attrs.prevRandao ≠ block.mixHash) (.prevRandao attrs.prevRandao block.mixHash)
  checkTransactions reader (attrs.transactions.getD []) block
  match attrs.gasLimit with
  | none => .error .missingAttributesGasLimit
  | some gasLimit =>
    reject (gasLimit ≠ block.gasLimit) (.gasLimit gasLimit block.gasLimit)
    checkWithdrawals cfg attributes block
    reject (attrs.parentBeaconBlockRoot ≠ block.parentBeaconBlockRoot)
      (.parentBeaconBlockRoot attrs.parentBeaconBlockRoot block.parentBeaconBlockRoot)
    reject (attrs.suggestedFeeRecipient ≠ block.beneficiary)
      (.feeRecipient attrs.suggestedFeeRecipient block.beneficiary)
    checkEip1559 cfg attributes block

end AttributesMatch
end SciChain.Engine
