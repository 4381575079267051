import SciChain.Derive.L1Info

namespace SciChain.Derive.Calldata
open Library

/-- The configuration of the chain as L1 sets it. -/
structure SystemConfig where
  batcherAddress : Address
  overhead : U256
  scalar : U256
  gasLimit : U64
  eip1559Denominator : Option U32
  eip1559Elasticity : Option U32
  operatorFeeScalar : Option U32
  operatorFeeConstant : Option U64
  minBaseFee : Option U64
  daFootprintGasScalar : Option U16
  deriving DecidableEq, Repr

/-- The blob parameters of an L1 upgrade, or of an entry of the schedule after them. -/
inductive BlobParams where
  | cancun
  | prague
  | osaka
  | scheduled (entry : Nat)
  deriving DecidableEq, Repr

/-- What decides on the blob parameters. `scheduledParams` is the entry of the L1 blob
schedule that is active at a time; the last field is of the rollup configuration. -/
structure BlobSchedule where
  scheduledParams : U64 → Option BlobParams
  osakaTime : Option U64
  pragueTime : Option U64
  pectraBlobScheduleTime : Option U64

/-- An L1 header with its hash and its blob fee under given parameters. -/
structure L1Header where
  hash : B256
  number : U64
  timestamp : U64
  baseFeePerGas : Option U64
  blobFee : BlobParams → Option U128

def BlobSchedule.paramsAt (schedule : BlobSchedule) (timestamp : U64) : BlobParams :=
  match schedule.scheduledParams timestamp with
  | some params => params
  | none =>
    if activeSince schedule.osakaTime timestamp then .osaka
    else if activeSince schedule.pragueTime timestamp ∧
        (schedule.pectraBlobScheduleTime = none ∨
          activeSince schedule.pectraBlobScheduleTime timestamp) then .prague
    else .cancun

namespace SystemConfig

/-- The blob scalar is part of the scalar only in its later version. -/
def blobBaseFeeScalar (c : SystemConfig) : U32 :=
  if (beBytes 32 c.scalar.toNat).head? = some L1BlockInfoEcotone.l1Scalar then
    wordAt 32 (beBytes 32 c.scalar.toNat) 24 28
  else 0

def baseFeeScalar (c : SystemConfig) : U32 := wordAt 32 (beBytes 32 c.scalar.toNat) 28 32

/-- The denominator and the elasticity in eight bytes. The first block of Holocene has
zeros, for which the execution layer has its own values. -/
def eip1559Params (c : SystemConfig) (cfg : RollupConfig) (parentTimestamp nextTimestamp : U64) :
    Option Bytes :=
  if ¬cfg.isHoloceneActive nextTimestamp then none
  else if ¬cfg.isHoloceneActive parentTimestamp then some (beBytes 8 0)
  else some (beBytes 4 (c.eip1559Denominator.getD 0).toNat ++
    (beBytes 4 (c.eip1559Elasticity.getD 0).toNat ++ []))

end SystemConfig

namespace L1BlockInfoTx

def bedrockBase (c : SystemConfig) (sequenceNumber : U64) (header : L1Header) :
    L1BlockInfoBedrockBase where
  number := header.number
  time := header.timestamp
  baseFee := header.baseFeePerGas.getD 0
  blockHash := header.hash
  sequenceNumber
  batcherAddress := c.batcherAddress

def ecotoneBase (schedule : BlobSchedule) (c : SystemConfig) (sequenceNumber : U64)
    (header : L1Header) : L1BlockInfoEcotoneBase where
  toL1BlockInfoBedrockBase := bedrockBase c sequenceNumber header
  blobBaseFee := (header.blobFee (schedule.paramsAt header.timestamp)).getD 1
  blobBaseFeeScalar := c.blobBaseFeeScalar
  baseFeeScalar := c.baseFeeScalar

def isthmusInfo (schedule : BlobSchedule) (c : SystemConfig) (sequenceNumber : U64)
    (header : L1Header) : L1BlockInfoIsthmus :=
  ⟨ecotoneBase schedule c sequenceNumber header, c.operatorFeeScalar.getD 0,
    c.operatorFeeConstant.getD 0⟩

/-- The L1 info of a block. The first block of an upgrade still has the format before it.
The reads of four bytes from a word of thirty-two, for which the code has errors, succeed. -/
def tryNew (cfg : RollupConfig) (schedule : BlobSchedule) (c : SystemConfig)
    (sequenceNumber : U64) (header : L1Header) (l2BlockTime : U64) : L1BlockInfoTx :=
  if ¬cfg.isEcotoneActive l2BlockTime ∨ cfg.isFirstEcotoneBlock l2BlockTime then
    .bedrock ⟨bedrockBase c sequenceNumber header, c.overhead, c.scalar⟩
  else if cfg.isJovianActive l2BlockTime ∧ ¬cfg.isFirstJovianBlock l2BlockTime then
    .jovian ⟨isthmusInfo schedule c sequenceNumber header,
      L1BlockInfoJovian.footprintOrDefault
        (c.daFootprintGasScalar.getD L1BlockInfoJovian.defaultDaFootprintGasScalar)⟩
  else if cfg.isIsthmusActive l2BlockTime ∧ ¬cfg.isFirstIsthmusBlock l2BlockTime then
    .isthmus (isthmusInfo schedule c sequenceNumber header)
  else .ecotone ⟨ecotoneBase schedule c sequenceNumber header, false, 0⟩

end L1BlockInfoTx

structure BaseFeeParams where
  maxChangeDenominator : U128
  elasticityMultiplier : U128
  deriving DecidableEq, Repr

inductive EIP1559ParamError where
  | invalidVersion (version : UInt8)
  | noEIP1559Params
  | denominatorOverflow
  | elasticityOverflow
  | invalidExtraDataLength
  | minBaseFeeNotSet
  deriving DecidableEq, Repr

/-- The bytes of the parameters in the extra data; zeros stand for the defaults. -/
def encodeEip1559Params (params : Bytes) (defaults : BaseFeeParams) :
    Except EIP1559ParamError Bytes :=
  if params.all (· = 0) then do
    reject (2 ^ 32 ≤ defaults.maxChangeDenominator.toNat) .denominatorOverflow
    reject (2 ^ 32 ≤ defaults.elasticityMultiplier.toNat) .elasticityOverflow
    .ok (beBytes 4 defaults.maxChangeDenominator.toNat ++
      beBytes 4 defaults.elasticityMultiplier.toNat)
  else .ok (beBytes 4 (wordAt 32 params 0 4).toNat ++ beBytes 4 (wordAt 32 params 4 8).toNat)

namespace HoloceneExtraData

def versionByte : UInt8 := 0

def encode (params : Bytes) (defaults : BaseFeeParams) : Except EIP1559ParamError Bytes := do
  let encoded ← encodeEip1559Params params defaults
  .ok (versionByte :: encoded)

/-- The elasticity and the denominator. -/
def decode (extraData : Bytes) : Except EIP1559ParamError (U32 × U32) := do
  reject (extraData.length ≠ 9) .invalidExtraDataLength
  reject (extraData.headD 0 ≠ versionByte) (.invalidVersion (extraData.headD 0))
  .ok (wordAt 32 extraData 5 9, wordAt 32 extraData 1 5)

end HoloceneExtraData

namespace JovianExtraData

def versionByte : UInt8 := 1

def encode (params : Bytes) (defaults : BaseFeeParams) (minBaseFee : U64) :
    Except EIP1559ParamError Bytes := do
  let encoded ← encodeEip1559Params params defaults
  .ok (versionByte :: (encoded ++ beBytes 8 minBaseFee.toNat))

/-- The elasticity, the denominator and the minimum base fee. -/
def decode (extraData : Bytes) : Except EIP1559ParamError (U32 × U32 × U64) := do
  reject (extraData.length ≠ 17) .invalidExtraDataLength
  reject (extraData.headD 0 ≠ versionByte) (.invalidVersion (extraData.headD 0))
  .ok (wordAt 32 extraData 5 9, wordAt 32 extraData 1 5, wordAt 64 extraData 9 17)

end JovianExtraData

/-- What the attributes of a block take from the system configuration; `l1Info` is the
calldata of their first transaction. -/
structure PayloadAttributes where
  timestamp : U64
  l1Info : Bytes
  gasLimit : U64
  eip1559Params : Option Bytes
  minBaseFee : Option U64
  deriving DecidableEq, Repr

/-- The attributes of the block after the one at `parentTimestamp`. -/
def preparePayloadAttributes (cfg : RollupConfig) (schedule : BlobSchedule) (c : SystemConfig)
    (sequenceNumber : U64) (header : L1Header) (parentTimestamp : U64) : PayloadAttributes :=
  let nextL2Time := parentTimestamp + cfg.blockTime
  { timestamp := nextL2Time
    l1Info :=
      (L1BlockInfoTx.tryNew cfg schedule c sequenceNumber header nextL2Time).encodeCalldata
    gasLimit := c.gasLimit
    eip1559Params := c.eip1559Params cfg parentTimestamp nextL2Time
    minBaseFee := if cfg.isJovianActive nextL2Time then some (c.minBaseFee.getD 0) else none }

/-- The extra data that the execution layer puts into the header for the attributes. -/
def headerExtraData (cfg : RollupConfig) (defaults : BaseFeeParams) (attrs : PayloadAttributes) :
    Except EIP1559ParamError Bytes :=
  if cfg.isJovianActive attrs.timestamp then
    match attrs.minBaseFee, attrs.eip1559Params with
    | none, _ => .error .minBaseFeeNotSet
    | some _, none => .error .noEIP1559Params
    | some minBaseFee, some params => JovianExtraData.encode params defaults minBaseFee
  else if cfg.isHoloceneActive attrs.timestamp then
    match attrs.eip1559Params with
    | none => .error .noEIP1559Params
    | some params => HoloceneExtraData.encode params defaults
  else .ok []

/-- A header with the fields that hold a part of the system configuration. -/
structure ConfigHeader extends Header where
  gasLimit : U64
  extraData : Bytes
  deriving DecidableEq, Repr

structure ConfigBlock where
  header : ConfigHeader
  transactions : List BaseTxEnvelope
  deriving DecidableEq, Repr

inductive BaseBlockConversionError where
  | invalidGenesisHash (expected actual : B256)
  | invalidTxType (ty : UInt8)
  | l1InfoError (error : DecodeError)
  | missingSystemConfigGenesis
  | emptyTransactions (hash : B256)
  | eip1559DecodeError (error : EIP1559ParamError)
  deriving DecidableEq, Repr

/-- The type of a transaction from its encoding; a legacy one is a list. -/
def txType (encoded : Bytes) : UInt8 :=
  if encoded.headD 0 ≤ 0x7f then encoded.headD 0 else 0

/-- Both fee scalars in the later version of the scalar. -/
def encodeScalar (blobBaseFeeScalar baseFeeScalar : U32) : U256 :=
  BitVec.ofNat 256 (beValue (1 :: (List.replicate 23 0 ++
    (beBytes 4 blobBaseFeeScalar.toNat ++ beBytes 4 baseFeeScalar.toNat))))

def L1BlockInfoTx.configScalar : L1BlockInfoTx → U256
  | .bedrock info => info.l1FeeScalar
  | .ecotone info => encodeScalar info.blobBaseFeeScalar info.baseFeeScalar
  | .isthmus info => encodeScalar info.blobBaseFeeScalar info.baseFeeScalar
  | .jovian info => encodeScalar info.blobBaseFeeScalar info.baseFeeScalar

/-- The EIP-1559 parameters and the minimum base fee of a header. -/
def headerParams (cfg : RollupConfig) (header : ConfigHeader) :
    Except EIP1559ParamError (Option U32 × Option U32 × Option U64) :=
  if cfg.isJovianActive header.timestamp then do
    let (elasticity, denominator, minBaseFee) ← JovianExtraData.decode header.extraData
    .ok (some denominator, some elasticity, some minBaseFee)
  else if cfg.isHoloceneActive header.timestamp then do
    let (elasticity, denominator) ← HoloceneExtraData.decode header.extraData
    .ok (some denominator, some elasticity, none)
  else .ok (none, none, none)

/-- The system configuration of a block. `genesisConfig` is the one of the rollup
configuration's genesis. -/
def toSystemConfig (cfg : RollupConfig) (genesisConfig : Option SystemConfig)
    (block : ConfigBlock) : Except BaseBlockConversionError SystemConfig :=
  if block.header.number = cfg.genesis.l2.number then
    if block.header.hash ≠ cfg.genesis.l2.hash then
      .error (.invalidGenesisHash cfg.genesis.l2.hash block.header.hash)
    else
      match genesisConfig with
      | none => .error .missingSystemConfigGenesis
      | some config => .ok config
  else
    match block.transactions with
    | [] => .error (.emptyTransactions block.header.hash)
    | .user encoded :: _ => .error (.invalidTxType (txType encoded))
    | .deposit input _ :: _ => do
      let l1Info ← (L1BlockInfoTx.decodeCalldata input).mapError .l1InfoError
      let (denominator, elasticity, minBaseFee) ←
        (headerParams cfg block.header).mapError .eip1559DecodeError
      let isthmus := cfg.isIsthmusActive block.header.timestamp
      .ok { batcherAddress := l1Info.batcherAddress
            overhead := l1Info.l1FeeOverhead
            scalar := l1Info.configScalar
            gasLimit := block.header.gasLimit
            eip1559Denominator := denominator
            eip1559Elasticity := elasticity
            operatorFeeScalar := if isthmus then some l1Info.operatorFeeScalar else none
            operatorFeeConstant := if isthmus then some l1Info.operatorFeeConstant else none
            minBaseFee
            daFootprintGasScalar := l1Info.daFootprint }

end SciChain.Derive.Calldata
