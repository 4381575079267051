import SciChain.Derive.SystemConfig

namespace SciChain.Derive
open Library Calldata

structure Log where
  address : Address
  topics : List B256
  data : Bytes
  deriving DecidableEq, Repr

/-- The status of a receipt: a flag, or the state root of receipts before it. -/
inductive Eip658Value where
  | eip658 (success : Bool)
  | postState (root : B256)
  deriving DecidableEq, Repr

structure Receipt where
  status : Eip658Value
  logs : List Log
  deriving Repr

inductive SystemConfigUpdateKind where
  | batcher
  | gasConfig
  | gasLimit
  | unsafeBlockSigner
  | eip1559
  | operatorFee
  | minBaseFee
  | daFootprintGasScalar
  deriving DecidableEq, Repr

namespace SystemConfigUpdateKind

def code : SystemConfigUpdateKind → Nat
  | batcher => 0
  | gasConfig => 1
  | gasLimit => 2
  | unsafeBlockSigner => 3
  | eip1559 => 4
  | operatorFee => 5
  | minBaseFee => 6
  | daFootprintGasScalar => 7

def ofU64 (ty : U64) : Option SystemConfigUpdateKind :=
  [batcher, gasConfig, gasLimit, unsafeBlockSigner, eip1559, operatorFee, minBaseFee,
    daFootprintGasScalar].find? fun kind => kind.code = ty.toNat

end SystemConfigUpdateKind

/-- The errors of an update's data, which all kinds have in the same form. -/
inductive UpdateDataError where
  | invalidDataLen (len : Nat)
  | pointerDecodingError
  | invalidDataPointer (pointer : U64)
  | lengthDecodingError
  | invalidDataLength (length : U64)
  | payloadDecodingError
  deriving DecidableEq, Repr

inductive LogProcessingError where
  | invalidTopicLen (len : Nat)
  | invalidTopic
  | unsupportedVersion (version : B256)
  | invalidSystemConfigUpdateType (ty : U64)
  deriving DecidableEq, Repr

inductive SystemConfigUpdateError where
  | logProcessing (error : LogProcessingError)
  | update (kind : SystemConfigUpdateKind) (error : UpdateDataError)
  deriving DecidableEq, Repr

inductive SystemConfigUpdate where
  | batcher (batcherAddress : Address)
  | gasConfig (scalar overhead : Option U256)
  | gasLimit (gasLimit : U64)
  | unsafeBlockSigner (unsafeBlockSigner : Address)
  | eip1559 (denominator elasticity : U32)
  | operatorFee (scalar : U32) (constant : U64)
  | minBaseFee (minBaseFee : U64)
  | daFootprintGasScalar (scalar : U16)
  deriving DecidableEq, Repr

namespace SystemConfigUpdate

def topic : B256 := 0x1d2b0bda21d56b8bd12d4f94ebacffdfb35f5e226f84b461103bb8beab6353be

def eventVersion0 : B256 := 0

def defaultDaFootprintGasScalar : U16 := 400

/-- The signer of unsafe blocks is no part of derivation. -/
def apply (update : SystemConfigUpdate) (config : SystemConfig) : SystemConfig :=
  match update with
  | batcher batcherAddress => { config with batcherAddress }
  | gasConfig scalar overhead => { config with
      scalar := scalar.getD config.scalar
      overhead := overhead.getD config.overhead }
  | gasLimit limit => { config with gasLimit := limit }
  | unsafeBlockSigner _ => config
  | eip1559 denominator elasticity => { config with
      eip1559Denominator := some denominator
      eip1559Elasticity := some elasticity }
  | operatorFee scalar constant => { config with
      operatorFeeScalar := some scalar
      operatorFeeConstant := some constant }
  | minBaseFee fee => { config with minBaseFee := some fee }
  | daFootprintGasScalar scalar => { config with
      daFootprintGasScalar := some (if scalar = 0 then defaultDaFootprintGasScalar else scalar) }

def kind : SystemConfigUpdate → SystemConfigUpdateKind
  | batcher _ => .batcher
  | gasConfig _ _ => .gasConfig
  | gasLimit _ => .gasLimit
  | unsafeBlockSigner _ => .unsafeBlockSigner
  | eip1559 _ _ => .eip1559
  | operatorFee _ _ => .operatorFee
  | minBaseFee _ => .minBaseFee
  | daFootprintGasScalar _ => .daFootprintGasScalar

end SystemConfigUpdate

/-- The value of a word of thirty-two bytes. -/
def abiWord (data : Bytes) (i : Nat) : Nat := beValue ((data.drop (32 * i)).take 32)

/-- `abi_decode_validate`: a value that does not fit its type is refused. -/
def abiDecodeValidate {ε : Type} (bits : Nat) (data : Bytes) (i : Nat) (e : ε) :
    Except ε (BitVec bits) :=
  if abiWord data i < 2 ^ bits then .ok (BitVec.ofNat bits (abiWord data i)) else .error e

/-- The pointer and the length in front of the payload, and the size of it all. -/
def validateData (dataLen : Nat) (dataLength : U64) (data : Bytes) :
    Except UpdateDataError Unit := do
  reject (data.length ≠ dataLen) (.invalidDataLen data.length)
  let pointer ← abiDecodeValidate 64 data 0 .pointerDecodingError
  reject (pointer ≠ 32) (.invalidDataPointer pointer)
  let length ← abiDecodeValidate 64 data 1 .lengthDecodingError
  reject (length ≠ dataLength) (.invalidDataLength length)

/-- The payload of an update of one word. -/
def oneWord (bits : Nat) (data : Bytes) : Except UpdateDataError (BitVec bits) := do
  validateData 96 32 data
  abiDecodeValidate bits data 2 .payloadDecodingError

def checkEcotoneL1SystemConfigScalar (scalar : Bytes) : Bool :=
  if scalar.head? = some 0 then (scalar.drop 1).take 27 = List.replicate 27 0
  else if scalar.head? = some 1 then (scalar.drop 1).take 23 = List.replicate 23 0
  else false

namespace SystemConfigUpdate

/-- Since Ecotone an invalid scalar is ignored, and the overhead is zero. -/
def gasConfigOf (ecotoneActive : Bool) (overhead scalar : U256) : SystemConfigUpdate :=
  if ecotoneActive = true ∧ checkEcotoneL1SystemConfigScalar (beBytes 32 scalar.toNat) = false then
    .gasConfig none none
  else .gasConfig (some scalar) (some (if ecotoneActive then 0 else overhead))

def tryFrom (kind : SystemConfigUpdateKind) (ecotoneActive : Bool) (data : Bytes) :
    Except UpdateDataError SystemConfigUpdate :=
  match kind with
  | .batcher => (oneWord 160 data).map .batcher
  | .gasConfig => do
    validateData 128 64 data
    let overhead ← abiDecodeValidate 256 data 2 .payloadDecodingError
    let scalar ← abiDecodeValidate 256 data 3 .payloadDecodingError
    pure (gasConfigOf ecotoneActive overhead scalar)
  -- The limit is decoded as a whole word and then compared with the largest `u64`.
  | .gasLimit => (oneWord 64 data).map .gasLimit
  | .unsafeBlockSigner => (oneWord 160 data).map .unsafeBlockSigner
  | .eip1559 => (oneWord 64 data).map fun params =>
      .eip1559 (BitVec.ofNat 32 (params.toNat / 2 ^ 32)) (BitVec.ofNat 32 params.toNat)
  | .operatorFee => do
    validateData 96 32 data
    pure (.operatorFee (wordAt 32 data 84 88) (wordAt 64 data 88 96))
  | .minBaseFee => (oneWord 64 data).map .minBaseFee
  | .daFootprintGasScalar => (oneWord 16 data).map .daFootprintGasScalar

end SystemConfigUpdate

namespace Log

def validateTopic (log : Log) : Except LogProcessingError Unit := do
  reject (log.topics.length < 3) (.invalidTopicLen log.topics.length)
  reject (log.topics.head? ≠ some SystemConfigUpdate.topic) .invalidTopic

def validateVersion (log : Log) : Except LogProcessingError Unit :=
  let version := log.topics.getD 1 0
  reject (version ≠ SystemConfigUpdate.eventVersion0) (.unsupportedVersion version)

/-- The kind is read from the last eight bytes of the topic. -/
def updateType (log : Log) : Except LogProcessingError SystemConfigUpdateKind :=
  let ty : U64 := (log.topics.getD 2 0).setWidth 64
  match SystemConfigUpdateKind.ofU64 ty with
  | some kind => .ok kind
  | none => .error (.invalidSystemConfigUpdateType ty)

def build (ecotoneActive : Bool) (log : Log) :
    Except SystemConfigUpdateError SystemConfigUpdate := do
  log.validateTopic.mapError .logProcessing
  log.validateVersion.mapError .logProcessing
  let kind ← log.updateType.mapError .logProcessing
  (SystemConfigUpdate.tryFrom kind ecotoneActive log.data).mapError (.update kind)

end Log

namespace Calldata.SystemConfig

/-- One log that is taken for an update: the configuration after it, and its kind. -/
def processConfigUpdateLog (ecotoneActive : Bool) (config : SystemConfig) (log : Log) :
    SystemConfig × Except SystemConfigUpdateError SystemConfigUpdateKind :=
  match log.build ecotoneActive with
  | .ok update => (update.apply config, .ok update.kind)
  | .error e => (config, .error e)

/-- The logs of the receipts that can be updates. -/
def updateLogs (l1SystemConfigAddress : Address) (receipts : List Receipt) : List Log :=
  ((receipts.filter fun r => r.status ≠ .eip658 false).flatMap Receipt.logs).filter fun log =>
    log.address = l1SystemConfigAddress ∧ log.topics.head? = some SystemConfigUpdate.topic

/-- The configuration after some logs, with the kinds of the updates and the errors. -/
def updateWithLogs (ecotoneActive : Bool) (config : SystemConfig) :
    List Log → SystemConfig × List SystemConfigUpdateKind × List SystemConfigUpdateError
  | [] => (config, [], [])
  | log :: logs =>
    let (config, result) := processConfigUpdateLog ecotoneActive config log
    let (config, updates, errors) := updateWithLogs ecotoneActive config logs
    match result with
    | .ok kind => (config, kind :: updates, errors)
    | .error e => (config, updates, e :: errors)

def updateWithReceipts (config : SystemConfig) (receipts : List Receipt)
    (l1SystemConfigAddress : Address) (ecotoneActive : Bool) :
    SystemConfig × List SystemConfigUpdateKind × List SystemConfigUpdateError :=
  updateWithLogs ecotoneActive config (updateLogs l1SystemConfigAddress receipts)

end Calldata.SystemConfig
end SciChain.Derive
