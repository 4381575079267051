import SciChain.Engine.Attributes
import SciChain.Library.Dialogue

namespace SciChain.Engine
open Derive Library

abbrev PayloadId := BitVec 64

/-- A failed call: the execution layer answered with an error, or no answer came. -/
inductive RpcError where
  | errorResp (code : Int) (message : String)
  | transport (message : String)
  deriving DecidableEq, Repr

def invalidForkChoiceStateError : Int := -38002

def RpcError.isInvalidForkchoiceState : RpcError → Bool
  | .errorResp code _ => code = invalidForkChoiceStateError
  | .transport _ => false

inductive PayloadStatusEnum where
  | valid
  | invalid (validationError : String)
  | syncing
  | accepted
  deriving DecidableEq, Repr

structure ForkchoiceUpdated where
  payloadStatus : PayloadStatusEnum
  payloadId : Option PayloadId
  deriving DecidableEq, Repr

/-- The fields of an execution payload. Those kept in `rest` are read only by the
conversion into a block. -/
structure PayloadBody where
  blockHash : B256
  parentHash : B256
  blockNumber : U64
  timestamp : U64
  rest : Bytes
  deriving DecidableEq, Repr

inductive PayloadVersion where
  | v1 | v2 | v3 | v4
  deriving DecidableEq, Repr

structure BaseExecutionPayload extends PayloadBody where
  version : PayloadVersion
  deriving DecidableEq, Repr

structure BaseExecutionPayloadEnvelope where
  parentBeaconBlockRoot : Option B256
  executionPayload : BaseExecutionPayload
  deriving DecidableEq, Repr

/-- An answer to `engine_getPayload`. Only the second version of the call tells payloads
with withdrawals from those without, and only the third and fourth have the root. -/
structure PayloadResponse where
  body : PayloadBody
  hasWithdrawals : Bool
  parentBeaconBlockRoot : B256
  deriving DecidableEq, Repr

inductive EngineForkchoiceVersion where
  | v2 | v3
  deriving DecidableEq, Repr

def EngineForkchoiceVersion.fromCfg (cfg : EngineConfig) (timestamp : U64) :
    EngineForkchoiceVersion :=
  if cfg.rollup.isEcotoneActive timestamp then .v3 else .v2

inductive EngineGetPayloadVersion where
  | v2 | v3 | v4 | v5
  deriving DecidableEq, Repr

def EngineGetPayloadVersion.fromCfg (cfg : EngineConfig) (timestamp : U64) :
    EngineGetPayloadVersion :=
  if cfg.isBaseAzulActive timestamp then .v5
  else if cfg.rollup.isIsthmusActive timestamp then .v4
  else if cfg.rollup.isEcotoneActive timestamp then .v3
  else .v2

inductive BlockId where
  | number (number : U64)
  | hash (hash : B256)
  | latest
  | safe
  | finalized
  deriving DecidableEq, Repr

/-- `BasePayloadError`: why a payload is not a block. -/
inductive BasePayloadError where
  | conversion (message : String)
  deriving DecidableEq, Repr

/-- Code of other crates on payloads and transactions. `tryIntoBlock` has the beacon root
as its second argument for the versions of the payload that come with a sidecar. -/
structure Codecs extends TxReader where
  tryIntoBlock : BaseExecutionPayload → Option B256 → Except BasePayloadError BaseBlock

/-- What to do about an error of a task. -/
inductive EngineTaskErrorSeverity where
  | temporary
  | critical
  | reset
  | flush
  deriving DecidableEq, Repr

inductive SynchronizeTaskError where
  | forkchoiceUpdateFailed (error : RpcError)
  | finalizedAheadOfUnsafe (unsafeNumber finalizedNumber : U64)
  | invalidForkchoiceState
  | unexpectedPayloadStatus (status : PayloadStatusEnum)
  deriving DecidableEq, Repr

def SynchronizeTaskError.severity : SynchronizeTaskError → EngineTaskErrorSeverity
  | .finalizedAheadOfUnsafe _ _ => .critical
  | .forkchoiceUpdateFailed _ => .temporary
  | .unexpectedPayloadStatus _ => .temporary
  | .invalidForkchoiceState => .reset

inductive InsertTaskError where
  | fromBlockError (error : BasePayloadError)
  | insertFailed (error : RpcError)
  | unexpectedPayloadStatus (status : PayloadStatusEnum)
  | l2BlockInfoConstruction (error : FromBlockError)
  | forkchoiceUpdateFailed (error : SynchronizeTaskError)
  deriving DecidableEq, Repr

def InsertTaskError.severity : InsertTaskError → EngineTaskErrorSeverity
  | .fromBlockError _ => .critical
  | .l2BlockInfoConstruction _ => .critical
  | .insertFailed _ => .temporary
  | .unexpectedPayloadStatus _ => .temporary
  | .forkchoiceUpdateFailed inner => inner.severity

inductive EngineBuildError where
  | finalizedAheadOfUnsafe (unsafeNumber finalizedNumber : U64)
  | attributesInsertionFailed (error : RpcError)
  | forkchoiceStateInvalid
  | invalidPayload (validationError : String)
  | unexpectedPayloadStatus (status : PayloadStatusEnum)
  | missingPayloadId
  | engineSyncing
  deriving DecidableEq, Repr

inductive BuildTaskError where
  | engineBuildError (error : EngineBuildError)
  | mpscSend
  deriving DecidableEq, Repr

def BuildTaskError.severity : BuildTaskError → EngineTaskErrorSeverity
  | .engineBuildError (.finalizedAheadOfUnsafe _ _) => .critical
  | .engineBuildError (.invalidPayload _) => .flush
  | .engineBuildError (.attributesInsertionFailed _) => .temporary
  | .engineBuildError (.unexpectedPayloadStatus _) => .temporary
  | .engineBuildError .missingPayloadId => .temporary
  | .engineBuildError .engineSyncing => .temporary
  | .engineBuildError .forkchoiceStateInvalid => .reset
  | .mpscSend => .critical

/-- Why a sealed payload gives no block reference. -/
inductive PayloadRefError where
  | payload (error : BasePayloadError)
  | block (error : FromBlockError)
  deriving DecidableEq, Repr

inductive SealTaskError where
  | payloadInsertionFailed (error : InsertTaskError)
  | getPayloadFailed (error : RpcError)
  | depositOnlyPayloadFailed
  | depositOnlyPayloadReattemptFailed
  | holoceneInvalidFlush
  | fromBlock (error : PayloadRefError)
  | mpscSend
  | unsafeHeadChangedSinceBuild
  deriving DecidableEq, Repr

def SealTaskError.severity : SealTaskError → EngineTaskErrorSeverity
  | .payloadInsertionFailed inner => inner.severity
  | .getPayloadFailed _ => .temporary
  | .holoceneInvalidFlush => .flush
  | .unsafeHeadChangedSinceBuild => .reset
  | .depositOnlyPayloadReattemptFailed => .critical
  | .depositOnlyPayloadFailed => .critical
  | .fromBlock _ => .critical
  | .mpscSend => .critical

/-- What is sent to the requester of a task. -/
inductive Message where
  | payloadId (id : PayloadId)
  | sealed (result : Except SealTaskError BaseExecutionPayloadEnvelope)

/-- The calls of the tasks. A forkchoice message has the hashes of `heads`; the heads are
kept for what is said about them. A message to the requester of a task is a call too: its
channel may be closed. -/
inductive Call where
  | newPayload (payload : BaseExecutionPayload) (parentBeaconBlockRoot : Option B256)
  | forkchoiceUpdated (version : EngineForkchoiceVersion) (heads : EngineSyncState)
      (attributes : Option BasePayloadAttributes)
  | getPayload (version : EngineGetPayloadVersion) (id : PayloadId)
  | l2BlockByLabel (number : U64)
  | getL2Block (id : BlockId)
  | getL1Block (hash : B256)
  | send (message : Message)

/-- The answer to a message is whether it was taken. -/
abbrev Call.Answer : Call → Type
  | .newPayload _ _ => Except RpcError PayloadStatusEnum
  | .forkchoiceUpdated _ _ _ => Except RpcError ForkchoiceUpdated
  | .getPayload _ _ => Except RpcError PayloadResponse
  | .l2BlockByLabel _ => Except RpcError (Option RpcBlock)
  | .getL2Block _ => Except RpcError (Option RpcBlock)
  | .getL1Block _ => Except RpcError (Option BlockInfo)
  | .send _ => Bool

/-- A task works on the engine state and talks to the execution layer. -/
abbrev Task (ε α : Type) := Procedure Call Call.Answer EngineState ε α

namespace Task

variable {ε : Type}

def newPayload (payload : BaseExecutionPayload) (root : Option B256) :
    Task ε (Except RpcError PayloadStatusEnum) := Procedure.ask (Call.newPayload payload root)

def forkchoiceUpdated (version : EngineForkchoiceVersion) (heads : EngineSyncState)
    (attributes : Option BasePayloadAttributes) : Task ε (Except RpcError ForkchoiceUpdated) :=
  Procedure.ask (Call.forkchoiceUpdated version heads attributes)

def getPayload (version : EngineGetPayloadVersion) (id : PayloadId) :
    Task ε (Except RpcError PayloadResponse) := Procedure.ask (Call.getPayload version id)

def l2BlockByLabel (number : U64) : Task ε (Except RpcError (Option RpcBlock)) :=
  Procedure.ask (Call.l2BlockByLabel number)

def getL2Block (id : BlockId) : Task ε (Except RpcError (Option RpcBlock)) :=
  Procedure.ask (Call.getL2Block id)

def send (message : Message) : Task ε Bool := Procedure.ask (Call.send message)

end Task
end SciChain.Engine
