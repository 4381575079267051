import SciChain.Engine.Queue

namespace SciChain.Node
open Derive Engine

/-! What the actors of the node send to each other. -/

/-- A signal to the derivation pipeline. -/
inductive Signal where
  | reset (l2SafeHead : L2BlockInfo)
  | activation (l2SafeHead : L2BlockInfo)
  | flushChannel
  deriving DecidableEq, Repr

inductive DerivationActorRequest where
  | processEngineSyncCompletion (safeHead : L2BlockInfo)
  | processEngineSafeHeadUpdate (safeHead : L2BlockInfo)
  | processEngineSignal (signal : Signal)
  | processFinalizedL1Block (finalized : BlockInfo)
  | processL1HeadUpdate (l1Head : BlockInfo)
  deriving DecidableEq, Repr

/-- Who waits for the end of a reset. -/
inductive Requester where
  | derivation
  | sequencer
  deriving DecidableEq, Repr

/-- The requests of `EngineProcessor`. All that come with a channel for their result have
it. -/
inductive EngineProcessingRequest where
  | build (attributes : AttributesWithParent)
  | getPayload (id : PayloadId) (attributes : AttributesWithParent)
  | processSafeL2Signal (input : ConsolidateInput)
  | processDelegatedForkchoiceUpdate (update : DelegatedForkchoiceUpdate)
  | processFinalizedL2BlockNumber (number : U64)
  | processUnsafeL2Block (envelope : BaseExecutionPayloadEnvelope)
  | processLocalUnsafeL2Block (envelope : BaseExecutionPayloadEnvelope)
  | reset (requester : Requester)
  | sealing (id : PayloadId) (attributes : AttributesWithParent)
  deriving DecidableEq, Repr

inductive EngineError where
  | channelClosed
  | engineReset (error : EngineResetError)
  | engineTask (error : EngineTaskErrors)
  deriving DecidableEq, Repr

/-- Why a request to the engine was not served. The source keeps the text of the error of a
reset. -/
inductive EngineClientError where
  | requestError (message : String)
  | responseError (message : String)
  | resetForkchoiceError (error : EngineError)
  | elSyncing
  deriving DecidableEq, Repr

end SciChain.Node
