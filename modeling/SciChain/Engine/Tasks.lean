import SciChain.Engine.Client

namespace SciChain.Engine
open Derive Library

/-! The tasks, each as one attempt. `EngineTask::execute` repeats an attempt that fails with
a temporary error. -/

def checkForkchoiceUpdatedStatus : PayloadStatusEnum → Except SynchronizeTaskError Bool
  | .valid => .ok true
  | .syncing => .ok false
  | status => .error (.unexpectedPayloadStatus status)

def SynchronizeTaskError.ofRpc (e : RpcError) : SynchronizeTaskError :=
  if e.isInvalidForkchoiceState then .invalidForkchoiceState else .forkchoiceUpdateFailed e

/-- `SynchronizeTask`: a forkchoice update without attributes. The heads move only if the
execution layer has confirmed them. -/
def synchronize (update : EngineSyncStateUpdate) : Task SynchronizeTaskError Unit := do
  let state ← Procedure.get
  let newSyncState := state.syncState.applyUpdate update
  if state.syncState ≠ default ∧ state.syncState = newSyncState then
    pure ()
  else if newSyncState.unsafeHead.blockInfo.number <
      newSyncState.finalizedHead.blockInfo.number then
    Procedure.fail (.finalizedAheadOfUnsafe newSyncState.unsafeHead.blockInfo.number
      newSyncState.finalizedHead.blockInfo.number)
  else
    let response ← Task.forkchoiceUpdated .v3 newSyncState none
    let updated ← Procedure.lift (response.mapError .ofRpc)
    let confirmed ← Procedure.lift (checkForkchoiceUpdatedStatus updated.payloadStatus)
    if confirmed then
      Procedure.set ⟨newSyncState, true⟩
    else
      pure ()

inductive InsertPayloadSafety where
  | unsafePayload
  | safePayload
  deriving DecidableEq, Repr

def InsertPayloadSafety.advancesSafeHead : InsertPayloadSafety → Bool
  | .unsafePayload => false
  | .safePayload => true

def checkNewPayloadStatus : PayloadStatusEnum → Bool
  | .valid => true
  | .syncing => true
  | .invalid _ => false
  | .accepted => false

/-- Stale payloads and those that do not build on the unsafe head are passed over, unless
they come from derivation. -/
def isUnsafePayloadApplicable (safety : InsertPayloadSafety) (state : EngineState)
    (newUnsafeRef : L2BlockInfo) : Bool :=
  let unsafeHead := state.syncState.unsafeHead.blockInfo
  let new := newUnsafeRef.blockInfo
  safety.advancesSafeHead ||
    (new.hash ≠ unsafeHead.hash ∧ unsafeHead.number < new.number ∧
      (new.number = satAdd unsafeHead.number 1 → new.parentHash = unsafeHead.hash))

/-- The beacon root of the sidecar; the first versions of a payload have none. -/
def PayloadVersion.sidecar (version : PayloadVersion) (root : Option B256) : Option B256 :=
  match version with
  | .v1 => none
  | .v2 => none
  | .v3 => some (root.getD 0)
  | .v4 => some (root.getD 0)

section Payloads

variable (codecs : Codecs) (cfg : EngineConfig)

def Codecs.intoBlock (payload : BaseExecutionPayload) (root : Option B256) :
    Except BasePayloadError BaseBlock :=
  codecs.tryIntoBlock payload (payload.version.sidecar root)

def blockInfoOf (block : BaseBlock) : Except FromBlockError L2BlockInfo :=
  L2BlockInfo.fromBlockAndGenesis codecs.decodeCalldata block cfg.rollup.genesis

/-- The reference of the block of a payload. -/
def newBlockRef (envelope : BaseExecutionPayloadEnvelope) : Except InsertTaskError L2BlockInfo := do
  let block ← (codecs.intoBlock envelope.executionPayload envelope.parentBeaconBlockRoot).mapError
    .fromBlockError
  (blockInfoOf codecs cfg block).mapError .l2BlockInfoConstruction

/-- The heads that an inserted payload moves. -/
def insertUpdate (safety : InsertPayloadSafety) (ref : L2BlockInfo) : EngineSyncStateUpdate where
  unsafeHead := some ref
  localSafeHead := if safety.advancesSafeHead then some ref else none
  safeHead := if safety.advancesSafeHead then some ref else none

/-- `InsertTask`. -/
def insert (envelope : BaseExecutionPayloadEnvelope) (safety : InsertPayloadSafety) :
    Task InsertTaskError Unit := do
  let ref ← Procedure.lift (newBlockRef codecs cfg envelope)
  let state ← Procedure.get
  if isUnsafePayloadApplicable safety state ref then
    let payload := envelope.executionPayload
    let response ← Task.newPayload payload (payload.version.sidecar envelope.parentBeaconBlockRoot)
    let status ← Procedure.lift (response.mapError .insertFailed)
    if checkNewPayloadStatus status then
      (synchronize (insertUpdate safety ref)).mapError .forkchoiceUpdateFailed
    else
      Procedure.fail (.unexpectedPayloadStatus status)
  else
    pure ()

end Payloads

def validateForkchoiceStatus : PayloadStatusEnum → Except EngineBuildError Unit
  | .valid => .ok ()
  | .invalid validationError => .error (.invalidPayload validationError)
  | .syncing => .error .engineSyncing
  | .accepted => .error (.unexpectedPayloadStatus .accepted)

def EngineBuildError.ofRpc (e : RpcError) : EngineBuildError :=
  if e.isInvalidForkchoiceState then .forkchoiceStateInvalid else .attributesInsertionFailed e

/-- The heads with the parent of the attributes as the head to build on. -/
def buildHeads (state : EngineState) (attributes : AttributesWithParent) : EngineSyncState :=
  state.syncState.applyUpdate { unsafeHead := some attributes.parent }

section Building

variable (codecs : Codecs) (cfg : EngineConfig)

def startBuild (attributes : AttributesWithParent) : Task EngineBuildError PayloadId := do
  let state ← Procedure.get
  let unsafeNumber := state.syncState.unsafeHead.blockInfo.number
  let finalizedNumber := state.syncState.finalizedHead.blockInfo.number
  if unsafeNumber < finalizedNumber then
    Procedure.fail (.finalizedAheadOfUnsafe unsafeNumber finalizedNumber)
  else
    let version := EngineForkchoiceVersion.fromCfg cfg attributes.attributes.timestamp
    let response ← Task.forkchoiceUpdated version (buildHeads state attributes)
      (some attributes.attributes)
    let updated ← Procedure.lift (response.mapError .ofRpc)
    Procedure.lift (validateForkchoiceStatus updated.payloadStatus)
    match updated.payloadId with
    | none => Procedure.fail .missingPayloadId
    | some id => pure id

/-- `BuildTask`; `hasChannel` is whether somebody waits for the id of the payload. -/
def build (attributes : AttributesWithParent) (hasChannel : Bool) :
    Task BuildTaskError PayloadId := do
  let id ← (startBuild cfg attributes).mapError .engineBuildError
  if hasChannel then
    let taken ← Task.send (.payloadId id)
    if taken then pure id else Procedure.fail .mpscSend
  else
    pure id

/-- The envelope of a built payload. The fifth version of the call returns no beacon root:
it is taken from the attributes. -/
def envelopeOf (version : EngineGetPayloadVersion) (attributes : AttributesWithParent)
    (response : PayloadResponse) : BaseExecutionPayloadEnvelope :=
  match version with
  | .v5 => ⟨attributes.attributes.parentBeaconBlockRoot, ⟨response.body, .v4⟩⟩
  | .v4 => ⟨some response.parentBeaconBlockRoot, ⟨response.body, .v4⟩⟩
  | .v3 => ⟨some response.parentBeaconBlockRoot, ⟨response.body, .v3⟩⟩
  | .v2 => ⟨none, ⟨response.body, if response.hasWithdrawals then .v2 else .v1⟩⟩

/-- `seal_payload`, and `get_payload` of the task that does not insert. -/
def sealPayload (id : PayloadId) (attributes : AttributesWithParent) :
    Task SealTaskError BaseExecutionPayloadEnvelope := do
  let version := EngineGetPayloadVersion.fromCfg cfg attributes.attributes.timestamp
  let response ← Task.getPayload version id
  let payload ← Procedure.lift (response.mapError .getPayloadFailed)
  pure (envelopeOf version attributes payload)

/-- `from_payload_and_genesis`. -/
def payloadRef (payload : BaseExecutionPayload) (root : Option B256) :
    Except PayloadRefError L2BlockInfo := do
  let block ← (codecs.intoBlock payload root).mapError .payload
  (blockInfoOf codecs cfg block).mapError .block

inductive BuildAndSealError where
  | build (error : BuildTaskError)
  | sealing (error : SealTaskError)
  deriving DecidableEq, Repr

/-- `insert_payload`, with the second attempt that Holocene makes as an argument. -/
def insertPayload (reattempt : Task BuildAndSealError Unit) (attributes : AttributesWithParent)
    (safety : InsertPayloadSafety) (envelope : BaseExecutionPayloadEnvelope) :
    Task SealTaskError Unit := do
  let inserted ← (insert codecs cfg envelope safety).outcome
  match inserted with
  | .ok () => pure ()
  | .error (.unexpectedPayloadStatus status) =>
    if attributes.isDepositsOnly then
      Procedure.fail .depositOnlyPayloadFailed
    else if cfg.rollup.isHoloceneActive attributes.attributes.timestamp then
      let reattempted ← reattempt.outcome
      match reattempted with
      | .ok () => Procedure.fail .holoceneInvalidFlush
      | .error _ => Procedure.fail .depositOnlyPayloadReattemptFailed
    else
      Procedure.fail (.payloadInsertionFailed (.unexpectedPayloadStatus status))
  | .error e => Procedure.fail (.payloadInsertionFailed e)

def sealAndCanonicalizeBlock (reattempt : Task BuildAndSealError Unit) (id : PayloadId)
    (attributes : AttributesWithParent) (safety : InsertPayloadSafety) :
    Task SealTaskError BaseExecutionPayloadEnvelope := do
  let envelope ← sealPayload cfg id attributes
  let _ ← Procedure.lift ((payloadRef codecs cfg envelope.executionPayload
    attributes.attributes.parentBeaconBlockRoot).mapError .fromBlock)
  insertPayload codecs cfg reattempt attributes safety envelope
  pure envelope

/-- With a channel the requester gets the result, also an error, and the task succeeds. -/
def sendChannelResultOrGetError (hasChannel : Bool)
    (result : Except SealTaskError BaseExecutionPayloadEnvelope) : Task SealTaskError Unit := do
  if hasChannel then
    let taken ← Task.send (.sealed result)
    if taken then pure () else Procedure.fail .mpscSend
  else
    let _ ← Procedure.lift result
    pure ()

def sealWith (reattempt : Task BuildAndSealError Unit) (id : PayloadId)
    (attributes : AttributesWithParent) (safety : InsertPayloadSafety) (hasChannel : Bool) :
    Task SealTaskError Unit := do
  let result ← (sealAndCanonicalizeBlock codecs cfg reattempt id attributes safety).outcome
  sendChannelResultOrGetError hasChannel result

def buildAndSealWith (reattempt : Task BuildAndSealError Unit) (attributes : AttributesWithParent)
    (safety : InsertPayloadSafety) : Task BuildAndSealError Unit := do
  let id ← (build cfg attributes false).mapError .build
  (sealWith codecs cfg reattempt id attributes safety false).mapError .sealing

/-- The second attempt, with the deposits of the attributes only. It never makes a third
one, so what it has as its own second attempt does not matter. -/
def reattemptWithDeposits (attributes : AttributesWithParent) (safety : InsertPayloadSafety) :
    Task BuildAndSealError Unit :=
  buildAndSealWith codecs cfg (Procedure.fail (.sealing .depositOnlyPayloadFailed))
    attributes.asDepositsOnly safety

def buildAndSeal (attributes : AttributesWithParent) (safety : InsertPayloadSafety) :
    Task BuildAndSealError Unit :=
  buildAndSealWith codecs cfg (reattemptWithDeposits codecs cfg attributes safety) attributes safety

def sealTask (id : PayloadId) (attributes : AttributesWithParent) (safety : InsertPayloadSafety)
    (hasChannel : Bool) : Task SealTaskError Unit :=
  sealWith codecs cfg (reattemptWithDeposits codecs cfg attributes safety) id attributes safety
    hasChannel

/-- `GetPayloadTask`: the payload goes to the requester and is not inserted. -/
def getPayloadTask (id : PayloadId) (attributes : AttributesWithParent) (hasChannel : Bool) :
    Task SealTaskError Unit := do
  let state ← Procedure.get
  let unsafeInfo := state.syncState.unsafeHead.blockInfo
  let parentInfo := attributes.parent.blockInfo
  if unsafeInfo.hash ≠ parentInfo.hash ∨ unsafeInfo.number ≠ parentInfo.number then
    sendChannelResultOrGetError hasChannel (.error .unsafeHeadChangedSinceBuild)
  else
    let result ← (sealPayload cfg id attributes).outcome
    sendChannelResultOrGetError hasChannel result

end Building

/-- Derived attributes, or a safe block that another node has derived. -/
inductive ConsolidateInput where
  | attributes (derived : AttributesWithParent)
  | blockInfo (info : L2BlockInfo)
  deriving DecidableEq, Repr

namespace ConsolidateInput

def l2BlockNumber : ConsolidateInput → U64
  | .attributes derived => derived.blockNumber
  | .blockInfo info => info.blockInfo.number

def isConsistentWithBlock (codecs : Codecs) (cfg : EngineConfig) (block : RpcBlock) :
    ConsolidateInput → Bool
  | .attributes derived => (AttributesMatch.check cfg codecs.toTxReader derived block).isOk
  | .blockInfo info => block.reportedHash = info.blockInfo.hash

def isAttributesLastInSpan : ConsolidateInput → Bool
  | .attributes derived => derived.isLastInSpan
  | .blockInfo _ => false

end ConsolidateInput

inductive ConsolidateTaskError where
  | missingUnsafeL2Block (number : U64)
  | failedToFetchUnsafeL2Block
  | buildTaskFailed (error : BuildTaskError)
  | sealTaskFailed (error : SealTaskError)
  | forkchoiceUpdateFailed (error : SynchronizeTaskError)
  deriving DecidableEq, Repr

namespace ConsolidateTaskError

def ofBuildAndSeal : BuildAndSealError → ConsolidateTaskError
  | .build e => .buildTaskFailed e
  | .sealing e => .sealTaskFailed e

def severity : ConsolidateTaskError → EngineTaskErrorSeverity
  | .missingUnsafeL2Block _ => .reset
  | .failedToFetchUnsafeL2Block => .temporary
  | .buildTaskFailed inner => inner.severity
  | .sealTaskFailed inner => inner.severity
  | .forkchoiceUpdateFailed inner => inner.severity

end ConsolidateTaskError

/-- A safe head that leaves the unsafe head where it is. -/
def safeUpdate (info : L2BlockInfo) : EngineSyncStateUpdate where
  localSafeHead := some info
  safeHead := some info

/-- A safe head that is the unsafe head as well. -/
def safeAndUnsafeUpdate (info : L2BlockInfo) : EngineSyncStateUpdate where
  unsafeHead := some info
  localSafeHead := some info
  safeHead := some info

section Consolidation

variable (codecs : Codecs) (cfg : EngineConfig)

def reconcileUnsafeToSafe : ConsolidateInput → Task ConsolidateTaskError Unit
  | .attributes derived =>
    (buildAndSeal codecs cfg derived .safePayload).mapError .ofBuildAndSeal
  | .blockInfo safeL2 =>
    (synchronize (safeAndUnsafeUpdate safeL2)).mapError .forkchoiceUpdateFailed

/-- A safe head that the execution layer has already. Within a span batch it is not told
of it. -/
def adoptSafe (input : ConsolidateInput) (info : L2BlockInfo) : Task ConsolidateTaskError Unit := do
  if input.isAttributesLastInSpan then
    (synchronize (safeUpdate info)).mapError .forkchoiceUpdateFailed
  else
    let state ← Procedure.get
    Procedure.set { state with syncState := state.syncState.applyUpdate (safeUpdate info) }

/-- What the execution layer has in the place of the safe block. -/
def fetchUnsafe (number : U64) : Task ConsolidateTaskError RpcBlock := do
  let response ← Task.l2BlockByLabel number
  match response with
  | .ok (some block) => pure block
  | .ok none => Procedure.fail (.missingUnsafeL2Block number)
  | .error _ => Procedure.fail .failedToFetchUnsafeL2Block

def consolidate (input : ConsolidateInput) : Task ConsolidateTaskError Unit := do
  let block ← fetchUnsafe input.l2BlockNumber
  if input.isConsistentWithBlock codecs cfg block then
    match blockInfoOf codecs cfg block.intoConsensus with
    | .ok info => adoptSafe input info
    | .error _ => reconcileUnsafeToSafe codecs cfg input
  else
    reconcileUnsafeToSafe codecs cfg input

def consolidateTask (input : ConsolidateInput) : Task ConsolidateTaskError Unit := do
  let state ← Procedure.get
  let safeHeadNumber :=
    match input with
    | .attributes _ => state.syncState.safeHead.blockInfo.number
    | .blockInfo info => info.blockInfo.number
  if safeHeadNumber < state.syncState.unsafeHead.blockInfo.number then
    consolidate codecs cfg input
  else
    reconcileUnsafeToSafe codecs cfg input

end Consolidation

inductive FinalizeTaskError where
  | blockNotSafe
  | blockNotFound (number : U64)
  | fromBlock (error : FromBlockError)
  | transportError (error : RpcError)
  | forkchoiceUpdateFailed (error : SynchronizeTaskError)
  deriving DecidableEq, Repr

def FinalizeTaskError.severity : FinalizeTaskError → EngineTaskErrorSeverity
  | .blockNotSafe => .critical
  | .blockNotFound _ => .critical
  | .fromBlock _ => .critical
  | .transportError _ => .temporary
  | .forkchoiceUpdateFailed inner => inner.severity

inductive DelegatedForkchoiceTaskError where
  | consolidate (error : ConsolidateTaskError)
  | finalize (error : FinalizeTaskError)
  deriving DecidableEq, Repr

def DelegatedForkchoiceTaskError.severity : DelegatedForkchoiceTaskError → EngineTaskErrorSeverity
  | .consolidate inner => inner.severity
  | .finalize inner => inner.severity

/-- The labels of the node that is followed. -/
structure DelegatedForkchoiceUpdate where
  safeL2 : L2BlockInfo
  finalizedL2Number : Option U64
  deriving DecidableEq, Repr

section Labels

variable (codecs : Codecs) (cfg : EngineConfig)

def fetchFinalized (number : U64) : Task FinalizeTaskError L2BlockInfo := do
  let response ← Task.getL2Block (.number number)
  let found ← Procedure.lift (response.mapError .transportError)
  match found with
  | none => Procedure.fail (.blockNotFound number)
  | some block =>
    Procedure.lift ((blockInfoOf codecs cfg block.intoConsensus).mapError .fromBlock)

def finalizeTask (number : U64) : Task FinalizeTaskError Unit := do
  let state ← Procedure.get
  if number < state.syncState.finalizedHead.blockInfo.number then
    pure ()
  else if state.syncState.safeHead.blockInfo.number < number then
    Procedure.fail .blockNotSafe
  else
    let info ← fetchFinalized codecs cfg number
    (synchronize { finalizedHead := some info }).mapError .forkchoiceUpdateFailed

def delegatedForkchoiceTask (update : DelegatedForkchoiceUpdate) :
    Task DelegatedForkchoiceTaskError Unit := do
  (consolidateTask codecs cfg (.blockInfo update.safeL2)).mapError .consolidate
  let state ← Procedure.get
  let actualSafe := state.syncState.safeHead.blockInfo.number
  match update.finalizedL2Number with
  | none => pure ()
  | some remoteFinalized =>
    let target := if actualSafe < remoteFinalized then actualSafe else remoteFinalized
    if target ≤ state.syncState.finalizedHead.blockInfo.number then
      pure ()
    else
      (finalizeTask codecs cfg target).mapError .finalize

end Labels

inductive EngineTask where
  | insert (envelope : BaseExecutionPayloadEnvelope) (safety : InsertPayloadSafety)
  | build (attributes : AttributesWithParent) (hasChannel : Bool)
  | sealing (id : PayloadId) (attributes : AttributesWithParent) (safety : InsertPayloadSafety)
      (hasChannel : Bool)
  | getPayload (id : PayloadId) (attributes : AttributesWithParent) (hasChannel : Bool)
  | consolidate (input : ConsolidateInput)
  | delegatedForkchoice (update : DelegatedForkchoiceUpdate)
  | finalize (number : U64)
  deriving DecidableEq, Repr

inductive EngineTaskErrors where
  | insert (error : InsertTaskError)
  | build (error : BuildTaskError)
  | sealing (error : SealTaskError)
  | consolidate (error : ConsolidateTaskError)
  | delegatedForkchoice (error : DelegatedForkchoiceTaskError)
  | finalize (error : FinalizeTaskError)
  deriving DecidableEq, Repr

def EngineTaskErrors.severity : EngineTaskErrors → EngineTaskErrorSeverity
  | .insert inner => inner.severity
  | .build inner => inner.severity
  | .sealing inner => inner.severity
  | .consolidate inner => inner.severity
  | .delegatedForkchoice inner => inner.severity
  | .finalize inner => inner.severity

namespace EngineTask

variable (codecs : Codecs) (cfg : EngineConfig)

/-- One attempt at a task. -/
def executeInner : EngineTask → Task EngineTaskErrors Unit
  | .insert envelope safety => (Engine.insert codecs cfg envelope safety).mapError .insert
  | .build attributes hasChannel => do
    let _ ← (Engine.build cfg attributes hasChannel).mapError .build
    pure ()
  | .sealing id attributes safety hasChannel =>
    (sealTask codecs cfg id attributes safety hasChannel).mapError .sealing
  | .getPayload id attributes hasChannel =>
    (getPayloadTask cfg id attributes hasChannel).mapError .sealing
  | .consolidate input => (consolidateTask codecs cfg input).mapError .consolidate
  | .delegatedForkchoice update =>
    (delegatedForkchoiceTask codecs cfg update).mapError .delegatedForkchoice
  | .finalize number => (finalizeTask codecs cfg number).mapError .finalize

/-- The loop of `EngineTask::execute`, for at most so many attempts. Its outcome is open if
they are used up. -/
def execute : ℕ → EngineTask → Task Empty (Option (Except EngineTaskErrors Unit))
  | 0, _ => pure none
  | n + 1, task => do
    let result ← (task.executeInner codecs cfg).outcome
    match result with
    | .ok () => pure (some (.ok ()))
    | .error e => if e.severity = .temporary then execute n task else pure (some (.error e))

end EngineTask

/-- The engine with all it has exchanged with the execution layer so far. -/
structure Session where
  state : EngineState
  log : List (Exchange Call Call.Answer)

/-- An execution layer that answers `answers n` to the `n`th call executes a task, for so
many attempts. What the task returns is for its caller: the queue goes on either way. -/
def Session.perform (codecs : Codecs) (cfg : EngineConfig) (answers : ℕ → (c : Call) → c.Answer)
    (job : EngineTask × ℕ) (session : Session) : Except Empty Session :=
  let dialogue := job.1.execute codecs cfg job.2 session.state
  .ok { state := (dialogue.value answers session.log.length).2
        log := session.log ++ dialogue.exchanges answers session.log.length }

end SciChain.Engine
