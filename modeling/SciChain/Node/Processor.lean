import SciChain.Node.Messages

namespace SciChain.Node
open Derive Engine Library

inductive NodeMode where
  | validator
  | sequencer
  deriving DecidableEq, Repr

/-- What the processor asks of the world: calls to the execution layer, messages to the
derivation actor, the next request, and the answer to who has asked for a reset. The answer
to what is sent is whether it was taken. -/
inductive NodeCall where
  | engine (call : Call)
  | tell (request : DerivationActorRequest)
  | receive
  | respond (requester : Requester) (result : Except EngineClientError Unit)

abbrev NodeCall.Answer : NodeCall → Type
  | .engine call => call.Answer
  | .tell _ => Bool
  | .receive => Option EngineProcessingRequest
  | .respond _ _ => Bool

/-- What leaves the processor, apart from calls. -/
inductive Outgoing where
  | request (request : DerivationActorRequest)
  | response (requester : Requester) (result : Except EngineClientError Unit)

structure EngineProcessor where
  engine : SciChain.Engine
  elSyncComplete : Bool
  nodeMode : NodeMode
  lastSafeHeadSent : L2BlockInfo
  /-- All that was taken, the oldest first. -/
  sent : List Outgoing

/-- The end of the processor: an error, or a task or a reset that goes on for longer than was
allowed for. -/
inductive ProcessorEnd where
  | unfinished
  | error (error : EngineError)
  deriving DecidableEq, Repr

abbrev Processor (α : Type) := Procedure NodeCall NodeCall.Answer EngineProcessor ProcessorEnd α

/-- How long the parts of a run may take: attempts at a task, blocks that a search for the
starting point visits, and starting points that a reset tries. -/
structure Patience where
  attempts : ℕ
  blocks : ℕ
  rounds : ℕ

def maxSequencerExternalUnsafeGap : ℕ := 300

namespace EngineProcessor

def safeHead (p : EngineProcessor) : L2BlockInfo := p.engine.state.syncState.safeHead

/-- A part of the processor that is about the task queue. -/
def onEngine {α : Type} (op : SciChain.Engine → Dialogue Call Call.Answer (α × SciChain.Engine)) :
    Processor α := fun p =>
  (Dialogue.embed NodeCall.engine (op p.engine)).bind fun (a, e) =>
    .done (.ok a, { p with engine := e })

def enqueue (task : EngineTask) : Processor Unit := do
  let p ← Procedure.get
  Procedure.set { p with engine := p.engine.enqueue task }

def tell (request : DerivationActorRequest) : Processor Unit := do
  let taken ← Procedure.ask (NodeCall.tell request)
  if taken then
    let p ← Procedure.get
    Procedure.set { p with sent := p.sent ++ [.request request] }
  else
    Procedure.fail (.error .channelClosed)

/-- The answer to who has asked for a reset, and whether it was taken. -/
def respond (requester : Requester) (result : Except EngineClientError Unit) : Processor Bool := do
  let taken ← Procedure.ask (NodeCall.respond requester result)
  if taken then
    let p ← Procedure.get
    Procedure.set { p with sent := p.sent ++ [.response requester result] }
    pure true
  else
    pure false

/-- `send_derivation_actor_safe_head_if_updated`. -/
def sendSafeHeadIfUpdated : Processor Unit := do
  let p ← Procedure.get
  if p.safeHead = p.lastSafeHeadSent then
    pure ()
  else
    tell (.processEngineSafeHeadUpdate p.safeHead)
    let p' ← Procedure.get
    Procedure.set { p' with lastSafeHeadSent := p.safeHead }

section Handling

variable (codecs : Codecs) (cfg : EngineConfig) (patience : Patience)

def reset : Processor Unit := do
  let result ← onEngine (Engine.reset codecs cfg patience.blocks patience.rounds)
  match result with
  | .error e => Procedure.fail (.error (.engineReset e))
  | .ok none => Procedure.fail .unfinished
  | .ok (some l2SafeHead) =>
    tell (.processEngineSignal (.reset l2SafeHead))
    sendSafeHeadIfUpdated

/-- `mark_el_sync_complete_and_notify_derivation_actor`. -/
def markElSyncComplete : Processor Unit := do
  let p ← Procedure.get
  Procedure.set { p with elSyncComplete := true }
  if p.engine.state.syncState.finalizedHead = default then
    reset codecs cfg patience
  let p' ← Procedure.get
  tell (.processEngineSyncCompletion p'.safeHead)

/-- What an error of a task leads to. -/
def handleTaskError (e : EngineTaskErrors) : Processor Unit :=
  match e.severity with
  | .critical => Procedure.fail (.error (.engineTask e))
  | .reset => reset codecs cfg patience
  | .flush => tell (.processEngineSignal .flushChannel)
  | .temporary => pure ()

def drain : Processor Unit := do
  let result ← onEngine (Engine.drain codecs cfg patience.attempts)
  match result with
  | none => Procedure.fail .unfinished
  | some (.ok ()) => pure ()
  | some (.error e) => handleTaskError codecs cfg patience e
  sendSafeHeadIfUpdated
  let p ← Procedure.get
  if !p.elSyncComplete && p.engine.state.elSyncFinished then
    markElSyncComplete codecs cfg patience

/-- `handle_external_unsafe_l2_block`: a sequencer passes over blocks that it has and those
that are too far ahead. -/
def handleExternalUnsafeL2Block (envelope : BaseExecutionPayloadEnvelope) : Processor Unit := do
  let p ← Procedure.get
  let blockNumber := envelope.executionPayload.blockNumber.toNat
  let unsafeNumber := p.engine.state.syncState.unsafeHead.blockInfo.number.toNat
  match p.nodeMode with
  | .validator => enqueue (.insert envelope .unsafePayload)
  | .sequencer =>
    if unsafeNumber < blockNumber ∧
        blockNumber - unsafeNumber ≤ maxSequencerExternalUnsafeGap then
      enqueue (.insert envelope .unsafePayload)

/-- A request to reset. It is refused as long as the execution layer is syncing. An error
that the requester does not hear of ends the processor. -/
def handleReset (requester : Requester) : Processor Unit := do
  let p ← Procedure.get
  if p.engine.state.elSyncFinished then
    let result ← (reset codecs cfg patience).outcome
    match result with
    | .error .unfinished => Procedure.fail .unfinished
    | .error (.error e) =>
      let taken ← respond requester (.error (.resetForkchoiceError e))
      if taken then pure () else Procedure.fail (.error e)
    | .ok () =>
      let _ ← respond requester (.ok ())
  else
    let _ ← respond requester (.error .elSyncing)

/-- The request loop's reaction to a request. -/
def handle : EngineProcessingRequest → Processor Unit
  | .build attributes => enqueue (.build attributes true)
  | .getPayload id attributes => enqueue (.getPayload id attributes true)
  | .processSafeL2Signal input => enqueue (.consolidate input)
  | .processDelegatedForkchoiceUpdate update => enqueue (.delegatedForkchoice update)
  | .processFinalizedL2BlockNumber number => enqueue (.finalize number)
  | .processUnsafeL2Block envelope => handleExternalUnsafeL2Block envelope
  | .processLocalUnsafeL2Block envelope => enqueue (.insert envelope .unsafePayload)
  | .reset requester => handleReset codecs cfg patience requester
  | .sealing id attributes => enqueue (.sealing id attributes .unsafePayload true)

def receive : Processor EngineProcessingRequest := do
  let received ← Procedure.ask NodeCall.receive
  match received with
  | none => Procedure.fail (.error .channelClosed)
  | some request => pure request

/-- The loop of `start` for so many requests, each followed by the `drain` that opens the
next round of the loop. -/
def loop : ℕ → Processor Unit
  | 0 => pure ()
  | n + 1 => do
    let request ← receive
    handle codecs cfg patience request
    drain codecs cfg patience
    loop n

/-- `EngineProcessor::start` after the bootstrap. -/
def start (n : ℕ) : Processor Unit := do
  drain codecs cfg patience
  loop codecs cfg patience n

end Handling
end EngineProcessor
end SciChain.Node
