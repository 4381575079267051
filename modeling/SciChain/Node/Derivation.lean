import SciChain.Derive.Pipeline
import SciChain.Library.SortedMap
import SciChain.Node.Messages

namespace SciChain.Node
open Derive Engine Library

inductive DerivationState where
  | awaitingELSyncCompletion
  | awaitingL1Data
  | awaitingSafeHeadConfirmation
  | awaitingSignal
  | awaitingUpdateAfterSignal
  | deriving
  deriving DecidableEq, Repr

inductive DerivationStateUpdate where
  | elSyncCompleted (safeHead : L2BlockInfo)
  | l1DataReceived
  | moreDataNeeded
  | newAttributesDerived (attributes : AttributesWithParent)
  | newAttributesConfirmed (safeHead : L2BlockInfo)
  | signalNeeded
  | signalProcessed
  deriving DecidableEq, Repr

inductive DerivationStateTransitionError where
  | invalidTransition (state : DerivationState) (update : DerivationStateUpdate)
  deriving DecidableEq, Repr

/-- All valid transitions. -/
def transition (state : DerivationState) (update : DerivationStateUpdate) :
    Except DerivationStateTransitionError DerivationState :=
  match state, update with
  | .awaitingELSyncCompletion, .elSyncCompleted _ => .ok .deriving
  | .awaitingELSyncCompletion, .newAttributesConfirmed _ => .ok .awaitingELSyncCompletion
  | .awaitingELSyncCompletion, .signalProcessed => .ok .awaitingELSyncCompletion
  | .awaitingELSyncCompletion, .l1DataReceived => .ok .awaitingELSyncCompletion
  | .awaitingL1Data, .l1DataReceived => .ok .deriving
  | .awaitingL1Data, .signalProcessed => .ok .awaitingUpdateAfterSignal
  | .awaitingSafeHeadConfirmation, .newAttributesConfirmed _ => .ok .deriving
  | .awaitingSafeHeadConfirmation, .signalProcessed => .ok .awaitingUpdateAfterSignal
  | .awaitingSafeHeadConfirmation, .l1DataReceived => .ok .awaitingSafeHeadConfirmation
  | .awaitingSignal, .signalProcessed => .ok .awaitingUpdateAfterSignal
  | .awaitingSignal, .l1DataReceived => .ok .awaitingSignal
  | .awaitingSignal, .moreDataNeeded => .ok .awaitingSignal
  | .awaitingUpdateAfterSignal, .l1DataReceived => .ok .deriving
  | .awaitingUpdateAfterSignal, .newAttributesConfirmed _ => .ok .deriving
  | .awaitingUpdateAfterSignal, .signalProcessed => .ok .awaitingUpdateAfterSignal
  | .deriving, .newAttributesDerived _ => .ok .awaitingSafeHeadConfirmation
  | .deriving, .signalNeeded => .ok .awaitingSignal
  | .deriving, .moreDataNeeded => .ok .awaitingL1Data
  | state, update => .error (.invalidTransition state update)

structure DerivationStateMachine where
  confirmedSafeHead : L2BlockInfo
  state : DerivationState
  deriving DecidableEq, Repr

def DerivationStateMachine.new : DerivationStateMachine := ⟨default, .awaitingELSyncCompletion⟩

def DerivationStateMachine.update (machine : DerivationStateMachine)
    (stateUpdate : DerivationStateUpdate) :
    Except DerivationStateTransitionError DerivationStateMachine := do
  let state ← transition machine.state stateUpdate
  match stateUpdate with
  | .newAttributesConfirmed safeHead => .ok ⟨safeHead, state⟩
  | .elSyncCompleted safeHead => .ok ⟨safeHead, state⟩
  | _ => .ok { machine with state }

/-- The blocks that wait for their L1 block to be finalized: the number of an L1 block with
the highest number of the blocks derived from it, in the order of the L1 blocks. -/
structure L2Finalizer where
  awaitingFinalization : List (ℕ × U64)
  deriving DecidableEq, Repr

namespace L2Finalizer

/-- `enqueue_for_finalization`. Attributes that were not derived from an L1 block end the
actor. -/
def enqueueForFinalization (finalizer : L2Finalizer) (attributes : AttributesWithParent) :
    Option L2Finalizer := do
  let derivedFrom ← attributes.derivedFrom
  let key := derivedFrom.number.toNat
  let number :=
    match finalizer.awaitingFinalization.lookup key with
    | some n => if n < attributes.blockNumber then attributes.blockNumber else n
    | none => attributes.blockNumber
  pure ⟨insertKey key number finalizer.awaitingFinalization⟩

def clear : L2Finalizer := ⟨[]⟩

/-- `try_finalize_next`: the block of the last L1 block that is finalized now. -/
def tryFinalizeNext (finalizer : L2Finalizer) (newFinalizedL1Block : BlockInfo) :
    Option U64 × L2Finalizer :=
  let bound := newFinalizedL1Block.number.toNat
  match (finalizer.awaitingFinalization.filter (fun e => e.1 ≤ bound)).getLast? with
  | some (_, highest) =>
    (some highest, ⟨finalizer.awaitingFinalization.filter (fun e => bound < e.1)⟩)
  | none => (none, finalizer)

end L2Finalizer

/-- Why the pipeline asks for a reset. -/
inductive PipelineReset where
  | holoceneActivation
  | reorgDetected (expected new : B256)
  | other (error : ResetError)
  deriving DecidableEq, Repr

inductive StepError where
  | temporary (error : PipelineError)
  | reset (error : PipelineReset)
  | critical (error : PipelineError)
  deriving DecidableEq, Repr

inductive StepResult where
  | preparedAttributes
  | advancedOrigin
  | originAdvanceErr (error : StepError)
  | stepFailed (error : StepError)
  deriving DecidableEq, Repr

inductive DerivationError where
  | pipeline (error : StepError)
  | yield
  | sender (error : EngineClientError)
  | requestReceiveFailed
  | stateTransition (error : DerivationStateTransitionError)
  | notDerived
  deriving DecidableEq, Repr

/-- The end of the actor: an error, or a pipeline that is stepped for longer than was allowed
for. -/
inductive DerivationEnd where
  | unfinished
  | error (error : DerivationError)
  deriving DecidableEq, Repr

/-- What the actor asks of the world: of its pipeline, of the database of safe heads, and of
the engine. A request to the engine is answered by whether it was taken, a reset by whether
it was made. -/
inductive DerivationCall where
  | step (safeHead : L2BlockInfo)
  | origin
  | next
  | signal (signal : Signal)
  | safeHeadReset (safeHead : L2BlockInfo)
  | safeHeadUpdated (safeHead : L2BlockInfo) (l1Block : BlockInfo)
  | request (request : EngineProcessingRequest)

abbrev DerivationCall.Answer : DerivationCall → Type
  | .step _ => StepResult
  | .origin => Option BlockInfo
  | .next => Option AttributesWithParent
  | .signal _ => Except StepError Unit
  | .safeHeadReset _ => Bool
  | .safeHeadUpdated _ _ => Bool
  | .request _ => Except EngineClientError Unit

structure DerivationActor where
  machine : DerivationStateMachine
  finalizer : L2Finalizer
  pendingDerivedFrom : Option BlockInfo
  /-- The requests that the engine has taken, the oldest first. -/
  sent : List EngineProcessingRequest
  deriving DecidableEq, Repr

abbrev Derivation (α : Type) :=
  Procedure DerivationCall DerivationCall.Answer DerivationActor DerivationEnd α

namespace DerivationActor

/-- `DerivationActor::new`. -/
def new : DerivationActor := ⟨.new, .clear, none, []⟩

def update (stateUpdate : DerivationStateUpdate) : Derivation Unit := do
  let actor ← Procedure.get
  let machine ← Procedure.lift
    ((actor.machine.update stateUpdate).mapError (fun e => .error (.stateTransition e)))
  Procedure.set { actor with machine }

/-- A request to the engine. -/
def send (request : EngineProcessingRequest) : Derivation Unit := do
  let result ← Procedure.ask (DerivationCall.request request)
  Procedure.lift (result.mapError (fun e => .error (.sender e)))
  let actor ← Procedure.get
  Procedure.set { actor with sent := actor.sent ++ [request] }

/-- The signal to the pipeline. Errors of the pipeline and of the database are only logged. -/
def signal (signal : Signal) : Derivation Unit := do
  match signal with
  | .reset _ =>
    let actor ← Procedure.get
    Procedure.set { actor with finalizer := .clear, pendingDerivedFrom := none }
    let _ ← Procedure.ask (DerivationCall.safeHeadReset actor.machine.confirmedSafeHead)
  | _ => pure ()
  let _ ← Procedure.ask (DerivationCall.signal signal)

/-- What an error of a step leads to: another step, or the end of the attempt. In the first
case the result is whether attributes are looked for before. -/
def handleStepError (safeHead : L2BlockInfo) : StepError → Derivation Bool
  | .temporary .notEnoughData => pure false
  | .temporary _ => Procedure.fail (.error .yield)
  | .reset .holoceneActivation => do
    let result ← Procedure.ask (DerivationCall.signal (.activation safeHead))
    Procedure.lift (result.mapError (fun e => .error (.pipeline e)))
    pure true
  | .reset _ => do
    send (.reset .derivation)
    update .signalNeeded
    Procedure.fail (.error .yield)
  | .critical e => Procedure.fail (.error (.pipeline (.critical e)))

/-- Whether attributes are looked for after a step. -/
def handleStepResult (safeHead : L2BlockInfo) : StepResult → Derivation Bool
  | .preparedAttributes => pure true
  | .advancedOrigin => do
    let origin ← Procedure.ask DerivationCall.origin
    match origin with
    | none => Procedure.fail (.error (.pipeline (.critical .missingOrigin)))
    | some _ => pure true
  | .originAdvanceErr e => handleStepError safeHead e
  | .stepFailed e => handleStepError safeHead e

/-- One round of `produce_next_attributes`. -/
def stepPipeline : Derivation (Option AttributesWithParent) := do
  let actor ← Procedure.get
  let result ← Procedure.ask (DerivationCall.step actor.machine.confirmedSafeHead)
  let looks ← handleStepResult actor.machine.confirmedSafeHead result
  if looks then Procedure.ask DerivationCall.next else pure none

/-- `produce_next_attributes`, for at most so many steps. -/
def produceNextAttributes : ℕ → Derivation AttributesWithParent
  | 0 => Procedure.fail .unfinished
  | n + 1 => do
    let found ← stepPipeline
    match found with
    | some attributes => pure attributes
    | none => produceNextAttributes n

/-- Attributes on their way to the engine. -/
def dispatch (attributes : AttributesWithParent) : Derivation Unit := do
  update (.newAttributesDerived attributes)
  let actor ← Procedure.get
  match actor.finalizer.enqueueForFinalization attributes with
  | none => Procedure.fail (.error .notDerived)
  | some finalizer =>
    Procedure.set { actor with finalizer, pendingDerivedFrom := attributes.derivedFrom }
    send (.processSafeL2Signal (.attributes attributes))

def attemptDerivation (steps : ℕ) : Derivation Unit := do
  let actor ← Procedure.get
  if actor.machine.state = .deriving then
    let result ← (produceNextAttributes steps).outcome
    match result with
    | .ok attributes => dispatch attributes
    | .error (.error .yield) => update .moreDataNeeded
    | .error e => Procedure.fail e
  else
    pure ()

/-- The L1 block under which a confirmed safe head is recorded. -/
def inclusionBlock (actor : DerivationActor) (safeHead : L2BlockInfo) : BlockInfo :=
  actor.pendingDerivedFrom.getD ⟨safeHead.l1Origin.hash, safeHead.l1Origin.number, 0, 0⟩

/-- `handle_derivation_actor_request`. -/
def handle (steps : ℕ) : DerivationActorRequest → Derivation Unit
  | .processEngineSignal s => do
    signal s
    update .signalProcessed
  | .processFinalizedL1Block finalized => do
    let actor ← Procedure.get
    let (found, finalizer) := actor.finalizer.tryFinalizeNext finalized
    Procedure.set { actor with finalizer }
    match found with
    | some number => send (.processFinalizedL2BlockNumber number)
    | none => pure ()
  | .processL1HeadUpdate _ => do
    update .l1DataReceived
    attemptDerivation steps
  | .processEngineSafeHeadUpdate safeHead => do
    let actor ← Procedure.get
    Procedure.set { actor with pendingDerivedFrom := none }
    let _ ← Procedure.ask
      (DerivationCall.safeHeadUpdated safeHead (actor.inclusionBlock safeHead))
    update (.newAttributesConfirmed safeHead)
    attemptDerivation steps
  | .processEngineSyncCompletion safeHead => do
    let _ ← Procedure.ask (DerivationCall.safeHeadReset safeHead)
    update (.elSyncCompleted safeHead)
    attemptDerivation steps

end DerivationActor

/-- A run of the actor: what it has handled, each request with what it has sent to the engine
meanwhile, and whether it has ended. -/
structure DerivationRun where
  actor : DerivationActor
  trace : List (DerivationActorRequest × List EngineProcessingRequest)
  ended : Bool

/-- A request with what the world answers while it is handled. -/
structure DerivationJob where
  request : DerivationActorRequest
  steps : ℕ
  answers : ℕ → (c : DerivationCall) → c.Answer

namespace DerivationRun

def new : DerivationRun := ⟨.new, [], false⟩

def serve (run : DerivationRun) (job : DerivationJob) : DerivationRun :=
  if run.ended then run else
    let o := (DerivationActor.handle job.steps job.request
      { run.actor with sent := [] }).value job.answers 0
    { actor := o.2, trace := run.trace ++ [(job.request, o.2.sent)], ended := !o.1.isOk }

def serveAll (run : DerivationRun) (jobs : List DerivationJob) : DerivationRun :=
  jobs.foldl serve run

end DerivationRun
end SciChain.Node
