import SciChain.Engine.SyncStart

namespace SciChain.Engine
open Derive Library

/-- The order of the tasks: sealing first, then building, inserting, consolidating and
finalizing. -/
def EngineTask.priority : EngineTask → ℕ
  | .sealing _ _ _ _ => 4
  | .getPayload _ _ _ => 4
  | .build _ _ => 3
  | .insert _ _ => 2
  | .consolidate _ => 1
  | .delegatedForkchoice _ => 1
  | .finalize _ => 0

/-- A task before another one in the queue: of equal priority the one enqueued first. -/
def precedes (a b : EngineTask × ℕ) : Bool :=
  b.1.priority < a.1.priority ∨ (a.1.priority = b.1.priority ∧ a.2 < b.2)

inductive EngineResetError where
  | forkchoice (error : SynchronizeTaskError)
  | syncStart (error : SyncStartError)
  deriving DecidableEq, Repr

end SciChain.Engine

namespace SciChain

/-- The task queue with the state it works on. The number of a task is its place among all
that were enqueued since the queue was cleared. -/
structure Engine where
  state : Engine.EngineState
  tasks : List (Engine.EngineTask × ℕ)
  nextTaskSequence : ℕ
  deriving DecidableEq, Repr

namespace Engine
open Derive Library

def enqueue (e : Engine) (task : EngineTask) : Engine :=
  { e with
    tasks := e.tasks ++ [(task, e.nextTaskSequence)]
    nextTaskSequence := e.nextTaskSequence + 1 }

def clear (e : Engine) : Engine := { e with tasks := [], nextTaskSequence := 0 }

/-- The task that no other one precedes. -/
def peek (e : Engine) : Option (EngineTask × ℕ) :=
  e.tasks.find? (fun a => e.tasks.all (fun b => !precedes b a))

def pop (e : Engine) : Engine :=
  match e.peek with
  | none => e
  | some next => { e with tasks := e.tasks.erase next }

section Drain

variable (codecs : Codecs) (cfg : EngineConfig)

/-- What becomes of the queue when its next task was executed. A task that failed stays in
the queue, unless it asks for a flush. -/
def settle (e : Engine) : Except Empty (Option (Except EngineTaskErrors Unit)) × EngineState →
    Option (Except EngineTaskErrors Unit) × Engine
  | (.ok none, state) => (none, { e with state })
  | (.ok (some (.ok ())), state) => (some (.ok ()), { e with state }.pop)
  | (.ok (some (.error err)), state) =>
    (some (.error err), if err.severity = .flush then { e with state }.pop else { e with state })

/-- One round of `drain`: the next task, in at most so many attempts. -/
def round (attempts : ℕ) (task : EngineTask) (e : Engine) :
    Dialogue Call Call.Answer (Option (Except EngineTaskErrors Unit) × Engine) :=
  (task.execute codecs cfg attempts e.state).bind (fun o => .done (e.settle o))

/-- The rounds of `drain`; each of them but the last takes a task from the queue. -/
def drainLoop (attempts : ℕ) :
    ℕ → Engine → Dialogue Call Call.Answer (Option (Except EngineTaskErrors Unit) × Engine)
  | 0, e => .done (some (.ok ()), e)
  | n + 1, e =>
    match e.peek with
    | none => .done (some (.ok ()), e)
    | some (task, _) =>
      (e.round codecs cfg attempts task).bind fun
        | (some (.ok ()), e') => drainLoop attempts n e'
        | result => .done result

/-- `Engine::drain`, with at most so many attempts at each task. It is open if they do not
suffice for some task. -/
def drain (attempts : ℕ) (e : Engine) :
    Dialogue Call Call.Answer (Option (Except EngineTaskErrors Unit) × Engine) :=
  e.drainLoop codecs cfg attempts e.tasks.length

end Drain

section Reset

variable (codecs : Codecs) (cfg : EngineConfig)

/-- The heads of a starting point. -/
def startUpdate (start : L2ForkchoiceState) : EngineSyncStateUpdate where
  unsafeHead := some start.unSafe
  localSafeHead := some start.safe
  safeHead := some start.safe
  finalizedHead := some start.finalized

/-- The loop of `Engine::reset`, for so many starting points of so many blocks each. -/
def resetLoop (blocks : ℕ) : ℕ → Task EngineResetError (Option L2BlockInfo)
  | 0 => pure none
  | n + 1 => do
    let found ← (findStartingForkchoice codecs cfg blocks).mapError .syncStart
    match found with
    | none => pure none
    | some start =>
      let result ← (synchronize (startUpdate start)).outcome
      match result with
      | .ok () => pure (some start.safe)
      | .error e =>
        if e.severity = .critical then Procedure.fail (.forkchoice e) else resetLoop blocks n

def reset (blocks rounds : ℕ) (e : Engine) :
    Dialogue Call Call.Answer (Except EngineResetError (Option L2BlockInfo) × Engine) :=
  (resetLoop codecs cfg blocks rounds e.state).bind fun (result, state) =>
    .done (result, { e.clear with state })

end Reset
end Engine
end SciChain
