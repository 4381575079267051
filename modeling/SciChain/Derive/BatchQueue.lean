import SciChain.Derive.BatchValidator
import SciChain.Derive.SpanCheck

namespace SciChain.Derive
open Library

structure BatchWithInclusionBlock where
  inclusionBlock : BlockInfo
  batch : Batch
  deriving DecidableEq, Repr

/-- The stage before Holocene that keeps batches in the order in which it saw them. `flushes`
counts how often it flushed the previous stage. -/
structure BatchQueue where
  origin : Option BlockInfo
  l1Blocks : List BlockInfo
  batches : List BatchWithInclusionBlock
  nextSpans : List SingleBatch
  flushes : Nat
  deriving DecidableEq, Repr

inductive BatchQueueError where
  | pipeline (kind : PipelineErrorKind)
  | badEncoding (e : SpanBatchError)
  deriving DecidableEq, Repr

/-- The verdicts of one pass over the queue, by position. -/
abbrev Verdicts := Nat → BatchWithInclusionBlock → BatchValidity

/-- How a pass over the queue ends. -/
inductive Scan where
  | accepted (batch : Batch)
  | undecided
  | invalid
  | exhausted
  deriving DecidableEq, Repr

/-- What one request finds: the parent, the origin and the answer of the previous stage, the
verdict on the batch it delivers and those on the queue. -/
structure QueueCall where
  parent : L2BlockInfo
  prevOrigin : Option BlockInfo
  prevBatch : PipelineResult Batch
  added : BatchValidity
  verdicts : Verdicts

namespace BatchQueue

/-- The loop over the queue from position `i` on: its end, the batches that remain and the number
of flushes. -/
def scan (holocene : Bool) (verdicts : Verdicts) :
    Nat → List BatchWithInclusionBlock → Scan × List BatchWithInclusionBlock × Nat
  | _, [] => (.exhausted, [], 0)
  | i, batch :: rest =>
    match verdicts i batch with
    | .future =>
      let (found, remaining, flushes) := scan holocene verdicts (i + 1) rest
      if holocene then (found, remaining, flushes + 1) else (found, batch :: remaining, flushes)
    | .drop _ =>
      let (found, remaining, flushes) := scan holocene verdicts (i + 1) rest
      (found, remaining, flushes + 1)
    | .accept => (.accepted batch.batch, rest, 0)
    | .undecided => (.undecided, batch :: rest, 0)
    | .past => if holocene then scan holocene verdicts (i + 1) rest else (.invalid, rest, 0)

/-- The empty batch of an epoch whose sequencing window has passed. Arithmetic on block numbers
and timestamps wraps, as in a release build. -/
def forceEmpty (cfg : RollupConfig) (empty : Bool) (parent : L2BlockInfo) (origin epoch : BlockInfo)
    (later : List BlockInfo) (s : BatchQueue) : PipelineResult Batch × BatchQueue :=
  let nextTimestamp := parent.blockInfo.timestamp + cfg.blockTime
  let expiryEpoch := epoch.number + cfg.seqWindowSize
  let firstOfEpoch := epoch.number = parent.l1Origin.number + 1
  if ¬(expiryEpoch = origin.number ∧ empty ∨ expiryEpoch < origin.number) then
    (.error PipelineError.eof.temp, s)
  else
    match later with
    | [] => (.error PipelineError.eof.temp, s)
    | nextEpoch :: _ =>
      if nextTimestamp < nextEpoch.timestamp ∨ firstOfEpoch then
        (.ok (.single ⟨parent.blockInfo.hash, epoch.number, epoch.hash, nextTimestamp, []⟩), s)
      else (.error PipelineError.eof.temp, { s with l1Blocks := later })

/-- The parent is of the first epoch, or of the one before it. -/
def parentMatches (parent : L2BlockInfo) (epoch : BlockInfo) : Bool :=
  parent.l1Origin = epoch.id ||
    (epoch.number ≠ 0 && parent.l1Origin.number = epoch.number - 1)

def deriveNextBatch (cfg : RollupConfig) (empty : Bool) (parent : L2BlockInfo)
    (verdicts : Verdicts) (s : BatchQueue) : PipelineResult Batch × BatchQueue :=
  match s.l1Blocks with
  | [] => (.error PipelineError.missingOrigin.crit, s)
  | epoch :: later =>
    if ¬parentMatches parent epoch then
      (.error (.reset (.l1OriginMismatch parent.l1Origin.number
        (if epoch.number = 0 then epoch.number else epoch.number - 1))), s)
    else
      match s.origin with
      | none => (.error PipelineError.missingOrigin.crit, s)
      | some origin =>
        let (found, remaining, flushes) :=
          scan (cfg.isHoloceneActive origin.timestamp) verdicts 0 s.batches
        let flushed := { s with flushes := s.flushes + flushes }
        match found with
        -- the queue is left as it was
        | .invalid => (.error PipelineError.invalidBatchValidity.crit, flushed)
        | .undecided => (.error PipelineError.eof.temp, { flushed with batches := remaining })
        | .accepted batch => (.ok batch, { flushed with batches := remaining })
        | .exhausted =>
          forceEmpty cfg empty parent origin epoch later { flushed with batches := remaining }

/-- `none` is a panic. The caller does not look at the result. -/
def addBatch (cfg : RollupConfig) (batch : Batch) (added : BatchValidity) (s : BatchQueue) :
    Option BatchQueue :=
  match s.l1Blocks, s.origin with
  | [], _ => none
  | _ :: _, none => some s
  | _ :: _, some origin =>
    match added with
    | .drop _ => some { s with flushes := s.flushes + 1 }
    | .future =>
      if cfg.isHoloceneActive origin.timestamp then some { s with flushes := s.flushes + 1 }
      else some { s with batches := s.batches ++ [⟨origin, batch⟩] }
    | .past => some s
    | .accept => some { s with batches := s.batches ++ [⟨origin, batch⟩] }
    | .undecided => some { s with batches := s.batches ++ [⟨origin, batch⟩] }

/-- The L1 blocks of the call: those from the parent's epoch on, and a new origin. -/
def updateOrigins (call : QueueCall) (s : BatchQueue) : BatchQueue :=
  let window := (BatchValidator.followOrigin call.prevOrigin call.parent
    ⟨s.origin, BatchValidator.advanceEpoch call.parent s.l1Blocks⟩).2
  { s with origin := window.origin, l1Blocks := window.l1Blocks }

/-- One block of the cached span, on top of the parent. `none` is a panic. -/
def popNextBatch (parent : L2BlockInfo) (s : BatchQueue) : Option (SingleBatch × BatchQueue) :=
  match s.nextSpans with
  | [] => none
  | next :: rest =>
    some ({ next with parentHash := parent.blockInfo.hash }, { s with nextSpans := rest })

/-- A derived batch as the block it has next. -/
def unpack (parent : L2BlockInfo) (batch : Batch) (s : BatchQueue) :
    Option (Except BatchQueueError SingleBatch × BatchQueue) :=
  match batch with
  | .single batch => some (.ok batch, s)
  | .span span =>
    match span.getSingularBatches s.l1Blocks parent with
    | .error e => some (.error (.badEncoding e), s)
    | .ok batches => (popNextBatch parent { s with nextSpans := batches }).map fun popped =>
      (.ok popped.1, popped.2)

/-- The error of a call that found nothing: the previous stage has no more data, or has. -/
def noBatch (outOfData : Bool) : BatchQueueError :=
  .pipeline (if outOfData then PipelineError.eof.temp else PipelineError.notEnoughData.temp)

def derive (cfg : RollupConfig) (call : QueueCall) (outOfData : Bool) (s : BatchQueue) :
    Option (Except BatchQueueError SingleBatch × BatchQueue) :=
  if BatchValidator.originBehind call.prevOrigin call.parent then
    some (.error (noBatch outOfData), s)
  else
    match s.deriveNextBatch cfg outOfData call.parent call.verdicts with
    | (.ok batch, s) => s.unpack call.parent batch
    | (.error e, s) =>
      if e = PipelineError.eof.temp then some (.error (noBatch outOfData), s)
      else some (.error (.pipeline e), s)

/-- A call that finds no cached span. -/
def loadAndDerive (cfg : RollupConfig) (call : QueueCall) (s : BatchQueue) :
    Option (Except BatchQueueError SingleBatch × BatchQueue) :=
  let s := s.updateOrigins call
  match call.prevBatch with
  | .ok batch =>
    if BatchValidator.originBehind call.prevOrigin call.parent then s.derive cfg call false
    else (s.addBatch cfg batch call.added).bind fun s => s.derive cfg call false
  | .error e =>
    if e = PipelineError.eof.temp then s.derive cfg call true
    else some (.error (.pipeline e), s)

/-- The block of a cached span that fits the parent, or one derived anew. `none` is a panic. -/
def nextBatch (cfg : RollupConfig) (call : QueueCall) (s : BatchQueue) :
    Option (Except BatchQueueError SingleBatch × BatchQueue) :=
  match s.nextSpans with
  | [] => s.loadAndDerive cfg call
  | next :: _ =>
    if next.timestamp = call.parent.blockInfo.timestamp + cfg.blockTime then
      (s.popNextBatch call.parent).map fun popped => (.ok popped.1, popped.2)
    else { s with nextSpans := [] }.loadAndDerive cfg call

/-- The results of calls one after the other. -/
def nextBatches (cfg : RollupConfig) : List QueueCall → BatchQueue →
    Option (List (Except BatchQueueError SingleBatch) × BatchQueue)
  | [], s => some ([], s)
  | call :: calls, s => (s.nextBatch cfg call).bind fun next =>
    (nextBatches cfg calls next.2).map fun rest => (next.1 :: rest.1, rest.2)

end BatchQueue
end SciChain.Derive
