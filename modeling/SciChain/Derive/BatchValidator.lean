import SciChain.Derive.SpanBatch
import SciChain.Derive.Pipeline

namespace SciChain.Derive
open Library

def BlockInfo.id (block : BlockInfo) : BlockNumHash := ⟨block.number, block.hash⟩

/-- The stage that checks single batches against the L1 blocks from the epoch of the
safe head on, and derives empty ones where the sequencing window has passed. -/
structure BatchValidator where
  origin : Option BlockInfo
  l1Blocks : List BlockInfo
  deriving DecidableEq, Repr

namespace BatchValidator

/-- The stage after a reset; `origin` is the one of the previous stage, reset before. -/
def reset (origin : Option BlockInfo) : BatchValidator := ⟨origin, origin.toList⟩

def originBehind (prevOrigin : Option BlockInfo) (parent : L2BlockInfo) : Bool :=
  prevOrigin.all (·.number < parent.l1Origin.number)

/-- The origin of the previous stage taken over. -/
def followOrigin (prevOrigin : Option BlockInfo) (parent : L2BlockInfo) (s : BatchValidator) :
    PipelineResult Unit × BatchValidator :=
  if s.origin = prevOrigin then (.ok (), s)
  else if originBehind prevOrigin parent then (.ok (), ⟨prevOrigin, []⟩)
  else
    match prevOrigin with
    | none => (.error PipelineError.missingOrigin.crit, ⟨none, s.l1Blocks⟩)
    | some origin => (.ok (), ⟨some origin, s.l1Blocks ++ [origin]⟩)

/-- The L1 blocks from the epoch of the parent on, where that is after the first. -/
def advanceEpoch (parent : L2BlockInfo) (l1Blocks : List BlockInfo) : List BlockInfo :=
  match l1Blocks with
  | [] => []
  | first :: _ =>
    if first.number < parent.l1Origin.number then
      match l1Blocks.findIdx? (·.number = parent.l1Origin.number) with
      | some i => l1Blocks.drop i
      | none => l1Blocks
    else l1Blocks

def updateOrigins (prevOrigin : Option BlockInfo) (parent : L2BlockInfo) (s : BatchValidator) :
    PipelineResult Unit × BatchValidator :=
  match s.followOrigin prevOrigin parent with
  | (.error e, s) => (.error e, s)
  | (.ok (), s) => (.ok (), { s with l1Blocks := advanceEpoch parent s.l1Blocks })

/-- Arithmetic on block numbers and timestamps wraps, as in a release build. `none` is
the index of the first L1 block out of bounds. -/
def tryDeriveEmptyBatch (cfg : RollupConfig) (parent : L2BlockInfo) (s : BatchValidator) :
    Option (PipelineResult SingleBatch × BatchValidator) :=
  match s.l1Blocks, s.origin with
  | [], _ => none
  | _ :: _, none => some (.error PipelineError.missingOrigin.crit, s)
  | epoch :: later, some stageOrigin =>
    let expiryEpoch := epoch.number + cfg.seqWindowSize
    let firstOfEpoch := epoch.number = parent.l1Origin.number + 1
    let nextTimestamp := parent.blockInfo.timestamp + cfg.blockTime
    if ¬expiryEpoch ≤ stageOrigin.number then some (.error PipelineError.eof.temp, s)
    else
      match later with
      | [] => some (.error PipelineError.eof.temp, s)
      | nextEpoch :: _ =>
        if nextTimestamp < nextEpoch.timestamp ∨ firstOfEpoch then
          some (.ok ⟨parent.blockInfo.hash, epoch.number, epoch.hash, nextTimestamp, []⟩, s)
        else some (.error PipelineError.eof.temp, { s with l1Blocks := later })

/-- The check of a single batch. A batch that is dropped also flushes the channel. -/
def forward (cfg : RollupConfig) (parent : L2BlockInfo) (l1Blocks : List BlockInfo)
    (stageOrigin : BlockInfo) (batch : SingleBatch) : PipelineResult SingleBatch :=
  match batch.checkBatch cfg l1Blocks parent stageOrigin with
  | .accept => .ok batch
  | .past => .error PipelineError.notEnoughData.temp
  | .drop _ => .error PipelineError.notEnoughData.temp
  | .undecided => .error PipelineError.notEnoughData.temp
  | .future => .error PipelineError.invalidBatchValidity.crit

/-- A request for the batch after `parent`. The previous stage is at `prevOrigin`, and
`prevBatch` is its answer where it is asked. -/
def nextBatch (cfg : RollupConfig) (parent : L2BlockInfo) (prevOrigin : Option BlockInfo)
    (prevBatch : PipelineResult Batch) (s : BatchValidator) :
    Option (PipelineResult SingleBatch × BatchValidator) :=
  match s.updateOrigins prevOrigin parent with
  | (.error e, s) => some (.error e, s)
  | (.ok (), s) =>
    match s.origin with
    | none => some (.error PipelineError.missingOrigin.crit, s)
    | some stageOrigin =>
      if originBehind prevOrigin parent ∨ parent.l1Origin.number = stageOrigin.number then
        match prevBatch with
        | .error e => some (.error e, s)
        | .ok _ => some (.error PipelineError.notEnoughData.temp, s)
      else
        match s.l1Blocks with
        | epoch :: _ :: _ =>
          if parent.l1Origin ≠ epoch.id ∧ parent.l1Origin.number + 1 ≠ epoch.number then
            some (.error (.reset (.l1OriginMismatch parent.l1Origin.number
              (satSub epoch.number 1))), s)
          else
            match prevBatch with
            | .error e =>
              if e = PipelineError.eof.temp then s.tryDeriveEmptyBatch cfg parent
              else some (.error e, s)
            | .ok (.span _) => some (.error PipelineError.invalidBatchType.crit, s)
            | .ok (.single batch) =>
              let batch := { batch with parentHash := parent.blockInfo.hash }
              some (forward cfg parent s.l1Blocks stageOrigin batch, s)
        | _ => some (.error PipelineError.missingOrigin.crit, s)

end BatchValidator
end SciChain.Derive
