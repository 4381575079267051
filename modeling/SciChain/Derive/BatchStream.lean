import SciChain.Derive.Pipeline
import SciChain.Derive.SpanCheck

namespace SciChain.Derive
open Library

/-- The batches a channel reader still has to deliver: those left of the channel it
reads, if it reads one, and those of the channels after it. -/
structure ChannelReader where
  nextBatches : Option (List Batch)
  channels : List (List Batch)
  deriving DecidableEq

namespace ChannelReader

def nextChannel (reader : ChannelReader) : ChannelReader := { reader with nextBatches := none }

/-- One batch of the channel being read. -/
def readBatch (batches : List Batch) (channels : List (List Batch)) :
    PipelineResult Batch × ChannelReader :=
  match batches with
  | batch :: rest => (.ok batch, ⟨some rest, channels⟩)
  | [] => (.error PipelineError.notEnoughData.temp, ⟨none, channels⟩)

def nextBatch (reader : ChannelReader) : PipelineResult Batch × ChannelReader :=
  match reader.nextBatches, reader.channels with
  | some batches, channels => readBatch batches channels
  | none, batches :: channels => readBatch batches channels
  | none, [] => (.error PipelineError.eof.temp, reader)

end ChannelReader

/-- The stage that holds a span batch until its blocks are taken one by one. -/
structure BatchStream where
  prev : ChannelReader
  span : Option SpanBatch
  buffer : List SingleBatch
  deriving DecidableEq

/-- What one request for a batch finds: the parent and the L1 blocks it names, the
origin of the pipeline and the L2 chain as it answers now. -/
structure BatchCall where
  parent : L2BlockInfo
  l1Origins : List BlockInfo
  origin : Option BlockInfo
  fetcher : BatchValidationProvider

namespace BatchStream

def new (prev : ChannelReader) : BatchStream := ⟨prev, none, []⟩

/-- Flushing while the stage is active. -/
def flush (s : BatchStream) : BatchStream := ⟨s.prev.nextChannel, none, []⟩

def tryHydrateBuffer (s : BatchStream) (parent : L2BlockInfo) (l1Origins : List BlockInfo) :
    Except SpanBatchError Unit × BatchStream :=
  match s.span with
  | none => (.ok (), s)
  | some span =>
    match span.getSingularBatches l1Origins parent with
    | .error e => (.error e, { s with span := none })
    | .ok batches => (.ok (), { s with span := none, buffer := s.buffer ++ batches })

def getSingleBatch (s : BatchStream) (parent : L2BlockInfo) (l1Origins : List BlockInfo) :
    Except SpanBatchError (Option SingleBatch) × BatchStream :=
  match s.tryHydrateBuffer parent l1Origins with
  | (.error e, s) => (.error e, s)
  | (.ok (), s) => (.ok s.buffer.head?, { s with buffer := s.buffer.tail })

/-- A single batch of the span that is held. -/
def pull (call : BatchCall) (s : BatchStream) : PipelineResult Batch × BatchStream :=
  match s.getSingleBatch call.parent call.l1Origins with
  | (.ok (some batch), s) => (.ok (.single batch), s)
  | (.ok none, s) => (.error PipelineError.notEnoughData.temp, s)
  | (.error _, s) => (.error PipelineError.notEnoughData.temp, s.flush)

/-- A span batch taken from the reader, before it is held. `none` is a panic. -/
def receiveSpan (cfg : RollupConfig) (call : BatchCall) (origin : BlockInfo) (span : SpanBatch)
    (s : BatchStream) : Option (PipelineResult Batch × BatchStream) :=
  match span.checkBatchPrefix cfg call.l1Origins call.parent origin call.fetcher with
  | .ok _ => some ({ s with span := some span }.pull call)
  | .error (.verdict (.drop _)) => some (.error PipelineError.notEnoughData.temp, s.flush)
  | .error (.verdict .past) => some (.error PipelineError.notEnoughData.temp, s)
  | .error (.verdict .undecided) => some (.error PipelineError.notEnoughData.temp, s)
  | .error (.verdict .future) => some (.error PipelineError.notEnoughData.temp, s)
  | .error .panics => none

def nextBatch (cfg : RollupConfig) (call : BatchCall) (s : BatchStream) :
    Option (PipelineResult Batch × BatchStream) :=
  match call.origin with
  | none => some (.error PipelineError.missingOrigin.crit, s)
  | some origin =>
    if ¬cfg.isHoloceneActive origin.timestamp then
      let (batch, prev) := s.prev.nextBatch
      some (batch, { s with prev })
    else if s.buffer = [] then
      match s.prev.nextBatch with
      | (.error e, prev) => some (.error e, { s with prev })
      | (.ok (.single batch), prev) => some (.ok (.single batch), { s with prev })
      | (.ok (.span span), prev) => { s with prev }.receiveSpan cfg call origin span
    else some (s.pull call)

end BatchStream
end SciChain.Derive
