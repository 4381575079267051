import SciChain.Derive.SpanBatch

namespace SciChain.Derive
open Library

/-- The L2 chain as the checks ask for it; `none` is a failed request. -/
structure BatchValidationProvider where
  l2BlockInfoByNumber : U64 → Option L2BlockInfo
  blockByNumber : U64 → Option BaseBlock

/-- How the checks of a span batch stop early: with a verdict, or at an index
out of bounds. -/
inductive SpanStop where
  | verdict (refusal : BatchRefusal)
  | panics
  deriving DecidableEq, Repr

def spanDrop (reason : BatchDropReason) : SpanStop := .verdict (.drop reason)

namespace SpanBatch

/-- Arithmetic on block numbers and timestamps wraps, as in a release build. -/
def parentOf (cfg : RollupConfig) (fetcher : BatchValidationProvider) (l2SafeHead : L2BlockInfo)
    (start : U64) : Except SpanStop L2BlockInfo :=
  let head := l2SafeHead.blockInfo
  if start < head.timestamp + cfg.blockTime then do
    reject (head.timestamp < start) (spanDrop .spanBatchMisalignedTimestamp)
    reject ((head.timestamp - start) % cfg.blockTime ≠ 0) (spanDrop .spanBatchNotOverlappedExactly)
    let parentNum := head.number - (head.timestamp - start) / cfg.blockTime - 1
    match fetcher.l2BlockInfoByNumber parentNum with
    | none => .error (.verdict .undecided)
    | some parent => .ok parent
  else .ok l2SafeHead

/-- The first L1 block with the number of the last epoch has the hash the span names. -/
def checkOrigin (span : SpanBatch) (endEpoch : U64) (l1Origins : List BlockInfo) :
    Except SpanStop Unit :=
  match l1Origins.find? (·.number = endEpoch) with
  | none => .error (.verdict .undecided)
  | some block => reject (span.l1OriginCheck ≠ hashCheck block.hash) (spanDrop .epochHashMismatch)

/-- The L1 block whose time decides whether span batches are allowed. -/
def deltaOrigin (startEpoch : U64) (epoch : BlockInfo) (later : List BlockInfo) :
    Except SpanStop BlockInfo :=
  if startEpoch = epoch.number + 1 then
    match later with
    | [] => .error (.verdict .undecided)
    | next :: _ => .ok next
  else .ok epoch

/-- The parent block of the span. -/
def checkBatchPrefix (span : SpanBatch) (cfg : RollupConfig) (l1Origins : List BlockInfo)
    (l2SafeHead : L2BlockInfo) (inclusionBlock : BlockInfo) (fetcher : BatchValidationProvider) :
    Except SpanStop L2BlockInfo :=
  match l1Origins, span.batches.head?, span.batches.getLast? with
  | epoch :: later, some first, some last => do
    let nextTimestamp := l2SafeHead.blockInfo.timestamp + cfg.blockTime
    let holocene := cfg.isHoloceneActive inclusionBlock.timestamp
    let origin ← deltaOrigin first.epochNum epoch later
    reject (¬cfg.isDeltaActive origin.timestamp) (spanDrop .spanBatchPreDelta)
    reject (nextTimestamp < first.timestamp)
      (if holocene then spanDrop .futureTimestampHolocene else .verdict .future)
    reject (last.timestamp < nextTimestamp)
      (if holocene then .verdict .past else spanDrop .spanBatchNoNewBlocksPreHolocene)
    let parent ← parentOf cfg fetcher l2SafeHead first.timestamp
    reject (span.parentCheck ≠ hashCheck parent.blockInfo.hash) (spanDrop .parentHashMismatch)
    reject (first.epochNum + cfg.seqWindowSize < inclusionBlock.number) (spanDrop .includedTooLate)
    reject (parent.l1Origin.number + 1 < first.epochNum) (spanDrop .epochTooFarInFuture)
    span.checkOrigin last.epochNum (epoch :: later)
    reject (first.epochNum < parent.l1Origin.number) (spanDrop .epochTooOld)
    .ok parent
  | _, _, _ => .error (.verdict .undecided)

/-- The drift rule for one block. -/
def checkDrift (cfg : RollupConfig) (batch : SpanBatchElement) (origin : BlockInfo)
    (later : List BlockInfo) (advanced : Bool) : Except SpanStop Unit :=
  if origin.timestamp + cfg.maxSequencerDriftAt origin.timestamp < batch.timestamp then
    if batch.transactions = [] then
      if advanced then .ok ()
      else
        match later with
        | [] => .error (.verdict .undecided)
        | next :: _ =>
          reject (next.timestamp ≤ batch.timestamp) (spanDrop .sequencerDriftNotAdoptedNextOrigin)
    else .error (spanDrop .sequencerDriftExceeded)
  else .ok ()

/-- Whether a block has a later epoch than the element before it; `firstAdvances`
stands for the comparison where there is none. -/
def originAdvanced (firstAdvances : Bool) (before : Option SpanBatchElement)
    (batch : SpanBatchElement) : Bool :=
  match before with
  | none => firstAdvances
  | some before => before.epochNum < batch.epochNum

/-- The checks of the blocks after the safe head. `window` is the L1 blocks from
the origin of the last one on, and `before` the element in front of `batches`. -/
def checkElements (cfg : RollupConfig) (l2SafeHead : L2BlockInfo) (firstAdvances : Bool) :
    Option SpanBatchElement → List BlockInfo → List SpanBatchElement → Except SpanStop Unit
  | _, _, [] => .ok ()
  | before, window, batch :: batches =>
    if batch.timestamp ≤ l2SafeHead.blockInfo.timestamp then
      checkElements cfg l2SafeHead firstAdvances (some batch) window batches
    else do
      reject (batch.epochNum < l2SafeHead.l1Origin.number) (spanDrop .l1OriginBeforeSafeHead)
      match windowFrom window batch.epochNum with
      | [] => .error (spanDrop .missingL1Origin)
      | origin :: later => do
        reject (batch.timestamp < origin.timestamp) (spanDrop .timestampBeforeL1Origin)
        checkDrift cfg batch origin later (originAdvanced firstAdvances before batch)
        (checkTransactions cfg batch.timestamp batch.transactions).mapError .verdict
        checkElements cfg l2SafeHead firstAdvances (some batch) (origin :: later) batches

/-- The comparison of one block of the safe chain with the element that repeats it. -/
def checkOverlapped (cfg : RollupConfig) (decodeCalldata : Bytes → Option L1BlockInfoTx)
    (block : BaseBlock) (batch : SpanBatchElement) : Except SpanStop Unit := do
  let depositCount := block.transactions.countP (·.isDeposit)
  reject (block.transactions.length - depositCount ≠ batch.transactions.length)
    (spanDrop .overlappedTxCountMismatch)
  reject ((block.transactions.drop depositCount).map (·.encoded2718) ≠ batch.transactions)
    (spanDrop .overlappedTxMismatch)
  match L2BlockInfo.fromBlockAndGenesis decodeCalldata block cfg.genesis with
  | .error _ => .error (spanDrop .l2BlockInfoExtractionFailed)
  | .ok info => reject (info.l1Origin.number ≠ batch.epochNum) (spanDrop .overlappedL1OriginMismatch)

/-- The `left` blocks from the one after `parentNum + i` on against the elements. -/
def checkOverlaps (cfg : RollupConfig) (decodeCalldata : Bytes → Option L1BlockInfoTx)
    (fetcher : BatchValidationProvider) (parentNum : U64) (batches : List SpanBatchElement) :
    Nat → Nat → Except SpanStop Unit
  | 0, _ => .ok ()
  | left + 1, i =>
    match fetcher.blockByNumber (parentNum + BitVec.ofNat 64 i + 1) with
    | none => .error (.verdict .undecided)
    | some block =>
      match batches[i]? with
      | none => .error .panics
      | some batch => do
        checkOverlapped cfg decodeCalldata block batch
        checkOverlaps cfg decodeCalldata fetcher parentNum batches left (i + 1)

def checks (span : SpanBatch) (cfg : RollupConfig) (decodeCalldata : Bytes → Option L1BlockInfoTx)
    (l1Blocks : List BlockInfo) (l2SafeHead : L2BlockInfo) (inclusionBlock : BlockInfo)
    (fetcher : BatchValidationProvider) : Except SpanStop Unit := do
  let parent ← span.checkBatchPrefix cfg l1Blocks l2SafeHead inclusionBlock fetcher
  let firstAdvances : Bool := (span.batches.head?.map (·.epochNum)) =
    some (parent.l1Origin.number + 1)
  checkElements cfg l2SafeHead firstAdvances none l1Blocks span.batches
  let head := l2SafeHead.blockInfo
  if span.batches.head?.any (·.timestamp < head.timestamp + cfg.blockTime) then
    checkOverlaps cfg decodeCalldata fetcher parent.blockInfo.number span.batches
      (head.number - parent.blockInfo.number).toNat 0
  else .ok ()

/-- `none` is a panic. -/
def checkBatch (span : SpanBatch) (cfg : RollupConfig)
    (decodeCalldata : Bytes → Option L1BlockInfoTx) (l1Blocks : List BlockInfo)
    (l2SafeHead : L2BlockInfo) (inclusionBlock : BlockInfo) (fetcher : BatchValidationProvider) :
    Option BatchValidity :=
  match span.checks cfg decodeCalldata l1Blocks l2SafeHead inclusionBlock fetcher with
  | .ok () => some .accept
  | .error (.verdict refusal) => some refusal.toValidity
  | .error .panics => none

end SpanBatch
end SciChain.Derive
