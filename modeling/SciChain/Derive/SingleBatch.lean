import SciChain.Derive.Block

namespace SciChain.Derive
open Library

/-- One encoded L2 block. -/
structure SingleBatch where
  parentHash : B256
  epochNum : U64
  epochHash : B256
  timestamp : U64
  transactions : List Bytes
  deriving DecidableEq, Repr

inductive BatchDropReason where
  | futureTimestampHolocene
  | pastTimestampPreHolocene
  | parentHashMismatch
  | includedTooLate
  | epochTooOld
  | epochTooFarInFuture
  | epochHashMismatch
  | timestampBeforeL1Origin
  | sequencerDriftOverflow
  | sequencerDriftExceeded
  | sequencerDriftNotAdoptedNextOrigin
  | emptyTransaction
  | depositTransaction
  | eip7702PreIsthmus
  | nonEmptyTransitionBlock
  | spanBatchPreDelta
  | spanBatchNoNewBlocksPreHolocene
  | spanBatchMisalignedTimestamp
  | spanBatchNotOverlappedExactly
  | l1OriginBeforeSafeHead
  | missingL1Origin
  | overlappedTxCountMismatch
  | overlappedTxMismatch
  | l2BlockInfoExtractionFailed
  | overlappedL1OriginMismatch
  deriving DecidableEq, Repr

inductive BatchValidity where
  | drop (reason : BatchDropReason)
  | accept
  | undecided
  | future
  | past
  deriving DecidableEq, Repr

/-- A verdict other than acceptance, at which a check returns early. -/
inductive BatchRefusal where
  | drop (reason : BatchDropReason)
  | undecided
  | future
  | past
  deriving DecidableEq, Repr

def BatchRefusal.toValidity : BatchRefusal → BatchValidity
  | .drop reason => .drop reason
  | .undecided => .undecided
  | .future => .future
  | .past => .past

/-- The verdict of a sequence of checks, of which the first that fails decides. -/
def BatchValidity.ofChecks : Except BatchRefusal Unit → BatchValidity
  | .ok () => .accept
  | .error refusal => refusal.toValidity

theorem BatchValidity.ofChecks_accept (checks : Except BatchRefusal Unit) :
    BatchValidity.ofChecks checks = .accept ↔ checks = .ok () := by
  match checks with
  | .ok () => simp [ofChecks]
  | .error refusal => cases refusal <;> simp [ofChecks, BatchRefusal.toValidity]

theorem BatchValidity.ofChecks_future (checks : Except BatchRefusal Unit) :
    BatchValidity.ofChecks checks = .future ↔ checks = .error .future := by
  match checks with
  | .ok () => simp [ofChecks]
  | .error refusal => cases refusal <;> simp [ofChecks, BatchRefusal.toValidity]

/-- First byte of an encoded transaction. -/
def depositTxType : UInt8 := 0x7e
def eip7702TxType : UInt8 := 0x04

/-- The checks on the transactions of a block, which both batch types make. -/
def checkTransactions (cfg : RollupConfig) (timestamp : U64) :
    List Bytes → Except BatchRefusal Unit
  | [] => .ok ()
  | tx :: txs => do
    reject (tx = []) (.drop .emptyTransaction)
    reject (tx.head? = some depositTxType) (.drop .depositTransaction)
    reject (¬cfg.isIsthmusActive timestamp ∧ tx.head? = some eip7702TxType)
      (.drop .eip7702PreIsthmus)
    checkTransactions cfg timestamp txs

namespace SingleBatch

/-- Arithmetic on block numbers and timestamps wraps, as in a release build. -/
def checkBatchTimestamp (b : SingleBatch) (cfg : RollupConfig) (l2SafeHead : L2BlockInfo)
    (inclusionBlock : BlockInfo) : Except BatchRefusal Unit := do
  let nextTimestamp := l2SafeHead.blockInfo.timestamp + cfg.blockTime
  reject (nextTimestamp < b.timestamp)
    (if cfg.isHoloceneActive inclusionBlock.timestamp then .drop .futureTimestampHolocene
     else .future)
  reject (b.timestamp < nextTimestamp)
    (if cfg.isHoloceneActive inclusionBlock.timestamp then .past
     else .drop .pastTimestampPreHolocene)

/-- The L1 origin of the batch: the current epoch or the next one. -/
def batchOrigin (b : SingleBatch) (epoch : BlockInfo) (later : List BlockInfo) :
    Except BatchRefusal BlockInfo :=
  if b.epochNum < epoch.number then .error (.drop .epochTooOld)
  else if b.epochNum = epoch.number then .ok epoch
  else if b.epochNum = epoch.number + 1 then
    match later with
    | [] => .error .undecided
    | next :: _ => .ok next
  else .error (.drop .epochTooFarInFuture)

/-- Past the sequencer drift only an empty batch is allowed, and without a new
epoch only before the next L1 block. -/
def checkDrift (b : SingleBatch) (cfg : RollupConfig) (epoch : BlockInfo) (later : List BlockInfo)
    (origin : BlockInfo) : Except BatchRefusal Unit := do
  let maxDrift := cfg.maxSequencerDriftAt origin.timestamp
  reject (2 ^ 64 ≤ origin.timestamp.toNat + maxDrift.toNat) (.drop .sequencerDriftOverflow)
  let max := origin.timestamp + maxDrift
  reject (max < b.timestamp ∧ b.transactions ≠ []) (.drop .sequencerDriftExceeded)
  if max < b.timestamp ∧ b.transactions = [] ∧ epoch.number = origin.number then
    match later with
    | [] => .error .undecided
    | next :: _ =>
      reject (next.timestamp ≤ b.timestamp) (.drop .sequencerDriftNotAdoptedNextOrigin)
  else .ok ()

def checks (b : SingleBatch) (cfg : RollupConfig) (l1Blocks : List BlockInfo)
    (l2SafeHead : L2BlockInfo) (inclusionBlock : BlockInfo) : Except BatchRefusal Unit :=
  match l1Blocks with
  | [] => .error .undecided
  | epoch :: later => do
    b.checkBatchTimestamp cfg l2SafeHead inclusionBlock
    reject (b.parentHash ≠ l2SafeHead.blockInfo.hash) (.drop .parentHashMismatch)
    reject (b.epochNum + cfg.seqWindowSize < inclusionBlock.number) (.drop .includedTooLate)
    let origin ← b.batchOrigin epoch later
    reject (b.epochHash ≠ origin.hash) (.drop .epochHashMismatch)
    reject (b.timestamp < origin.timestamp) (.drop .timestampBeforeL1Origin)
    b.checkDrift cfg epoch later origin
    reject (cfg.isFirstJovianBlock b.timestamp ∧ b.transactions ≠ [])
      (.drop .nonEmptyTransitionBlock)
    checkTransactions cfg b.timestamp b.transactions

def checkBatch (b : SingleBatch) (cfg : RollupConfig) (l1Blocks : List BlockInfo)
    (l2SafeHead : L2BlockInfo) (inclusionBlock : BlockInfo) : BatchValidity :=
  .ofChecks (b.checks cfg l1Blocks l2SafeHead inclusionBlock)

end SingleBatch
end SciChain.Derive
