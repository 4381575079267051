import SciChain.Derive.Pipeline
import SciChain.Engine.Attributes
import SciChain.Library.SortedMap

namespace SciChain.Prover
open Derive Engine Library

structure TipCursor where
  l2SafeHead : L2BlockInfo
  l2SafeHeadHeader : Header
  l2SafeHeadOutputRoot : B256
  deriving DecidableEq, Repr

inductive BlockExecutionError where
  | validation
  | internal
  deriving DecidableEq, Repr

inductive ExecutorError where
  | missingGasLimit
  | missingTransactions
  | missingEIP1559Params
  | missingParentBeaconBlockRoot
  | invalidExtraData
  | blockGasLimitExceeded
  | unsupportedTransactionType (ty : UInt8)
  | trieDBError
  | executionError (error : BlockExecutionError)
  | recovery
  | rlpError
  | missingExecutor
  deriving DecidableEq, Repr

def ExecutorError.isDepositOnlyRetryable : ExecutorError → Bool
  | .blockGasLimitExceeded => true
  | .unsupportedTransactionType _ => true
  | .executionError .validation => true
  | .recovery => true
  | _ => false

/-- The stateless executor on the header of a parent: the header of the block that it builds, and
the output root of its state after that. A block has the number after its parent's. -/
structure Executor where
  executePayload : Header → BasePayloadAttributes → Except ExecutorError Header
  computeOutputRoot : Header → BasePayloadAttributes → Except ExecutorError B256
  number_eq : ∀ {parent header : Header} {attributes : BasePayloadAttributes},
    executePayload parent attributes = .ok header → header.number = parent.number + 1

/-- The end of the L1 data, or another error. -/
inductive ProduceError where
  | endOfSource
  | pipeline (error : PipelineErrorKind)
  deriving DecidableEq, Repr

/-- The derivation pipeline up to the head of L1, as the driver sees it. -/
structure DriverPipeline (π : Type) where
  producePayload : L2BlockInfo → π → Except ProduceError AttributesWithParent × π
  flushChannel : π → Except ProduceError Unit × π
  origin : π → Option BlockInfo

inductive DriverError where
  | pipeline (error : ProduceError)
  | executor (error : ExecutorError)
  | fromBlock (error : FromBlockError)
  | rlp
  deriving DecidableEq, Repr

/-- What the driver works with. -/
structure Machine (π : Type) where
  cfg : RollupConfig
  executor : Executor
  pipeline : DriverPipeline π
  decodeTx : Bytes → Option BaseTxEnvelope
  decodeCalldata : Bytes → Option L1BlockInfoTx

/-- The attributes without all transactions that are not deposits. -/
def stripToDeposits (attributes : BasePayloadAttributes) : BasePayloadAttributes :=
  { attributes with transactions := attributes.transactions.map (·.filter isDepositTx) }

/-- What becomes of a payload: the header that was built with the attributes it was built from,
and the pipeline, whose channel was flushed if they are a replacement. -/
inductive Execution (π : Type) where
  | built (header : Header) (attributes : BasePayloadAttributes) (pipeline : π)
  | discarded
  | failed (error : DriverError)

namespace Machine

variable {π : Type} (m : Machine π)

/-- The executor on the header of the tip, and the retry with the deposits only. -/
def execute (tip : TipCursor) (attributes : BasePayloadAttributes) (p : π) : Execution π :=
  match m.executor.executePayload tip.l2SafeHeadHeader attributes with
  | .ok header => .built header attributes p
  | .error e =>
    -- Before Holocene a block that cannot be executed is dropped.
    if !m.cfg.isHoloceneActive attributes.timestamp then .discarded
    else if !e.isDepositOnlyRetryable then .failed (.executor e)
    else
      match m.pipeline.flushChannel p with
      | (.error e, _) => .failed (.pipeline e)
      | (.ok (), p) =>
        let attributes := stripToDeposits attributes
        match m.executor.executePayload tip.l2SafeHeadHeader attributes with
        | .ok header => .built header attributes p
        | .error e => .failed (.executor e)

end Machine
end SciChain.Prover
