import SciChain.Derive.SingleBatch

namespace SciChain.Derive
open Library

inductive SpanDecodingError where
  | relativeTimestamp
  | l1OriginNumber
  | parentCheck
  | l1OriginCheck
  | blockCount
  | blockTxCounts
  | txNonces
  | invalidTransactionType
  | invalidTransactionData
  deriving DecidableEq, Repr

inductive SpanBatchError where
  | tooBigSpanBatchSize
  | bitfieldTooLong
  | emptySpanBatch
  | l1OriginBeforeSafeHead
  | missingL1Origin
  | decoding (e : SpanDecodingError)
  deriving DecidableEq, Repr

/-- A bitlist in big-endian bytes: bit 0 is the lowest bit of the last byte. -/
abbrev SpanBatchBits := Bytes

inductive TxType where
  | legacy | eip2930 | eip1559 | eip4844 | eip7702
  deriving DecidableEq, Repr

/-- `v` is the parity of the curve point's ordinate. -/
structure Signature where
  r : U256
  s : U256
  v : Bool
  deriving DecidableEq, Repr

/-- The transactions of a span batch, taken apart into columns. -/
structure SpanBatchTransactions where
  totalBlockTxCount : U64
  contractCreationBits : SpanBatchBits
  txSigs : List Signature
  txNonces : List U64
  txGases : List U64
  txTos : List Address
  txData : List Bytes
  protectedBits : SpanBatchBits
  txTypes : List TxType
  legacyTxCount : U64
  deriving DecidableEq, Repr

namespace SpanBatchTransactions

/-- `Default` -/
def empty : SpanBatchTransactions := ⟨0, [], [], [], [], [], [], [], [], 0⟩

end SpanBatchTransactions

/-- One block of a span batch. -/
structure SpanBatchElement where
  epochNum : U64
  timestamp : U64
  transactions : List Bytes
  deriving DecidableEq, Repr

/-- `hash[..20]` -/
def hashCheck (hash : B256) : BitVec 160 := hash.extractLsb' 96 160

/-- A span of blocks in derived form, with the encoded columns kept beside it. -/
structure SpanBatch where
  parentCheck : BitVec 160
  l1OriginCheck : BitVec 160
  genesisTimestamp : U64
  chainId : U64
  batches : List SpanBatchElement
  originBits : SpanBatchBits
  blockTxCounts : List U64
  txs : SpanBatchTransactions
  deriving DecidableEq, Repr

namespace SpanBatch

/-- A span batch with no blocks yet. -/
def new (genesisTimestamp chainId : U64) : SpanBatch where
  parentCheck := 0
  l1OriginCheck := 0
  genesisTimestamp := genesisTimestamp
  chainId := chainId
  batches := []
  originBits := []
  blockTxCounts := []
  txs := .empty

/-- The part of an L1 window from the block with the given number on. -/
def windowFrom (window : List BlockInfo) (number : U64) : List BlockInfo :=
  window.dropWhile (·.number ≠ number)

/-- The batches after the safe head, `window` being the L1 blocks from the origin of
the last one found on. -/
def singularBatchesFrom (l2SafeHead : L2BlockInfo) :
    List BlockInfo → List SpanBatchElement → Except SpanBatchError (List SingleBatch)
  | _, [] => .ok []
  | window, batch :: batches =>
    if batch.timestamp ≤ l2SafeHead.blockInfo.timestamp then
      singularBatchesFrom l2SafeHead window batches
    else if batch.epochNum < l2SafeHead.l1Origin.number then .error .l1OriginBeforeSafeHead
    else
      match windowFrom window batch.epochNum with
      | [] => .error .missingL1Origin
      | origin :: later => do
        let rest ← singularBatchesFrom l2SafeHead (origin :: later) batches
        .ok ({ parentHash := 0, epochNum := batch.epochNum, epochHash := origin.hash,
               timestamp := batch.timestamp, transactions := batch.transactions } :: rest)

def getSingularBatches (span : SpanBatch) (l1Origins : List BlockInfo) (l2SafeHead : L2BlockInfo) :
    Except SpanBatchError (List SingleBatch) :=
  singularBatchesFrom l2SafeHead l1Origins span.batches

end SpanBatch

inductive Batch where
  | single (b : SingleBatch)
  | span (b : SpanBatch)
  deriving DecidableEq, Repr

end SciChain.Derive
