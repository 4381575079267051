import SciChain.Derive.RollupConfig

namespace SciChain.Derive

/-- A header with its hash, as `hash_slow` computes it from all its fields. -/
structure Header where
  hash : B256
  parentHash : B256
  number : U64
  timestamp : U64
  deriving DecidableEq, Repr

/-- A transaction of a block. What the batcher and derivation read of it is its
EIP-2718 encoding and, of a deposit, the calldata. -/
inductive BaseTxEnvelope where
  | deposit (input encoded : Bytes)
  | user (encoded : Bytes)
  deriving DecidableEq, Repr

namespace BaseTxEnvelope

def isDeposit : BaseTxEnvelope → Bool
  | .deposit _ _ => true
  | .user _ => false

def encoded2718 : BaseTxEnvelope → Bytes
  | .deposit _ encoded => encoded
  | .user encoded => encoded

end BaseTxEnvelope

structure BaseBlock where
  header : Header
  transactions : List BaseTxEnvelope
  deriving DecidableEq, Repr

/-- The attributes of an L1 block as the first deposit of an L2 block states them. -/
structure L1BlockInfoTx where
  number : U64
  hash : B256
  sequenceNumber : U64
  deriving DecidableEq, Repr

structure L2BlockInfo where
  blockInfo : BlockInfo
  l1Origin : BlockNumHash
  seqNum : U64
  deriving DecidableEq, Repr

inductive FromBlockError where
  | invalidGenesisHash
  | missingL1InfoDeposit (hash : B256)
  | firstTxNonDeposit
  | blockInfoDecodeError
  deriving DecidableEq, Repr

def BaseBlock.info (block : BaseBlock) : BlockInfo where
  hash := block.header.hash
  number := block.header.number
  parentHash := block.header.parentHash
  timestamp := block.header.timestamp

/-- `decodeCalldata` reads the L1 attributes from the calldata of a deposit. -/
def L2BlockInfo.fromBlockAndGenesis (decodeCalldata : Bytes → Option L1BlockInfoTx)
    (block : BaseBlock) (genesis : ChainGenesis) : Except FromBlockError L2BlockInfo :=
  if block.header.number = genesis.l2.number then
    if block.header.hash ≠ genesis.l2.hash then .error .invalidGenesisHash
    else .ok ⟨block.info, genesis.l1, 0⟩
  else
    match block.transactions with
    | [] => .error (.missingL1InfoDeposit block.header.hash)
    | .user _ :: _ => .error .firstTxNonDeposit
    | .deposit input _ :: _ =>
      match decodeCalldata input with
      | none => .error .blockInfoDecodeError
      | some info => .ok ⟨block.info, ⟨info.number, info.hash⟩, info.sequenceNumber⟩

end SciChain.Derive
