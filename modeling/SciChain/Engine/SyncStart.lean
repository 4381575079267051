import SciChain.Engine.Tasks

namespace SciChain.Engine
open Derive Library

/-- Where the engine starts from after a reset. -/
structure L2ForkchoiceState where
  unSafe : L2BlockInfo
  safe : L2BlockInfo
  finalized : L2BlockInfo
  deriving DecidableEq, Repr

inductive SyncStartError where
  | rpcError (error : RpcError)
  | fromBlock (error : FromBlockError)
  | blockNotFound (id : BlockId)
  deriving DecidableEq, Repr

def RpcError.text : RpcError → String
  | .errorResp _ message => message
  | .transport message => message

/-- Some clients answer with an error for a label that nothing has yet. -/
def RpcError.isUnknownBlock (e : RpcError) : Bool :=
  "block not found".toList <:+: e.text.toList ∨ "Unknown block".toList <:+: e.text.toList

def getBlockCompat (id : BlockId) : Task SyncStartError (Option RpcBlock) := do
  let response ← Task.getL2Block id
  match response with
  | .ok found => pure found
  | .error e => if e.isUnknownBlock then pure none else Procedure.fail (.rpcError e)

/-- The block of an id, which must exist. -/
def requireBlock (id : BlockId) : Task SyncStartError RpcBlock := do
  let response ← Task.getL2Block id
  let found ← Procedure.lift (response.mapError .rpcError)
  match found with
  | some block => pure block
  | none => Procedure.fail (.blockNotFound id)

section Start

variable (codecs : Codecs) (cfg : EngineConfig)

def infoOf (block : RpcBlock) : Task SyncStartError L2BlockInfo :=
  Procedure.lift ((blockInfoOf codecs cfg block.intoConsensus).mapError .fromBlock)

def currentFinalized : Task SyncStartError L2BlockInfo := do
  let found ← getBlockCompat .finalized
  match found with
  | some block => infoOf codecs cfg block
  | none =>
    let block ← requireBlock (.number cfg.rollup.genesis.l2.number)
    infoOf codecs cfg block

def currentSafe (finalized : L2BlockInfo) : Task SyncStartError L2BlockInfo := do
  let found ← getBlockCompat .safe
  match found with
  | some block => infoOf codecs cfg block
  | none => pure finalized

def currentUnsafe : Task SyncStartError L2BlockInfo := do
  let found ← getBlockCompat .latest
  match found with
  | some block => infoOf codecs cfg block
  | none => Procedure.fail (.blockNotFound .latest)

/-- `L2ForkchoiceState::current`: without a finalized block the genesis block, without a
safe block the finalized one. -/
def L2ForkchoiceState.current : Task SyncStartError L2ForkchoiceState := do
  let finalized ← currentFinalized codecs cfg
  let safe ← currentSafe codecs cfg finalized
  let unSafe ← currentUnsafe codecs cfg
  pure ⟨unSafe, safe, finalized⟩

def l2Parent (block : L2BlockInfo) : Task SyncStartError L2BlockInfo := do
  let parent ← requireBlock (.hash block.blockInfo.parentHash)
  infoOf codecs cfg parent

/-- Back from the unsafe head to a block whose L1 origin is known by its hash. So many
blocks are looked at. -/
def walkUnsafe : ℕ → L2BlockInfo → Task SyncStartError (Option L2BlockInfo)
  | 0, _ => pure none
  | n + 1, block => do
    let response ← Procedure.ask (Call.getL1Block block.l1Origin.hash)
    let origin ← Procedure.lift (response.mapError .rpcError)
    match origin with
    | some _ => pure (some block)
    | none =>
      let parent ← l2Parent codecs cfg block
      walkUnsafe n parent

/-- Where the walk for the safe head stops: behind the sequencing window of the unsafe
head, or at the finalized or the genesis block. -/
def isSafeStart (unSafe finalized cursor : L2BlockInfo) : Bool :=
  cursor.l1Origin.number < satSub unSafe.l1Origin.number cfg.rollup.seqWindowSize ∨
    cursor.blockInfo.hash = finalized.blockInfo.hash ∨
    cursor.blockInfo.hash = cfg.rollup.genesis.l2.hash

def walkSafe (unSafe finalized : L2BlockInfo) :
    ℕ → L2BlockInfo → Task SyncStartError (Option L2BlockInfo)
  | 0, _ => pure none
  | n + 1, cursor =>
    if isSafeStart cfg unSafe finalized cursor then pure (some cursor)
    else do
      let parent ← l2Parent codecs cfg cursor
      walkSafe unSafe finalized n parent

/-- `find_starting_forkchoice`, open if more blocks than so many are to be looked at. -/
def findStartingForkchoice (n : ℕ) : Task SyncStartError (Option L2ForkchoiceState) := do
  let current ← L2ForkchoiceState.current codecs cfg
  let found ← walkUnsafe codecs cfg n current.unSafe
  match found with
  | none => pure none
  | some unSafe =>
    let safe ← walkSafe codecs cfg unSafe current.finalized n unSafe
    pure (safe.map fun safe => ⟨unSafe, safe, current.finalized⟩)

end Start
end SciChain.Engine
