import SciChain.Challenger.Scanner

namespace SciChain.Challenger
open Library

inductive ValidatorError where
  | blockNotAvailable (blockNumber : Nat)
  | headerHashMismatch (blockNumber : Nat) (rpcHash computedHash : B256)
  | invalidInterval
  | invalidBlockRange (startingBlockNumber l2BlockNumber : Nat)
  | checkpointCountMismatch (expected actual : Nat)
  | arithmeticOverflow (blockNumber : Nat)
  | accountProofFailed (blockNumber : Nat)
  | rpc
  deriving DecidableEq, Repr

inductive RpcError where
  | headerNotFound
  | blockNotFound
  | other
  deriving DecidableEq, Repr

structure Header where
  stateRoot : B256
  /-- All other fields, as far as the hash reads them. -/
  rest : B256
  deriving DecidableEq, Repr

/-- The L2 node and the hashing libraries: header with the hash the node claims
for it, storage root with its account proof, and the checks. -/
structure L2Provider where
  headerByNumber : Nat → Except RpcError (B256 × Header)
  getProof : B256 → Except RpcError (B256 × Bytes)
  hashSlow : Header → B256
  verify : B256 × Bytes → B256 → Bool
  outputRoot : B256 → B256 → B256 → B256

def L2Provider.computeOutputRootWithHash (l2 : L2Provider) (blockNumber : Nat) :
    Except ValidatorError (B256 × B256) := do
  let (rpcHash, header) ← (l2.headerByNumber blockNumber).mapError fun
    | .headerNotFound => .blockNotAvailable blockNumber
    | .blockNotFound => .blockNotAvailable blockNumber
    | .other => .rpc
  let computedHash := l2.hashSlow header
  reject (rpcHash ≠ computedHash) (.headerHashMismatch blockNumber rpcHash computedHash)
  let account ← (l2.getProof rpcHash).mapError fun _ => .rpc
  reject (l2.verify account header.stateRoot = false) (.accountProofFailed blockNumber)
  pure (computedHash, l2.outputRoot header.stateRoot account.1 computedHash)

def L2Provider.computeOutputRoot (l2 : L2Provider) (blockNumber : Nat) :
    Except ValidatorError B256 :=
  (l2.computeOutputRootWithHash blockNumber).map (·.2)

structure ValidationResult where
  isValid : Bool
  expectedRoot : B256
  claimedRoot : B256
  invalidIntermediateIndex : Option Nat
  deriving DecidableEq, Repr

/-- The first of the checkpoints, counted from an index on, whose root is not
the computed one. -/
def L2Provider.validateOutputRoots (l2 : L2Provider) :
    Nat → List (Nat × B256) → Except ValidatorError (Option (Nat × B256))
  | _, [] => .ok none
  | idx, (block, claimedRoot) :: rest => do
    let expectedRoot ← l2.computeOutputRoot block
    if expectedRoot ≠ claimedRoot then pure (some (idx, expectedRoot))
    else l2.validateOutputRoots (idx + 1) rest

/-- `checked_mul`, then `checked_add`, of 64-bit numbers. -/
def checkpointBlock (start interval multiplier : Nat) : Option Nat :=
  if interval * multiplier < 2 ^ 64 ∧ start + interval * multiplier < 2 ^ 64 then
    some (start + interval * multiplier)
  else none

/-- The blocks of the checkpoints from an index on, with their claimed roots. -/
def checkpoints (start interval : Nat) :
    Nat → List B256 → Except ValidatorError (List (Nat × B256))
  | _, [] => .ok []
  | i, root :: rest =>
    match checkpointBlock start interval (i + 1) with
    | none => .error (.arithmeticOverflow start)
    | some block => do
      let tail ← checkpoints start interval (i + 1) rest
      pure ((block, root) :: tail)

/-- The roots at the checkpoints; the claimed root itself is only passed on. -/
def L2Provider.validateIntermediateRoots (l2 : L2Provider)
    (startingBlockNumber l2BlockNumber intermediateBlockInterval : Nat) (claimedRoot : B256)
    (intermediateRoots : List B256) : Except ValidatorError ValidationResult := do
  reject (intermediateBlockInterval = 0) .invalidInterval
  reject (l2BlockNumber ≤ startingBlockNumber)
    (.invalidBlockRange startingBlockNumber l2BlockNumber)
  let expectedCount := (l2BlockNumber - startingBlockNumber) / intermediateBlockInterval
  reject (intermediateRoots.length ≠ expectedCount)
    (.checkpointCountMismatch expectedCount intermediateRoots.length)
  let blocks ← checkpoints startingBlockNumber intermediateBlockInterval 0 intermediateRoots
  let mismatched ← l2.validateOutputRoots 0 blocks
  pure { isValid := mismatched.isNone
         expectedRoot := (mismatched.map (·.2)).getD claimedRoot
         claimedRoot
         invalidIntermediateIndex := mismatched.map (·.1) }

end SciChain.Challenger
