import SciChain.Prover.Driver

namespace SciChain.Prover
open Derive Library

/-- The bytes of output roots one after the other. -/
def rootBytes (roots : List B256) : Bytes := roots.flatMap (fun root => beBytes 32 root.toNat)

structure BootInfoStruct where
  l1Head : B256
  l2PreRoot : B256
  l2PostRoot : B256
  l2PreBlockNumber : U64
  l2BlockNumber : U64
  rollupConfigHash : B256
  intermediateRoots : Bytes
  deriving DecidableEq, Repr

structure AggregationInputs where
  bootInfos : List BootInfoStruct
  latestL1CheckpointHead : B256
  multiBlockVkey : Vector U32 8
  proverAddress : Address

structure AggregationOutputs where
  proverAddress : Address
  l1Head : B256
  l2PreRoot : B256
  startingL2SequenceNumber : U64
  l2PostRoot : B256
  endingL2SequenceNumber : U64
  intermediateRoots : Bytes
  rollupConfigHash : B256
  imageHash : B256
  deriving DecidableEq, Repr

/-- What the program calls: the header codec with the hash and the parent hash of a header, the
serialization of committed values with its digest, the check of a proof against a verification
key, and the hash of what it commits itself. -/
structure Zkvm (η : Type) where
  decodeHeaders : Bytes → Option (List η)
  hashSlow : η → B256
  parentHash : η → B256
  serialize : BootInfoStruct → Bytes
  sha256 : Bytes → B256
  verifySp1Proof : Vector U32 8 → B256 → Bool
  keccak256 : Bytes → B256

/-- The failed assertions. -/
inductive AggregationPanic where
  | headers
  | noBootInfos
  | rootsDiffer (post pre : B256)
  | blocksDiffer (post pre : U64)
  | configsDiffer (previous next : B256)
  | proofRejected
  | headerHash (expected : B256)
  | l1HeadNotFound
  deriving DecidableEq, Repr

def u32ToU8 (input : Vector U32 8) : Bytes := input.toList.flatMap (fun w => beBytes 4 w.toNat)

def AggregationOutputs.abiEncodePacked (out : AggregationOutputs) : Bytes :=
  beBytes 20 out.proverAddress.toNat ++ beBytes 32 out.l1Head.toNat ++
    beBytes 32 out.l2PreRoot.toNat ++ beBytes 8 out.startingL2SequenceNumber.toNat ++
    beBytes 32 out.l2PostRoot.toNat ++ beBytes 8 out.endingL2SequenceNumber.toNat ++
    out.intermediateRoots ++ beBytes 32 out.rollupConfigHash.toNat ++
    beBytes 32 out.imageHash.toNat

/-- The assertions on `windows(2)`. -/
def checkSequential : List BootInfoStruct → Except AggregationPanic Unit
  | prev :: next :: rest => do
    reject (prev.l2PostRoot ≠ next.l2PreRoot) (.rootsDiffer prev.l2PostRoot next.l2PreRoot)
    reject (prev.l2BlockNumber ≠ next.l2PreBlockNumber)
      (.blocksDiffer prev.l2BlockNumber next.l2PreBlockNumber)
    reject (prev.rollupConfigHash ≠ next.rollupConfigHash)
      (.configsDiffer prev.rollupConfigHash next.rollupConfigHash)
    checkSequential (next :: rest)
  | _ => .ok ()

section Program

variable {η : Type} (z : Zkvm η)

def Zkvm.verified (vkey : Vector U32 8) (b : BootInfoStruct) : Bool :=
  z.verifySp1Proof vkey (z.sha256 (z.serialize b))

/-- The L1 head is in the chain of headers. An entry may be there more than once. -/
def markFound (hash : B256) (heads : List (B256 × Bool)) : List (B256 × Bool) :=
  heads.map (fun (head, found) => (head, found || head = hash))

/-- The walk over the headers, the last one first. -/
def Zkvm.walkHeaders : B256 → List (B256 × Bool) → List η →
    Except AggregationPanic (List (B256 × Bool))
  | _, heads, [] => .ok heads
  | current, heads, header :: headers => do
    reject (current ≠ z.hashSlow header) (.headerHash current)
    walkHeaders (z.parentHash header) (markFound current heads) headers

/-- The outputs of checked inputs. -/
def AggregationInputs.outputs (inputs : AggregationInputs) (first last : BootInfoStruct) :
    AggregationOutputs where
  proverAddress := inputs.proverAddress
  l1Head := inputs.latestL1CheckpointHead
  l2PreRoot := first.l2PreRoot
  startingL2SequenceNumber := first.l2PreBlockNumber
  l2PostRoot := last.l2PostRoot
  endingL2SequenceNumber := last.l2BlockNumber
  intermediateRoots := inputs.bootInfos.flatMap (·.intermediateRoots)
  rollupConfigHash := last.rollupConfigHash
  imageHash := BitVec.ofNat 256 (beValue (u32ToU8 inputs.multiBlockVkey))

/-- The aggregation program: its outputs, with the hash that it commits. -/
def Zkvm.aggregate (inputs : AggregationInputs) (headersBytes : Bytes) :
    Except AggregationPanic (AggregationOutputs × B256) := do
  let headers ← (z.decodeHeaders headersBytes).elim (.error .headers) .ok
  match inputs.bootInfos with
  | [] => .error .noBootInfos
  | first :: rest =>
    checkSequential (first :: rest)
    reject (¬(first :: rest).all (z.verified inputs.multiBlockVkey)) .proofRejected
    let heads ← z.walkHeaders inputs.latestL1CheckpointHead
      ((first :: rest).map (fun b => (b.l1Head, false))) headers.reverse
    reject (¬heads.all (·.2)) .l1HeadNotFound
    let out := inputs.outputs first (rest.getLastD first)
    .ok (out, z.keccak256 out.abiEncodePacked)

end Program
end SciChain.Prover
