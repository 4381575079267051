import SciChain.Library.Rlp
import SciChain.Prover.Driver
import SciChain.Prover.TrieNode

namespace SciChain.Prover
open Derive Library

/-- A header with the root of the state behind its block. -/
structure L2Header extends Header where
  stateRoot : B256
  deriving DecidableEq, Repr

inductive OracleProviderError where
  | blockNumberPastHead (number head : U64)
  | preimage
  | trieNode (error : TrieNodeError)
  | rlp
  deriving DecidableEq, Repr

/-- The preimage oracle and the decoders over it. Of a `TrieAccount` only the storage root is
read. -/
structure Oracle where
  keccak256 : Bytes → B256
  headerByHash : B256 → Except OracleProviderError L2Header
  hintStorageProof : Address → U256 → U64 → Except OracleProviderError Unit
  trieNodeByHash : B256 → Except OracleProviderError TrieNode
  storageRoot : Bytes → Except OracleProviderError B256

def historyStorageAddress : Address := 0x0000F90827F1C53a10cb7A02335B175320002935

def hashedHistoryStorageAddress : B256 :=
  0x6c9d57be05dd69371c4dd2e871bce6e9f4124236825bb612ee18a45e5675be51

def historyServeWindow : U64 := 8191

/-- The slot of the number if the ring reaches back to it, or that of the oldest entry. -/
def historySlot (number blockNumber : U64) : U64 :=
  (if satSub number blockNumber ≤ historyServeWindow then blockNumber else number) %
    historyServeWindow

def keyFound : Except TrieNodeError (Option Bytes) → Except OracleProviderError Bytes
  | .ok (some value) => .ok value
  | .ok none => .error (.trieNode .keyNotFound)
  | .error e => .error (.trieNode e)

def nibblesOf (key : B256) : Nibbles := unpack (beBytes 32 key.toNat)

/-- The value at a key of the trie with a root. Two calls for each of the 64 nibbles and two for
the root are enough for a trie that is one. -/
def openTrie (oracle : Oracle) (root key : B256) : Option (Except OracleProviderError Bytes) :=
  ((TrieNode.blinded root).openPath oracle.trieNodeByHash 130 (nibblesOf key)).map keyFound

/-- A string of any other length than 32 bytes is no hash. -/
def decodeB256 (buf : Bytes) : Except OracleProviderError B256 :=
  match Rlp.decodeBytes buf false with
  | .ok (payload, _) =>
    if payload.length = 32 then .ok (BitVec.ofNat 256 (beValue payload)) else .error .rlp
  | .error _ => .error .rlp

/-- `none` is a trie that is none, on which a walk would panic or not end. -/
def eip2935HistoryLookup (oracle : Oracle) (header : L2Header) (blockNumber : U64) :
    Option (Except OracleProviderError B256) := do
  let slot := historySlot header.number blockNumber
  match oracle.hintStorageProof historyStorageAddress (slot.setWidth 256) header.number with
  | .error _ => return .error .preimage
  | .ok () =>
    let rawAccount ← openTrie oracle header.stateRoot hashedHistoryStorageAddress
    match rawAccount >>= oracle.storageRoot with
    | .error e => return .error e
    | .ok storageRoot =>
      let slotValue ← openTrie oracle storageRoot (oracle.keccak256 (beBytes 32 slot.toNat))
      return slotValue >>= decodeB256

structure OracleL2ChainProvider where
  l2Head : B256
  rollupConfig : RollupConfig
  oracle : Oracle
  /-- The tip of the cursor, if one is set. -/
  cursor : Option TipCursor

namespace OracleL2ChainProvider

def l2SafeHead (p : OracleL2ChainProvider) : B256 :=
  match p.cursor with
  | some tip => tip.l2SafeHead.blockInfo.hash
  | none => p.l2Head

/-- The loop of `header_by_number`; `none` is fuel that did not suffice, or a walk in a trie. -/
def walkBack (p : OracleL2ChainProvider) (blockNumber : U64) :
    Nat → L2Header → Bool → Option (Except OracleProviderError L2Header)
  | 0, _, _ => none
  | fuel + 1, header, linearFallback =>
    if header.number ≤ blockNumber then some (.ok header)
    else if p.rollupConfig.isIsthmusActive header.timestamp && !linearFallback then
      match eip2935HistoryLookup p.oracle header blockNumber with
      | none => none
      | some (.error _) => p.walkBack blockNumber fuel header true
      | some (.ok blockHash) =>
        match p.oracle.headerByHash blockHash with
        | .error e => some (.error e)
        | .ok header => p.walkBack blockNumber fuel header linearFallback
    else
      match p.oracle.headerByHash header.parentHash with
      | .error e => some (.error e)
      | .ok header => p.walkBack blockNumber fuel header linearFallback

def headerByNumber (p : OracleL2ChainProvider) (fuel : Nat) (blockNumber : U64) :
    Option (Except OracleProviderError L2Header) :=
  match p.oracle.headerByHash p.l2SafeHead with
  | .error e => some (.error e)
  | .ok header =>
    if header.number < blockNumber then
      some (.error (.blockNumberPastHead blockNumber header.number))
    else p.walkBack blockNumber fuel header false

end OracleL2ChainProvider
end SciChain.Prover
