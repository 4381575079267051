import SciChain.Library.Result
import SciChain.Primitives
import Mathlib.Data.List.Lex
import Mathlib.Data.Prod.Lex

namespace SciChain.History
open Library

/-- A block by its number and hash. -/
structure NumHash where
  number : Nat
  hash : B256
  deriving DecidableEq, Repr

structure BlockWithParent where
  parent : B256
  block : NumHash
  deriving DecidableEq, Repr

/-- The blocks whose state the proofs storage knows: the earliest one, whose state is the
oldest, and the latest one. -/
structure ProofWindow where
  earliest : NumHash
  latest : NumHash
  deriving DecidableEq, Repr

/-- A hash as a key of a table, in the order of its bytes. -/
structure HashKey where
  hash : B256
  deriving DecidableEq, Repr

instance : LinearOrder HashKey :=
  LinearOrder.lift' (fun key => key.hash.toNat) (by
    intro a b h
    cases a
    cases b
    simpa [BitVec.toNat_inj] using h)

/-- The path of a node in a trie, in the order of its nibbles. -/
abbrev TriePath := List (Fin 16)

/-- A key of one of the tables about storages: of an address, and in its storage. -/
structure StorageKey (κ : Type) where
  hashedAddress : HashKey
  sub : κ
  deriving DecidableEq, Repr

instance {κ : Type} [LinearOrder κ] : LinearOrder (StorageKey κ) :=
  LinearOrder.lift' (fun key => toLex (key.hashedAddress, key.sub)) (by
    intro a b h
    cases a
    cases b
    simpa using h)

inductive StorageError where
  | outOfOrder (blockNumber : Nat) (parentBlockHash latestBlockHash : B256)
  | unwindBeyondEarliest (unwindBlockNumber earliestBlockNumber : Nat)
  | noChangeSetForBlock (blockNumber : Nat)
  | missingAccountTrieHistory (path : TriePath) (blockNumber : Nat)
  | missingStorageTrieHistory (hashedAddress : HashKey) (path : TriePath) (blockNumber : Nat)
  | missingHashedAccountHistory (hashedAddress : HashKey) (blockNumber : Nat)
  | missingHashedStorageHistory (hashedAddress hashedStorageKey : HashKey) (blockNumber : Nat)
  | noBlocksFound
  | initializeStorageInconsistentState
  /-- a row or a change set that is not behind those of the table -/
  | database
  deriving DecidableEq, Repr

end SciChain.History
