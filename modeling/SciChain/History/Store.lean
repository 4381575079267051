import SciChain.History.Cursor
import SciChain.Library.SortedMap
import Mathlib.Data.List.Sort

namespace SciChain.History
open Library

/-- Entries with distinct keys. -/
structure Entries (κ ν : Type) where
  list : List (κ × ν)
  distinct : (keys list).Nodup

namespace Entries

variable {κ ν : Type}

def empty : Entries κ ν := ⟨[], List.nodup_nil⟩

/-- A map from entries that may have a key twice: the last one counts. -/
def ofList [LinearOrder κ] (entries : List (κ × ν)) : Entries κ ν :=
  ⟨insertAll [] entries, (sorted_insertAll List.Pairwise.nil).imp fun h => h.ne⟩

end Entries

section Diffs

/-- The changes of the trie of a storage. With `isDeleted` the nodes before are gone. -/
structure StorageTrieUpdates (β : Type) where
  isDeleted : Bool
  storageNodes : Entries TriePath (Option β)

structure TrieUpdates (β : Type) where
  accountNodes : Entries TriePath (Option β)
  storageTries : Entries HashKey (StorageTrieUpdates β)

/-- The changes of a storage. With `wiped` the slots before are gone. -/
structure HashedStorage where
  wiped : Bool
  storageSlots : Entries HashKey U256

structure HashedPostState (α : Type) where
  accounts : Entries HashKey (Option α)
  storages : Entries HashKey HashedStorage

/-- What a block changes: nodes of the tries (`β`), accounts (`α`) and storage slots. -/
structure BlockStateDiff (β α : Type) where
  trieUpdates : TrieUpdates β
  postState : HashedPostState α

/-- The keys of the history tables that a block changed. -/
structure ChangeSet where
  accountTrieKeys : List TriePath
  storageTrieKeys : List (StorageKey TriePath)
  hashedAccountKeys : List HashKey
  hashedStorageKeys : List (StorageKey HashKey)
  deriving DecidableEq, Repr

end Diffs

/-- The tables of the proofs storage. -/
structure ProofsDb (β α : Type) where
  accountTrie : HistoryTable TriePath β
  storageTrie : HistoryTable (StorageKey TriePath) β
  hashedAccount : HistoryTable HashKey α
  hashedStorage : HistoryTable (StorageKey HashKey) U256
  changeSets : List (Nat × ChangeSet)
  earliestBlock : Option NumHash
  latestBlock : Option NumHash
  initialStateAnchor : Option NumHash

namespace ProofsDb

variable {β α : Type} (db : ProofsDb β α)

def empty : ProofsDb β α :=
  ⟨.empty, .empty, .empty, .empty, [], none, none, none⟩

/-- The latest block is the earliest one as long as none was stored. -/
def latest? : Option NumHash := db.latestBlock.or db.earliestBlock

def proofWindow? : Option ProofWindow :=
  match db.earliestBlock with
  | some earliest => some ⟨earliest, db.latestBlock.getD earliest⟩
  | none => none

section Reads

def zeroHash : HashKey := ⟨0⟩

/-- A slot with the value zero is deleted. -/
def isZero (value : U256) : Bool := value = 0

def accountTrieCursor (maxBlockNumber : Nat) : VersionedCursor TriePath β :=
  .new db.accountTrie maxBlockNumber

def storageTrieCursor (hashedAddress : HashKey) (maxBlockNumber : Nat) : BoundCursor TriePath β :=
  .new db.storageTrie maxBlockNumber hashedAddress

def accountHashedCursor (maxBlockNumber : Nat) : VersionedCursor HashKey α :=
  .new db.hashedAccount maxBlockNumber

def storageHashedCursor (hashedAddress : HashKey) (maxBlockNumber : Nat) :
    BoundCursor HashKey U256 :=
  .new db.hashedStorage maxBlockNumber hashedAddress

/-- The nodes of the account trie from a path on: `seek`, then `next` to the end. -/
def accountNodesFrom (maxBlockNumber : Nat) (path : TriePath) : List (TriePath × β) :=
  let c := db.accountTrieCursor maxBlockNumber
  entriesFrom (VersionedCursor.next · []) (c.fuel + 1) (c.seek path)

def storageNodesFrom (hashedAddress : HashKey) (maxBlockNumber : Nat) (path : TriePath) :
    List (TriePath × β) :=
  let c := db.storageTrieCursor hashedAddress maxBlockNumber
  entriesFrom (BoundCursor.next · []) (c.inner.fuel + 1) (c.seek path)

def accountsFrom (maxBlockNumber : Nat) (key : HashKey) : List (HashKey × α) :=
  let c := db.accountHashedCursor maxBlockNumber
  entriesFrom (VersionedCursor.next · zeroHash) (c.fuel + 1) (c.seek key)

def slotsFrom (hashedAddress : HashKey) (maxBlockNumber : Nat) (key : HashKey) :
    List (HashKey × U256) :=
  let c := db.storageHashedCursor hashedAddress maxBlockNumber
  entriesFrom (BoundCursor.nextSlot · isZero zeroHash) (c.inner.fuel + 1)
    (c.seekSlot isZero zeroHash key)

/-- The node at exactly a path. -/
def accountNode (maxBlockNumber : Nat) (path : TriePath) : Option (TriePath × β) :=
  ((db.accountTrieCursor maxBlockNumber).seekExact path).1

def storageNode (hashedAddress : HashKey) (maxBlockNumber : Nat) (path : TriePath) :
    Option (TriePath × β) :=
  ((db.storageTrieCursor hashedAddress maxBlockNumber).seekExact path).1

end Reads

section Writes

variable {κ ν : Type} [LinearOrder κ]

/-- Entries of a block, behind all rows of their keys. -/
def persistHistoryBatch (table : HistoryTable κ ν) (blockNumber : Nat)
    (items : List (κ × Option ν)) : Except StorageError (HistoryTable κ ν) :=
  match items.foldlM (fun table item => table.appendDup item.1 blockNumber item.2) table with
  | some table => .ok table
  | none => .error .database

/-- The entries that replace a storage: deletions of the live keys, then the new ones. -/
def overlay (liveKeys : List κ) (newEntries : List (κ × Option ν)) : List (κ × Option ν) :=
  insertAll (insertAll [] (liveKeys.map fun key => (key, none))) newEntries

/-- The rows of an address that a block writes. -/
def addressItems (wipe : Bool) (liveKeys : List κ) (hashedAddress : HashKey)
    (newEntries : List (κ × Option ν)) : List (StorageKey κ × Option ν) :=
  let entries := if wipe then overlay liveKeys newEntries else newEntries
  entries.map fun entry => (⟨hashedAddress, entry.1⟩, entry.2)

/-- One address of a block. A wipe looks up the keys that were live before the block, in the
table as it is then. -/
def persistAddress (liveKeys : HistoryTable (StorageKey κ) ν → HashKey → List κ)
    (blockNumber : Nat) (stored : List (StorageKey κ) × HistoryTable (StorageKey κ) ν)
    (entry : HashKey × Bool × List (κ × Option ν)) :
    Except StorageError (List (StorageKey κ) × HistoryTable (StorageKey κ) ν) := do
  let items := addressItems entry.2.1 (liveKeys stored.2 entry.1) entry.1 entry.2.2
  let table ← persistHistoryBatch stored.2 blockNumber items
  return (stored.1 ++ keys items, table)

/-- The addresses of a block, one after the other. -/
def persistAddresses (liveKeys : HistoryTable (StorageKey κ) ν → HashKey → List κ)
    (blockNumber : Nat) (table : HistoryTable (StorageKey κ) ν)
    (addresses : List (HashKey × Bool × List (κ × Option ν))) :
    Except StorageError (List (StorageKey κ) × HistoryTable (StorageKey κ) ν) :=
  addresses.foldlM (persistAddress liveKeys blockNumber) ([], table)

/-- The paths of the nodes of a storage trie up to a block. -/
def livePaths (maxBlockNumber : Nat) (table : HistoryTable (StorageKey TriePath) β)
    (hashedAddress : HashKey) : List TriePath :=
  let c : BoundCursor TriePath β := .new table maxBlockNumber hashedAddress
  keys (drain (BoundCursor.next · []) (c.inner.fuel + 2) c)

/-- The slots of a storage up to a block. -/
def liveSlots (maxBlockNumber : Nat) (table : HistoryTable (StorageKey HashKey) U256)
    (hashedAddress : HashKey) : List HashKey :=
  let c : BoundCursor HashKey U256 := .new table maxBlockNumber hashedAddress
  keys (drain (BoundCursor.nextSlot · isZero zeroHash) (c.inner.fuel + 2) c)

/-- The history of a block, and the keys that it changed. -/
def storeTrieUpdatesForBlock (blockNumber : Nat) (diff : BlockStateDiff β α) :
    Except StorageError (ChangeSet × ProofsDb β α) := do
  let accountItems := diff.trieUpdates.accountNodes.list
  let accountTrie ← persistHistoryBatch db.accountTrie blockNumber accountItems
  let hashedItems := diff.postState.accounts.list
  let hashedAccount ← persistHistoryBatch db.hashedAccount blockNumber hashedItems
  let (storageTrieKeys, storageTrie) ←
    persistAddresses (livePaths (blockNumber - 1)) blockNumber db.storageTrie
      (diff.trieUpdates.storageTries.list.map fun entry =>
        (entry.1, entry.2.isDeleted, entry.2.storageNodes.list))
  let (hashedStorageKeys, hashedStorage) ←
    persistAddresses (liveSlots (blockNumber - 1)) blockNumber db.hashedStorage
      (diff.postState.storages.list.map fun entry =>
        (entry.1, entry.2.wiped, entry.2.storageSlots.list.map fun slot => (slot.1, some slot.2)))
  return (⟨keys accountItems, storageTrieKeys, keys hashedItems, hashedStorageKeys⟩,
    { db with
      accountTrie := accountTrie
      storageTrie := storageTrie
      hashedAccount := hashedAccount
      hashedStorage := hashedStorage })

/-- A change set behind all others. -/
def appendChangeSet (blockNumber : Nat) (changeSet : ChangeSet) :
    Except StorageError (ProofsDb β α) :=
  if db.changeSets.all fun entry => entry.1 < blockNumber then
    .ok { db with changeSets := db.changeSets ++ [(blockNumber, changeSet)] }
  else .error .database

/-- A block is stored behind the latest one, which must be its parent. -/
def storeTrieUpdates (block : BlockWithParent) (diff : BlockStateDiff β α) :
    Except StorageError (ProofsDb β α) := do
  let latestBlockHash := match db.latest? with
    | some latest => latest.hash
    | none => 0
  if latestBlockHash ≠ block.parent then
    throw (.outOfOrder block.block.number block.parent latestBlockHash)
  let (changeSet, stored) ← db.storeTrieUpdatesForBlock block.block.number diff
  let recorded ← stored.appendChangeSet block.block.number changeSet
  return { recorded with latestBlock := some block.block }

end Writes

section Fetch

variable {κ ν : Type} [LinearOrder κ]

/-- The rows that a block wrote for the keys. -/
def fetchEntries (table : HistoryTable κ ν) (blockNumber : Nat)
    (missing : κ → StorageError) (changed : List κ) :
    Except StorageError (List (κ × Option ν)) :=
  changed.mapM fun key =>
    match table.seekByKeySubkey key blockNumber with
    | some row =>
      if row.subkey = blockNumber then .ok (key, row.value) else .error (missing key)
    | none => .error (missing key)

/-- Entries by address. -/
def byAddress (entries : List (StorageKey κ × ν)) : List (HashKey × Entries κ ν) :=
  (keys (insertAll [] (entries.map fun entry => (entry.1.hashedAddress, ())))).map fun address =>
    (address, Entries.ofList ((entries.filter fun entry => entry.1.hashedAddress = address).map
      fun entry => (entry.1.sub, entry.2)))

theorem keys_byAddress_nodup (entries : List (StorageKey κ × ν)) {γ : Type}
    (f : HashKey × Entries κ ν → γ) :
    (keys ((byAddress entries).map fun entry => (entry.1, f entry))).Nodup := by
  have hkeys : keys ((byAddress entries).map fun entry => (entry.1, f entry)) =
      keys (insertAll [] (entries.map fun entry => (entry.1.hashedAddress, ()))) := by
    simp [keys, byAddress, Function.comp_def]
  rw [hkeys]
  exact (sorted_insertAll List.Pairwise.nil).imp fun h => h.ne

/-- The changes of a block from its change set. Deletions of all nodes or slots of an
address come back as deletions one by one, deleted slots as zeros. -/
def fetchTrieUpdates (blockNumber : Nat) : Except StorageError (BlockStateDiff β α) :=
  match db.changeSets.lookup blockNumber with
  | none => .error (.noChangeSetForBlock blockNumber)
  | some changeSet => do
    let accountNodes ← fetchEntries db.accountTrie blockNumber
      (fun key => .missingAccountTrieHistory key blockNumber) changeSet.accountTrieKeys
    let storageNodes ← fetchEntries db.storageTrie blockNumber
      (fun key => .missingStorageTrieHistory key.hashedAddress key.sub blockNumber)
      changeSet.storageTrieKeys
    let accounts ← fetchEntries db.hashedAccount blockNumber
      (fun key => .missingHashedAccountHistory key blockNumber) changeSet.hashedAccountKeys
    let slots ← fetchEntries db.hashedStorage blockNumber
      (fun key => .missingHashedStorageHistory key.hashedAddress key.sub blockNumber)
      changeSet.hashedStorageKeys
    return {
      trieUpdates :=
        { accountNodes := .ofList accountNodes
          storageTries :=
            ⟨(byAddress storageNodes).map fun entry => (entry.1, ⟨false, entry.2⟩),
              keys_byAddress_nodup storageNodes _⟩ }
      postState :=
        { accounts := .ofList accounts
          storages :=
            ⟨(byAddress (slots.map fun slot => (slot.1, slot.2.getD 0))).map fun entry =>
                (entry.1, ⟨false, entry.2⟩),
              keys_byAddress_nodup _ _⟩ } }

end Fetch

section Prune

variable {κ ν : Type} [LinearOrder κ]

/-- The change sets backwards from a block, or from the first one after it. -/
def walkBack (blockNumber : Nat) : List (Nat × ChangeSet) :=
  match db.changeSets.find? fun entry => blockNumber ≤ entry.1 with
  | some start => start :: (db.changeSets.filter fun entry => entry.1 < start.1).reverse
  | none => db.changeSets.reverse

/-- The keys of change sets, each with the first block that has it. -/
def survivors (changes : List (Nat × List κ)) : List (κ × Nat) :=
  changes.foldl (fun found (blockNumber, changed) =>
    changed.foldl (fun found key =>
      if (found.lookup key).isSome then found else insertKey key blockNumber found) found) []

structure PrunePlan where
  earliestBlock : Nat
  accSurvivors : List (TriePath × Nat)
  storageSurvivors : List (StorageKey TriePath × Nat)
  hashedAccSurvivors : List (HashKey × Nat)
  hashedStorageSurvivors : List (StorageKey HashKey × Nat)

/-- For each key that changed up to the target block the last change. -/
def calculatePrunePlan (targetBlock : Nat) : Option PrunePlan :=
  match db.earliestBlock with
  | none => none
  | some earliest =>
    if targetBlock ≤ earliest.number then none
    else
      let range := (db.walkBack targetBlock).takeWhile fun entry => earliest.number < entry.1
      some
        { earliestBlock := earliest.number
          accSurvivors := survivors (range.map fun entry => (entry.1, entry.2.accountTrieKeys))
          storageSurvivors := survivors (range.map fun entry => (entry.1, entry.2.storageTrieKeys))
          hashedAccSurvivors :=
            survivors (range.map fun entry => (entry.1, entry.2.hashedAccountKeys))
          hashedStorageSurvivors :=
            survivors (range.map fun entry => (entry.1, entry.2.hashedStorageKeys)) }

/-- The rows of a key that go: those before the survivor, and the survivor if it is a
deletion. -/
def preceding (survivor : Nat) : List (Version κ ν) → List (Version κ ν)
  | [] => []
  | row :: rest =>
    if survivor ≤ row.subkey then
      if row.subkey = survivor ∧ row.value.isNone then [row] else []
    else row :: preceding survivor rest

def pruneKey (table : HistoryTable κ ν) (key : κ) (survivor : Nat) : HistoryTable κ ν :=
  let gone := preceding survivor (table.rows.filter fun row => row.key = key)
  table.remove fun row => row.key = key ∧ gone.any fun x => x.subkey = row.subkey

def pruneHistoryPreceding (table : HistoryTable κ ν) (cutoffItems : List (κ × Nat)) :
    HistoryTable κ ν :=
  cutoffItems.foldl (fun table item => pruneKey table item.1 item.2) table

/-- The history up to the new earliest block becomes its state. -/
def pruneEarliestState (newEarliest : NumHash) : ProofsDb β α :=
  match db.calculatePrunePlan newEarliest.number with
  | none => db
  | some plan =>
    { db with
      accountTrie := pruneHistoryPreceding db.accountTrie plan.accSurvivors
      storageTrie := pruneHistoryPreceding db.storageTrie plan.storageSurvivors
      hashedAccount := pruneHistoryPreceding db.hashedAccount plan.hashedAccSurvivors
      hashedStorage := pruneHistoryPreceding db.hashedStorage plan.hashedStorageSurvivors
      changeSets := db.changeSets.filter fun entry =>
        ¬(plan.earliestBlock + 1 ≤ entry.1 ∧ entry.1 ≤ newEarliest.number)
      earliestBlock := some newEarliest }

inductive PrunerError where
  | blockNotFound (blockNumber : Nat)
  deriving DecidableEq, Repr

variable (blockHash : Nat → Option B256) (pruneBatchSize : Nat)

/-- The batches of a prune run: the database after those that were done, and the error
that stopped it. The end of a batch is a sum of 64 bits. -/
def pruneBatches (target : Nat) : Nat → Nat → ProofsDb β α → ProofsDb β α × Option PrunerError
  | 0, _, db => (db, none)
  | fuel + 1, current, db =>
    if current < target then
      let batchEnd := min ((current + pruneBatchSize) % 2 ^ 64) target
      match blockHash batchEnd with
      | some hash => pruneBatches target fuel batchEnd (db.pruneEarliestState ⟨batchEnd, hash⟩)
      | none => (db, some (.blockNotFound batchEnd))
    else (db, none)

def runPruner (minBlockInterval : Nat) : ProofsDb β α × Option PrunerError :=
  match db.latest?, db.earliestBlock with
  | some latest, some earliest =>
    if latest.number - earliest.number ≤ minBlockInterval then (db, none)
    else
      let target := latest.number - minBlockInterval
      pruneBatches blockHash pruneBatchSize target (target - earliest.number) earliest.number db
  | _, _ => (db, none)

end Prune

section Unwind

variable {κ ν : Type} [LinearOrder κ]

/-- The row of the key at exactly the block goes. -/
def deleteVersion (table : HistoryTable κ ν) (key : κ) (blockNumber : Nat) : HistoryTable κ ν :=
  match table.seekByKeySubkey key blockNumber with
  | some row =>
    if row.subkey = blockNumber then
      table.remove fun x => x.key = row.key ∧ x.subkey = row.subkey
    else table
  | none => table

def deleteDupSorted (table : HistoryTable κ ν) (items : List (κ × Nat)) : HistoryTable κ ν :=
  items.foldl (fun table item => deleteVersion table item.1 item.2) table

/-- The keys of change sets with their blocks. -/
def historyItems (changeSets : List (Nat × ChangeSet)) (changed : ChangeSet → List κ) :
    List (κ × Nat) :=
  changeSets.flatMap fun entry => (changed entry.2).map fun key => (key, entry.1)

/-- The history of the blocks from `first` on goes. -/
def deleteHistoryFrom (first : Nat) : ProofsDb β α :=
  let range := db.changeSets.filter fun entry => first ≤ entry.1
  { db with
    changeSets := db.changeSets.filter fun entry => ¬first ≤ entry.1
    accountTrie := deleteDupSorted db.accountTrie (historyItems range ChangeSet.accountTrieKeys)
    storageTrie := deleteDupSorted db.storageTrie (historyItems range ChangeSet.storageTrieKeys)
    hashedAccount :=
      deleteDupSorted db.hashedAccount (historyItems range ChangeSet.hashedAccountKeys)
    hashedStorage :=
      deleteDupSorted db.hashedStorage (historyItems range ChangeSet.hashedStorageKeys) }

def unwindHistory (first : BlockWithParent) : Except StorageError (ProofsDb β α) :=
  match db.proofWindow? with
  | none => .ok db
  | some window =>
    if window.latest.number < first.block.number then .ok db
    else if first.block.number ≤ window.earliest.number then
      .error (.unwindBeyondEarliest first.block.number window.earliest.number)
    else
      .ok { db.deleteHistoryFrom first.block.number with
        latestBlock := some ⟨first.block.number - 1, first.parent⟩ }

/-- Blocks stored one after the other, in one transaction. -/
def storeAll (blocks : List (BlockWithParent × BlockStateDiff β α)) :
    Except StorageError (ProofsDb β α) :=
  blocks.foldlM (fun db block => db.storeTrieUpdates block.1 block.2) db

def sortedBlocks (blocks : List (BlockWithParent × BlockStateDiff β α)) :
    List (BlockWithParent × BlockStateDiff β α) :=
  blocks.insertionSort fun a b => a.1.block.number ≤ b.1.block.number

/-- Blocks up to the first that is refused: those that were stored, the database with them,
and the error. -/
def storeUntilError (db : ProofsDb β α) : List (BlockWithParent × BlockStateDiff β α) →
    List (BlockWithParent × BlockStateDiff β α) × ProofsDb β α × Option StorageError
  | [] => ([], db, none)
  | block :: rest =>
    match db.storeTrieUpdates block.1 block.2 with
    | .error e => ([], db, some e)
    | .ok db =>
      let (stored, result) := storeUntilError db rest
      (block :: stored, result)

/-- The blocks above a common one are replaced by others. The transaction is committed also
with an error. -/
def replaceUpdates (latestCommonBlock : NumHash)
    (blocksToAdd : List (BlockWithParent × BlockStateDiff β α)) :
    List (BlockWithParent × BlockStateDiff β α) × ProofsDb β α × Option StorageError :=
  storeUntilError { db.deleteHistoryFrom (latestCommonBlock.number + 1) with
    latestBlock := some latestCommonBlock } (sortedBlocks blocksToAdd)

end Unwind
end ProofsDb
end SciChain.History
