import SciChain.Node.Derivation

namespace SciChain.Node
open Derive Engine Library

inductive SafeDBError where
  | notFound
  | disabled
  | database (message : String)
  deriving DecidableEq, Repr

structure SafeHeadResponse where
  l1Block : BlockNumHash
  safeHead : BlockNumHash
  deriving DecidableEq, Repr

/-- The table of safe heads: the number of an L1 block with a packed record, in the order of
the numbers. -/
structure SafeDB where
  safeHeads : List (ℕ × Bytes)
  deriving DecidableEq, Repr

namespace SafeDB

/-- `encode_value`: the L1 hash, the L2 hash and the L2 number in 72 bytes. -/
def encodeValue (l1Hash l2Hash : B256) (l2Number : U64) : Bytes :=
  beBytes 32 l1Hash.toNat ++ (beBytes 32 l2Hash.toNat ++ beBytes 8 l2Number.toNat)

def decodeValue (bytes : Bytes) : B256 × B256 × U64 :=
  (wordAt 256 bytes 0 32, wordAt 256 bytes 32 64, wordAt 64 bytes 64 72)

theorem decode_encode (l1Hash l2Hash : B256) (l2Number : U64) :
    decodeValue (encodeValue l1Hash l2Hash l2Number) = (l1Hash, l2Hash, l2Number) := by
  simp [decodeValue, encodeValue]

def safeHeadUpdated (db : SafeDB) (safeHead : L2BlockInfo) (l1Block : BlockInfo) : SafeDB :=
  ⟨insertKey l1Block.number.toNat
    (encodeValue l1Block.hash safeHead.blockInfo.hash safeHead.blockInfo.number) db.safeHeads⟩

/-- The entries from a key on. -/
def entriesFrom (db : SafeDB) (key : ℕ) : List (ℕ × Bytes) :=
  db.safeHeads.filter (fun e => key ≤ e.1)

def remove (db : SafeDB) (key : ℕ) : SafeDB := ⟨db.safeHeads.filter (fun e => e.1 ≠ key)⟩

/-- The first entry from the origin of the reset head on whose L2 block is not below it. -/
def firstKey (db : SafeDB) (resetSafeHead : L2BlockInfo) : Option ℕ :=
  ((db.entriesFrom resetSafeHead.l1Origin.number.toNat).find?
    (fun e => resetSafeHead.blockInfo.number ≤ (decodeValue e.2).2.2)).map Prod.fst

/-- `safe_head_reset`. The head is recorded again at its own L1 origin. -/
def safeHeadReset (db : SafeDB) (resetSafeHead : L2BlockInfo) : SafeDB :=
  match db.firstKey resetSafeHead with
  | some fk =>
    let kept := ((db.entriesFrom fk).map Prod.fst).foldl remove db
    ⟨insertKey resetSafeHead.l1Origin.number.toNat
      (encodeValue resetSafeHead.l1Origin.hash resetSafeHead.blockInfo.hash
        resetSafeHead.blockInfo.number) kept.safeHeads⟩
  | none => db

/-- `safe_head_at_l1`: the last entry at or before the block. -/
def safeHeadAtL1 (db : SafeDB) (l1BlockNum : U64) : Except SafeDBError SafeHeadResponse :=
  match (db.safeHeads.filter (fun e => e.1 ≤ l1BlockNum.toNat)).getLast? with
  | some (l1Number, value) =>
    let (l1Hash, l2Hash, l2Number) := decodeValue value
    .ok ⟨⟨BitVec.ofNat 64 l1Number, l1Hash⟩, ⟨l2Number, l2Hash⟩⟩
  | none => .error .notFound

/-- The database after a call of the derivation actor. A transaction that failed has changed
nothing. -/
def observe (db : SafeDB) : Exchange DerivationCall DerivationCall.Answer → SafeDB
  | ⟨.safeHeadReset safeHead, written⟩ => if written then db.safeHeadReset safeHead else db
  | ⟨.safeHeadUpdated safeHead l1Block, written⟩ =>
    if written then db.safeHeadUpdated safeHead l1Block else db
  | _ => db

end SafeDB
end SciChain.Node
