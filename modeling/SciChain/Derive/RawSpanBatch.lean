import SciChain.Derive.SpanTxData

namespace SciChain.Derive
open Library

/-- How an operation on a raw span batch ends without a result: with one of its errors, or in a
panic. Arithmetic panics where it would overflow. -/
inductive SpanFailure where
  | error (e : SpanBatchError)
  | panics
  deriving DecidableEq, Repr

def spanError {α : Type} (e : SpanBatchError) : Except SpanFailure α := .error (.error e)

def spanDecoding {α : Type} (e : SpanDecodingError) : Except SpanFailure α :=
  spanError (.decoding e)

def maxSpanBatchElements : Nat := 10000000

/-- `unsigned_varint::decode::u64`: groups of seven bits, the lowest first, of which `i` with the
value `acc` are read and `more` may follow the next. A last group of zero is not minimal, and what
the tenth group has above bit 63 is lost. -/
def decodeVarint : Nat → Nat → Nat → Bytes → Option (U64 × Bytes)
  | _, _, _, [] => none
  | more, i, acc, b :: buf =>
    if b.toNat < 128 then
      if b = 0 ∧ 0 < i then none else some (BitVec.ofNat 64 (acc + b.toNat * 128 ^ i), buf)
    else
      match more with
      | 0 => none
      | more + 1 => decodeVarint more (i + 1) (acc + b.toNat % 128 * 128 ^ i) buf

def readVarint (e : SpanDecodingError) (buf : Bytes) : Except SpanFailure (U64 × Bytes) :=
  match decodeVarint 9 0 0 buf with
  | none => spanDecoding e
  | some found => .ok found

def readBytes (n : Nat) (e : SpanDecodingError) (buf : Bytes) :
    Except SpanFailure (Bytes × Bytes) :=
  if buf.length < n then spanDecoding e else .ok (buf.take n, buf.drop n)

/-- `n` items that `read` takes from the input one after the other. -/
def readMany {α : Type} (read : Bytes → Except SpanFailure (α × Bytes)) :
    Nat → Bytes → Except SpanFailure (List α × Bytes)
  | 0, buf => .ok ([], buf)
  | n + 1, buf => do
    let (item, buf) ← read buf
    let (items, buf) ← readMany read n buf
    .ok (item :: items, buf)

namespace SpanBatchBits

def getBit (bits : SpanBatchBits) (index : Nat) : Option Bool :=
  if index / 8 < bits.length then
    some ((bits.getD (bits.length - index / 8 - 1) 0).toNat.testBit (index % 8))
  else none

/-- The position after the highest bit that is set. -/
def bitLen : SpanBatchBits → Nat
  | [] => 0
  | byte :: bits => if byte ≠ 0 then Nat.log2 byte.toNat + 1 + bits.length * 8 else bitLen bits

/-- The bytes that `bitLength` bits take. -/
def bufferLen (bitLength : Nat) : Nat := bitLength / 8 + if bitLength % 8 ≠ 0 then 1 else 0

/-- A short input is completed with zero bytes. -/
def decode (buf : Bytes) (bitLength : Nat) : Except SpanFailure (SpanBatchBits × Bytes) :=
  let len := bufferLen bitLength
  let bits := buf.take len ++ List.replicate (len - buf.length) 0
  if bitLength < bitLen bits then spanError .bitfieldTooLong else .ok (bits, buf.drop len)

def countOnes (byte : UInt8) : Nat := (List.range 8).countP (byte.toNat.testBit ·)

/-- The bits that are set in the whole list. -/
def ones : SpanBatchBits → Nat
  | [] => 0
  | byte :: bits => countOnes byte + ones bits

end SpanBatchBits

/-- `read_tx_data`: the raw bytes of one transaction's data, and its type. -/
def readTxData (buf : Bytes) : Except SpanFailure ((Bytes × TxType) × Bytes) :=
  match buf with
  | [] => spanDecoding .invalidTransactionData
  | first :: rest =>
    let typed := first.toNat ≤ 0x7f
    let body := if typed then rest else buf
    match Rlp.decodeHeader body with
    | .error _ => spanDecoding .invalidTransactionData
    | .ok (header, _) =>
      if header.list then
        let len := header.payloadLength + (Rlp.encodeHeader header).length
        if maxSpanBatchElements < len then spanError .tooBigSpanBatchSize
        else if body.length < len then spanDecoding .invalidTransactionData
        else
          match TxType.ofByte? (if typed then first else 0) with
          | none => spanDecoding .invalidTransactionType
          | some txType =>
            .ok (((if typed then [first] else []) ++ body.take len, txType), body.drop len)
      else spanDecoding .invalidTransactionData

namespace SpanBatchTransactions

def readSig (buf : Bytes) : Except SpanFailure ((U256 × U256) × Bytes) := do
  let (pair, rest) ← readBytes 64 .invalidTransactionData buf
  .ok ((BitVec.ofNat 256 (beValue (pair.take 32)), BitVec.ofNat 256 (beValue (pair.drop 32))), rest)

/-- Each signature with its parity bit, whose absence panics. -/
def signatures (parities : SpanBatchBits) :
    Nat → List (U256 × U256) → Except SpanFailure (List Signature)
  | _, [] => .ok []
  | i, (r, s) :: pairs =>
    match SpanBatchBits.getBit parities i with
    | none => .error .panics
    | some v => do
      let rest ← signatures parities (i + 1) pairs
      .ok (⟨r, s, v⟩ :: rest)

def decodeTxSigs (total : Nat) (buf : Bytes) : Except SpanFailure (List Signature × Bytes) := do
  let (parities, buf) ← SpanBatchBits.decode buf total
  let (pairs, buf) ← readMany readSig total buf
  let sigs ← signatures parities 0 pairs
  .ok (sigs, buf)

def readTo (buf : Bytes) : Except SpanFailure (Address × Bytes) := do
  let (bytes, rest) ← readBytes 20 .invalidTransactionData buf
  .ok (addressFromSlice bytes, rest)

/-- The columns of `total` transactions. -/
def decode (total : Nat) (buf : Bytes) : Except SpanFailure (SpanBatchTransactions × Bytes) := do
  reject (maxSpanBatchElements < total) (.error .tooBigSpanBatchSize)
  let (creations, buf) ← SpanBatchBits.decode buf total
  let (sigs, buf) ← decodeTxSigs total buf
  reject (total < SpanBatchBits.ones creations) .panics
  let (tos, buf) ← readMany readTo (total - SpanBatchBits.ones creations) buf
  let (items, buf) ← readMany readTxData total buf
  let (nonces, buf) ← readMany (readVarint .txNonces) total buf
  let (gases, buf) ← readMany (readVarint .txNonces) total buf
  let legacyCount := items.countP fun item => item.2 = .legacy
  reject (maxSpanBatchElements < legacyCount) (.error .tooBigSpanBatchSize)
  let (protecteds, buf) ← SpanBatchBits.decode buf legacyCount
  .ok ({ totalBlockTxCount := BitVec.ofNat 64 total, contractCreationBits := creations
         txSigs := sigs, txNonces := nonces, txGases := gases, txTos := tos
         txData := items.map (·.1), protectedBits := protecteds, txTypes := items.map (·.2)
         legacyTxCount := BitVec.ofNat 64 legacyCount }, buf)

end SpanBatchTransactions

structure SpanBatchPrefix where
  relTimestamp : U64
  l1OriginNum : U64
  parentCheck : BitVec 160
  l1OriginCheck : BitVec 160
  deriving DecidableEq, Repr

structure SpanBatchPayload where
  blockCount : U64
  originBits : SpanBatchBits
  blockTxCounts : List U64
  txs : SpanBatchTransactions
  deriving DecidableEq, Repr

/-- `header` is the field `prefix` of the source. -/
structure RawSpanBatch where
  header : SpanBatchPrefix
  payload : SpanBatchPayload
  deriving DecidableEq, Repr

namespace SpanBatchPrefix

def readCheck (e : SpanDecodingError) (buf : Bytes) : Except SpanFailure (BitVec 160 × Bytes) := do
  let (bytes, rest) ← readBytes 20 e buf
  .ok (addressFromSlice bytes, rest)

def decode (buf : Bytes) : Except SpanFailure (SpanBatchPrefix × Bytes) := do
  let (relTimestamp, buf) ← readVarint .relativeTimestamp buf
  let (l1OriginNum, buf) ← readVarint .l1OriginNumber buf
  let (parentCheck, buf) ← readCheck .parentCheck buf
  let (l1OriginCheck, buf) ← readCheck .l1OriginCheck buf
  .ok (⟨relTimestamp, l1OriginNum, parentCheck, l1OriginCheck⟩, buf)

end SpanBatchPrefix

namespace SpanBatchPayload

def decodeBlockCount (buf : Bytes) : Except SpanFailure (U64 × Bytes) := do
  let (count, buf) ← readVarint .blockCount buf
  reject (maxSpanBatchElements < count.toNat) (.error .tooBigSpanBatchSize)
  reject (count = 0) (.error .emptySpanBatch)
  .ok (count, buf)

def readTxCount (buf : Bytes) : Except SpanFailure (U64 × Bytes) := do
  let (count, buf) ← readVarint .blockTxCounts buf
  reject (maxSpanBatchElements < count.toNat) (.error .tooBigSpanBatchSize)
  .ok (count, buf)

/-- `checked_add` over the counts of the blocks. -/
def totalTxCount : Nat → List U64 → Except SpanFailure Nat
  | acc, [] => .ok acc
  | acc, count :: counts => do
    reject (2 ^ 64 ≤ acc + count.toNat) (.error .tooBigSpanBatchSize)
    totalTxCount (acc + count.toNat) counts

def decodeTxs (counts : List U64) (buf : Bytes) :
    Except SpanFailure (SpanBatchTransactions × Bytes) := do
  reject (counts = []) (.error .emptySpanBatch)
  let total ← totalTxCount 0 counts
  reject (maxSpanBatchElements < total) (.error .tooBigSpanBatchSize)
  SpanBatchTransactions.decode total buf

def decode (buf : Bytes) : Except SpanFailure (SpanBatchPayload × Bytes) := do
  let (blockCount, buf) ← decodeBlockCount buf
  let (originBits, buf) ← SpanBatchBits.decode buf blockCount.toNat
  let (blockTxCounts, buf) ← readMany readTxCount blockCount.toNat buf
  let (txs, buf) ← decodeTxs blockTxCounts buf
  .ok (⟨blockCount, originBits, blockTxCounts, txs⟩, buf)

end SpanBatchPayload

namespace SpanBatchTransactions

/-- `get` on a column, with the error for a position past its end. -/
def column {α : Type} (xs : List α) (index : Nat) : Except SpanFailure α :=
  match xs[index]? with
  | none => spanDecoding .invalidTransactionData
  | some x => .ok x

/-- The transaction at `index` of data that is decoded. -/
def signedTx (txs : SpanBatchTransactions) (chainId : U64) (index toIdx protectedIdx : Nat)
    (data : SpanBatchTransactionData) : Except SpanFailure (TxEnvelope × Bool) := do
  let nonce ← column txs.txNonces index
  let gas ← column txs.txGases index
  let creates ← (SpanBatchBits.getBit txs.contractCreationBits index).elim
    (spanDecoding .invalidTransactionData) .ok
  let recipient ← (if creates then .ok none else (column txs.txTos toIdx).map some)
  let signature ← column txs.txSigs index
  let isProtected := if data.txType = .legacy then
    (SpanBatchBits.getBit txs.protectedBits protectedIdx).getD false else true
  let tx ← (data.toSignedTx nonce gas recipient chainId signature isProtected).mapError
    SpanFailure.error
  .ok (tx, creates)

/-- The transactions from `index` on, the destinations from `toIdx` on and the protected bits from
`protectedIdx` on being unused. Data past the end of its column panics. -/
def signedTxsFrom (txs : SpanBatchTransactions) (chainId : U64) :
    Nat → Nat → Nat → Nat → Except SpanFailure (List TxEnvelope)
  | 0, _, _, _ => .ok []
  | left + 1, index, toIdx, protectedIdx =>
    match txs.txData[index]? with
    | none => .error .panics
    | some bytes =>
      match SpanBatchTransactionData.decode bytes with
      | none => spanDecoding .invalidTransactionData
      | some data => do
        let (tx, creates) ← txs.signedTx chainId index toIdx protectedIdx data
        let rest ← signedTxsFrom txs chainId left (index + 1)
          (if creates then toIdx else toIdx + 1)
          (if data.txType = .legacy then protectedIdx + 1 else protectedIdx)
        .ok (tx :: rest)

def signedTxs (txs : SpanBatchTransactions) (chainId : U64) : Except SpanFailure (List TxEnvelope) :=
  txs.signedTxsFrom chainId txs.totalBlockTxCount.toNat 0 0 0

/-- `full_txs`; the library encodes each signed transaction, which cannot fail. -/
def fullTxs (txs : SpanBatchTransactions) (encode2718 : TxEnvelope → Bytes) (chainId : U64) :
    Except SpanFailure (List Bytes) :=
  (txs.signedTxs chainId).map (List.map encode2718)

end SpanBatchTransactions

namespace RawSpanBatch

def decode (buf : Bytes) : Except SpanFailure (RawSpanBatch × Bytes) := do
  let (header, buf) ← SpanBatchPrefix.decode buf
  let (payload, buf) ← SpanBatchPayload.decode buf
  .ok (⟨header, payload⟩, buf)

/-- The L1 origins of the first `n` blocks, the last of which has origin `number`. A set bit says
that the block's origin is the successor of its predecessor's. -/
def blockOriginNums (bits : SpanBatchBits) : Nat → U64 → Except SpanFailure (List U64)
  | 0, _ => .ok []
  | i + 1, number =>
    match SpanBatchBits.getBit bits i with
    | none => spanDecoding .l1OriginCheck
    | some advances => do
      reject (advances ∧ 0 < i ∧ number = 0) .panics
      let before ← blockOriginNums bits i (if advances ∧ 0 < i then number - 1 else number)
      .ok (before ++ [number])

/-- The transactions dealt to the blocks by their counts; running out of either is an index out of
bounds. -/
def dealTransactions : List U64 → Nat → List Bytes → Except SpanFailure (List (List Bytes))
  | _, 0, _ => .ok []
  | [], _ + 1, _ => .error .panics
  | count :: counts, n + 1, txs => do
    reject (txs.length < count.toNat) .panics
    let rest ← dealTransactions counts n (txs.drop count.toNat)
    .ok (txs.take count.toNat :: rest)

/-- No part of the sum overflows if the whole does not. -/
def blockTimestamp (genesisTime relTimestamp blockTime : U64) (i : Nat) : Except SpanFailure U64 :=
  let timestamp := genesisTime.toNat + relTimestamp.toNat + blockTime.toNat * i
  if timestamp < 2 ^ 64 then .ok (BitVec.ofNat 64 timestamp) else .error .panics

/-- The blocks from the `i`-th on. -/
def elements (genesisTime relTimestamp blockTime : U64) :
    Nat → List U64 → List (List Bytes) → Except SpanFailure (List SpanBatchElement)
  | i, epochNum :: origins, transactions :: blocks => do
    let timestamp ← blockTimestamp genesisTime relTimestamp blockTime i
    let rest ← elements genesisTime relTimestamp blockTime (i + 1) origins blocks
    .ok (⟨epochNum, timestamp, transactions⟩ :: rest)
  | _, _, _ => .ok []

def derive (raw : RawSpanBatch) (encode2718 : TxEnvelope → Bytes)
    (blockTime genesisTime chainId : U64) : Except SpanFailure SpanBatch := do
  reject (raw.payload.blockCount = 0) (.error .emptySpanBatch)
  let count := raw.payload.blockCount.toNat
  let origins ← blockOriginNums raw.payload.originBits count raw.header.l1OriginNum
  let txs ← raw.payload.txs.fullTxs encode2718 chainId
  let blocks ← dealTransactions raw.payload.blockTxCounts count txs
  let batches ← elements genesisTime raw.header.relTimestamp blockTime 0 origins blocks
  .ok { SpanBatch.new 0 0 with
        parentCheck := raw.header.parentCheck, l1OriginCheck := raw.header.l1OriginCheck, batches }

end RawSpanBatch
end SciChain.Derive
