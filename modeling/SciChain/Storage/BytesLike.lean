import SciChain.Storage.RawVec

/-!
`Bytes` and `String` in raw storage: up to 31 bytes inline with their length in
the last byte, longer values in 32-byte chunks from `keccak256(base_slot)` on.
-/

namespace SciChain.RawStorage.BytesLike
open Library

/-- Bit 0 of the last byte tells a long value. -/
def isLongString (slotValue : U256) : Bool := slotValue.toNat % 256 % 2 ≠ 0

def calcStringLength (slotValue : U256) (isLong : Bool) : Result Nat :=
  if isLong then do
    let lengthTimesTwo := slotValue - 1
    let length := lengthTimesTwo >>> 1
    reject (2 ^ 32 - 1 < length.toNat) (.panic .underOverflow)
    pure length.toNat
  else do
    let bytes := beBytes 32 slotValue.toNat
    let length := (bytes.getD 31 0).toNat / 2
    reject (31 < length) (.fatal s!"short string length {length} exceeds maximum of 31 bytes")
    pure length

def calcChunks (byteLength : Nat) : Nat := (byteLength + 32 - 1) / 32

/-- The bytes left-aligned, twice their number in the last byte. -/
def encodeShortString (bytes : Bytes) : U256 :=
  BitVec.ofNat 256 (beValue
    (bytes ++ List.replicate (31 - bytes.length) 0 ++ [UInt8.ofNat (bytes.length * 2)]))

def encodeLongStringLength (byteLength : Nat) : U256 := BitVec.ofNat 256 (byteLength * 2 + 1)

variable (keccak256 : Bytes → B256)

def dataSlot (baseSlot : U256) (i : Nat) : U256 :=
  calcDataSlot keccak256 baseSlot + BitVec.ofNat 256 i

def loadBytesLike {T : Type} (storage : Slots) (baseSlot : U256)
    (into : Bytes → Result T) : Result T := do
  let baseValue := storage baseSlot
  let isLong := isLongString baseValue
  let length ← calcStringLength baseValue isLong
  if isLong then do
    let chunks := calcChunks length
    let data ← forRange 0 chunks (fun data i =>
      let chunkBytes := beBytes 32 (storage (dataSlot keccak256 baseSlot i)).toNat
      let bytesToTake := if i = chunks - 1 then length - i * 32 else 32
      .ok (data ++ chunkBytes.take bytesToTake)) []
    into data
  else into ((beBytes 32 baseValue.toNat).take length)

/-- The loop of `store_bytes_like` and `delete_bytes_like` that zeroes data slots. -/
def zeroChunks (storage : Slots) (baseSlot : U256) (lo hi : Nat) :
    Result Slots :=
  forRange lo hi (fun storage i =>
    .ok (Function.update storage (dataSlot keccak256 baseSlot i) 0)) storage

/-- From T5 on the data slots that a longer previous value no longer needs are
cleared first. -/
def cleanTail (spec : TempoHardfork) (newLen : Nat) (storage : Slots) (baseSlot : U256)
    (ctx : LayoutCtx) : Result Slots :=
  if !ctx.skipTailCleanup && spec.isT5 then
    let prev := storage baseSlot
    if isLongString prev then do
      let prevLen ← calcStringLength prev true
      let prevChunks := calcChunks prevLen
      let newChunks := if 31 < newLen then calcChunks newLen else 0
      if newChunks < prevChunks then zeroChunks keccak256 storage baseSlot newChunks prevChunks
      else pure storage
    else pure storage
  else pure storage

/-- The word of chunk `i`, padded with zeros at the end. -/
def chunkWord (bytes : Bytes) (i : Nat) : U256 :=
  let chunkStart := i * 32
  let chunkEnd := min (chunkStart + 32) bytes.length
  let chunk := (bytes.take chunkEnd).drop chunkStart
  BitVec.ofNat 256 (beValue (chunk ++ List.replicate (32 - chunk.length) 0))

def storeBytesLike (spec : TempoHardfork) (bytes : Bytes) (storage : Slots) (baseSlot : U256)
    (ctx : LayoutCtx) : Result Slots := do
  let newLen := bytes.length
  let storage ← cleanTail keccak256 spec newLen storage baseSlot ctx
  if ¬ 31 < newLen then
    pure (Function.update storage baseSlot (encodeShortString bytes))
  else
    forRange 0 (calcChunks newLen) (fun storage i =>
      .ok (Function.update storage (dataSlot keccak256 baseSlot i) (chunkWord bytes i)))
      (Function.update storage baseSlot (encodeLongStringLength newLen))

def deleteBytesLike (storage : Slots) (baseSlot : U256) : Result Slots := do
  let baseValue := storage baseSlot
  let storage ← (if isLongString baseValue then do
      let length ← calcStringLength baseValue true
      zeroChunks keccak256 storage baseSlot 0 (calcChunks length)
    else pure storage)
  pure (Function.update storage baseSlot 0)

def len (storage : Slots) (baseSlot : U256) : Result Nat :=
  let baseValue := storage baseSlot
  calcStringLength baseValue (isLongString baseValue)

end SciChain.RawStorage.BytesLike
