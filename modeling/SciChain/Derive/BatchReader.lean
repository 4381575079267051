import SciChain.Library.Rlp
import SciChain.Primitives

namespace SciChain.Derive
open Library

/-- How the inflating library ends. -/
inductive TinflStatus where
  | failedCannotMakeProgress | badParam | adler32Mismatch | failed | done | needsMoreInput
  | hasMoreOutput
  deriving DecidableEq, Repr

/-- The library's error, with what it had decompressed. -/
structure DecompressError where
  status : TinflStatus
  output : Bytes
  deriving DecidableEq, Repr

inductive BrotliResult where
  | success | needsMoreInput | needsMoreOutput | failure
  deriving DecidableEq, Repr

inductive BrotliDecompressionError where
  | decompressionFailed (result : BrotliResult)
  deriving DecidableEq, Repr

inductive DecompressionError where
  | emptyData
  | unsupportedType (compressionType : UInt8)
  | brotliError (e : BrotliDecompressionError)
  | zlibError
  deriving DecidableEq, Repr

/-- The two libraries. Brotli works on a state of its own: one call is given the room that is
left in the output and appends the bytes it returns. -/
structure Decompressors (σ : Type) where
  decompressToVecZlibWithLimit : Bytes → Nat → Except DecompressError Bytes
  brotliState : Bytes → σ
  brotliDecompressStream : σ → Nat → BrotliResult × Bytes × σ

namespace Brotli

variable {σ : Type}

/-- The loop over the library's calls. `written` is what the output of `len` bytes holds, and
`availableOut` the room that is left in it. -/
def decompressLoop (lib : Decompressors σ) (maxRlpBytesPerChannel : Nat) (state : σ)
    (written : Bytes) (len availableOut : Nat) : Except BrotliDecompressionError Bytes :=
  match lib.brotliDecompressStream state availableOut with
  | (.needsMoreOutput, bytes, state') =>
    if maxRlpBytesPerChannel ≤ len then .ok (written ++ bytes)
    else
      -- the output grows, but not beyond the limit
      let newLen := min (max (len * 2) 1) maxRlpBytesPerChannel
      decompressLoop lib maxRlpBytesPerChannel state' (written ++ bytes) newLen
        (availableOut - bytes.length + (newLen - len))
  | (result, bytes, _) =>
    if (written ++ bytes).length = 0 then .error (.decompressionFailed result)
    else .ok (written ++ bytes)
termination_by maxRlpBytesPerChannel - len

def decompress (lib : Decompressors σ) (data : Bytes) (maxRlpBytesPerChannel : Nat) :
    Except BrotliDecompressionError Bytes :=
  let len := min data.length maxRlpBytesPerChannel
  decompressLoop lib maxRlpBytesPerChannel (lib.brotliState data) [] len len

end Brotli

structure BatchReader where
  data : Option Bytes
  decompressed : Bytes
  cursor : Nat
  maxRlpBytesPerChannel : Nat
  brotliUsed : Bool
  brotliSupported : Bool
  deriving DecidableEq, Repr

namespace BatchReader

variable {σ B : Type}

def zlibDeflateCompressionMethod : UInt8 := 8
def zlibReservedCompressionMethod : UInt8 := 15
def channelVersionBrotli : UInt8 := 1

/-- Whether the first byte of a channel announces zlib. -/
def isZlib (compressionType : UInt8) : Bool :=
  compressionType &&& 0x0F == zlibDeflateCompressionMethod ||
    compressionType &&& 0x0F == zlibReservedCompressionMethod

def new (data : Bytes) (maxRlpBytesPerChannel : Nat) (brotliSupported : Bool) : BatchReader :=
  ⟨some data, [], 0, maxRlpBytesPerChannel, false, brotliSupported⟩

def decompressZlib (lib : Decompressors σ) (r : BatchReader) (data : Bytes) :
    Except DecompressionError Unit × BatchReader :=
  match lib.decompressToVecZlibWithLimit data r.maxRlpBytesPerChannel with
  | .ok decompressed => (.ok (), { r with decompressed })
  | .error e =>
    if e.status = .hasMoreOutput ∨ e.output ≠ [] then
      (.ok (), { r with decompressed := e.output })
    else (.error .zlibError, r)

def decompressBrotli (lib : Decompressors σ) (r : BatchReader) (data : Bytes) :
    Except DecompressionError Unit × BatchReader :=
  match Brotli.decompress lib (data.drop 1) r.maxRlpBytesPerChannel with
  | .ok decompressed => (.ok (), { r with decompressed, brotliUsed := true })
  | .error e => (.error (.brotliError e), { r with brotliUsed := true })

def decompress (lib : Decompressors σ) (r : BatchReader) :
    Except DecompressionError Unit × BatchReader :=
  if r.decompressed ≠ [] then (.ok (), r)
  else
    match r.data with
    | none => (.error .emptyData, r)
    | some [] => (.error .emptyData, { r with data := none })
    | some (compressionType :: rest) =>
      if isZlib compressionType then
        decompressZlib lib { r with data := none } (compressionType :: rest)
      else if compressionType = channelVersionBrotli ∧ r.brotliSupported then
        decompressBrotli lib { r with data := none } (compressionType :: rest)
      else (.error (.unsupportedType compressionType), { r with data := none })

/-- One batch behind the cursor. `decodeBatch` decodes the content of a string, whatever it leaves
of it. -/
def readBatch (decodeBatch : Bytes → Option B) (r : BatchReader) : Option B × BatchReader :=
  match Rlp.decodeBytes (r.decompressed.drop r.cursor) false with
  | .error _ => (none, r)
  | .ok (bytes, rest) =>
    match decodeBatch bytes with
    | none => (none, r)
    | some batch => (some batch, { r with cursor := r.decompressed.length - rest.length })

/-- `none` is a cursor behind the data, which panics. -/
def nextBatch (lib : Decompressors σ) (decodeBatch : Bytes → Option B) (r : BatchReader) :
    Option (Option B × BatchReader) :=
  match decompress lib r with
  | (.error _, r) => some (none, r)
  | (.ok (), r) =>
    if r.decompressed.length < r.cursor then none else some (readBatch decodeBatch r)

/-- What `n` calls return one after the other. -/
def nextBatches (lib : Decompressors σ) (decodeBatch : Bytes → Option B) :
    Nat → BatchReader → Option (List (Option B) × BatchReader)
  | 0, r => some ([], r)
  | n + 1, r => (nextBatch lib decodeBatch r).bind fun next =>
    (nextBatches lib decodeBatch n next.2).map fun rest => (next.1 :: rest.1, rest.2)

end BatchReader
end SciChain.Derive
