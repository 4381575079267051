import SciChain.Library.Result
import SciChain.Primitives

namespace SciChain.Batcher
open Library

inductive CompressorError where
  | full
  | brotli
  deriving DecidableEq, Repr

inductive BrotliLevel where
  | brotli9
  | brotli10
  | brotli11
  deriving DecidableEq, Repr

inductive CompressionAlgo where
  | brotli (level : BrotliLevel)
  | zlib
  deriving DecidableEq, Repr

/-- What the compression libraries make of an input. Brotli may fail. -/
structure Libraries where
  brotli : BrotliLevel → Bytes → Option Bytes
  zlib : Bytes → Bytes

/-- The cache that asking for the length fills is left out: reading fills it again, and a write
empties it. -/
structure BrotliCompressor where
  compressed : Bytes
  raw : Bytes
  closed : Bool
  dirty : Bool
  level : BrotliLevel
  deriving DecidableEq, Repr

structure ZlibCompressor where
  buffer : Bytes
  compressed : Bytes
  dirty : Bool
  deriving DecidableEq, Repr

inductive VariantCompressor where
  | brotli (compressor : BrotliCompressor)
  | zlib (compressor : ZlibCompressor)
  deriving DecidableEq, Repr

namespace BrotliCompressor

def ensureCompressed (lib : Libraries) (c : BrotliCompressor) :
    Except CompressorError BrotliCompressor :=
  if c.dirty then
    match lib.brotli c.level c.raw with
    | none => .error .brotli
    | some compressed => .ok { c with compressed, dirty := false }
  else .ok c

def write (data : Bytes) (c : BrotliCompressor) : Except CompressorError BrotliCompressor :=
  if c.closed then .error .brotli
  else .ok { c with raw := c.raw ++ data, compressed := [], dirty := true }

/-- A failure is ignored here. -/
def getCompressed (lib : Libraries) (c : BrotliCompressor) : Bytes :=
  match c.ensureCompressed lib with
  | .ok c => c.compressed
  | .error _ => c.compressed

end BrotliCompressor

namespace ZlibCompressor

def ensureCompressed (lib : Libraries) (c : ZlibCompressor) : ZlibCompressor :=
  if c.dirty then { c with compressed := lib.zlib c.buffer, dirty := false } else c

def write (data : Bytes) (c : ZlibCompressor) : ZlibCompressor :=
  { c with buffer := c.buffer ++ data, compressed := [], dirty := true }

end ZlibCompressor

namespace VariantCompressor

def ofAlgo : CompressionAlgo → VariantCompressor
  | .brotli level => .brotli ⟨[], [], false, false, level⟩
  | .zlib => .zlib ⟨[], [], false⟩

def write (data : Bytes) : VariantCompressor → Except CompressorError VariantCompressor
  | .brotli c => (c.write data).map .brotli
  | .zlib c => .ok (.zlib (c.write data))

def getCompressed (lib : Libraries) : VariantCompressor → Bytes
  | .brotli c => c.getCompressed lib
  | .zlib c => (c.ensureCompressed lib).compressed

def len (lib : Libraries) (c : VariantCompressor) : Nat := (c.getCompressed lib).length

end VariantCompressor

def safeCompressionOverhead : Nat := 51

def closeOverheadZlib : Nat := 9

/-- Two compressors that get the same data: one to measure, one for the result. -/
structure ShadowCompressor where
  targetOutputSize : Nat
  compressor : VariantCompressor
  shadow : VariantCompressor
  isFull : Bool
  bound : Nat
  deriving DecidableEq, Repr

namespace ShadowCompressor

def ofConfig (targetOutputSize : Nat) (algo : CompressionAlgo) : ShadowCompressor :=
  ⟨targetOutputSize, .ofAlgo algo, .ofAlgo algo, false, safeCompressionOverhead⟩

def len (lib : Libraries) (s : ShadowCompressor) : Nat := s.compressor.len lib

/-- The end of a write that is not refused. -/
def compress (newbound : Nat) (data : Bytes) (s : ShadowCompressor) :
    Except CompressorError Nat × ShadowCompressor :=
  match s.compressor.write data with
  | .error e => (.error e, { s with bound := newbound })
  | .ok compressor => (.ok data.length, { s with bound := newbound, compressor })

/-- Flushing a compressor does nothing. -/
def write (lib : Libraries) (data : Bytes) (s : ShadowCompressor) :
    Except CompressorError Nat × ShadowCompressor :=
  if s.isFull then (.error .full, s) else
  match s.shadow.write data with
  | .error e => (.error e, s)
  | .ok shadow =>
    if s.targetOutputSize < data.length then
      let newbound := shadow.len lib + closeOverheadZlib
      if s.targetOutputSize < newbound then
        if 0 < s.compressor.len lib then (.error .full, { s with shadow, isFull := true })
        else { s with shadow, isFull := true }.compress newbound data
      else { s with shadow }.compress newbound data
    else { s with shadow }.compress data.length data

/-- Writes one after the other: those that were accepted, and the state after them. -/
def writes (lib : Libraries) : List Bytes → ShadowCompressor → List Bytes × ShadowCompressor
  | [], s => ([], s)
  | data :: rest, s =>
    let (result, s) := s.write lib data
    let (accepted, s) := writes lib rest s
    (if result.isOk then data :: accepted else accepted, s)

end ShadowCompressor
end SciChain.Batcher
