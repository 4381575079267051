import SciChain.Library.Result
import SciChain.Primitives

namespace SciChain.Derive
open Library

structure BlockInfo where
  hash : B256
  number : U64
  parentHash : B256
  timestamp : U64
  deriving DecidableEq, Repr

instance : Inhabited BlockInfo := ⟨⟨0, 0, 0, 0⟩⟩

/-- An opaque identifier of sixteen bytes. -/
abbrev ChannelId := { bytes : Bytes // bytes.length = 16 }

/-- A segment of the data of one channel. -/
structure Frame where
  id : ChannelId
  number : U16
  data : Bytes
  isLast : Bool
  deriving DecidableEq

inductive FrameDecodingError where
  | dataTooLarge (len : Nat)
  | dataTooShort (len : Nat)
  | invalidId
  | invalidNumber
  | invalidDataLength
  deriving DecidableEq, Repr

inductive FrameParseError where
  | frameDecodingError (error : FrameDecodingError)
  | noFrames
  | unsupportedVersion
  | dataLengthMismatch
  | noFramesDecoded
  deriving DecidableEq, Repr

def derivationVersion0 : UInt8 := 0

namespace Frame

def overhead : Nat := 200

def maxLen : Nat := 1000000

/-- Bytes of an encoded frame besides its data. -/
def baseFrameLen : Nat := 16 + 2 + 4 + 1

/-- Memory accounted to a buffered frame. -/
def size (f : Frame) : Nat := f.data.length + overhead

def encode (f : Frame) : Bytes :=
  f.id.val ++ beBytes 2 f.number.toNat ++ beBytes 4 f.data.length ++ f.data ++
    [if f.isLast then 1 else 0]

def decode (encoded : Bytes) : Except FrameDecodingError (Nat × Frame) :=
  if h : encoded.length < baseFrameLen then .error (.dataTooShort encoded.length) else
  let id : ChannelId := ⟨encoded.take 16, by
    rw [List.length_take]
    unfold baseFrameLen at h
    omega⟩
  let number : U16 := BitVec.ofNat 16 (beValue ((encoded.drop 16).take 2))
  let dataLen := beValue ((encoded.drop 18).take 4)
  if maxLen < dataLen ∨ encoded.length - (baseFrameLen - 1) ≤ dataLen then
    .error (.dataTooLarge dataLen)
  else
    let data := (encoded.drop 22).take dataLen
    let isLast := encoded.getD (22 + dataLen) 0 == 1
    .ok (baseFrameLen + dataLen, { id, number, data, isLast })

theorem decode_len {encoded : Bytes} {n : Nat} {f : Frame} (h : decode encoded = .ok (n, f)) :
    0 < n ∧ n ≤ encoded.length := by
  unfold decode at h
  split at h
  · cases h
  · rename_i hlen
    simp only at h
    split at h
    · cases h
    · rename_i hdata
      obtain ⟨rfl, _⟩ := Prod.mk.inj (Except.ok.inj h)
      simp only [baseFrameLen] at hlen hdata ⊢
      omega

/-- The loop of `parse_frames`: the decoded frames and the offset where it
stopped. -/
def parseFrom (data : Bytes) (offset : Nat) : Except FrameParseError (List Frame × Nat) :=
  if offset < data.length then
    match _h : decode (data.drop offset) with
    | .error e => .error (.frameDecodingError e)
    | .ok (frameLength, frame) => do
      let (frames, stop) ← parseFrom data (offset + frameLength)
      pure (frame :: frames, stop)
  else .ok ([], offset)
termination_by data.length - offset
decreasing_by
  have := decode_len _h
  omega

def parseFrames : Bytes → Except FrameParseError (List Frame)
  | [] => .error .noFrames
  | version :: data => do
    reject (version ≠ derivationVersion0) .unsupportedVersion
    let (frames, offset) ← parseFrom data 0
    reject (offset ≠ data.length) .dataLengthMismatch
    reject (frames = []) .noFramesDecoded
    pure frames

end Frame
end SciChain.Derive
