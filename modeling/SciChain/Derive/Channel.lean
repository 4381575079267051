import SciChain.Derive.Frame

namespace SciChain.Derive
open Library

inductive ChannelError where
  | frameIdMismatch
  | channelClosed
  | frameNumberExists (number : Nat)
  | frameBeyondEndFrame (number : Nat)
  deriving DecidableEq, Repr

/-- A set of batches split into frames, which may arrive in any order. The map
from frame numbers to frames is a list of entries. -/
structure Channel where
  id : ChannelId
  openBlock : BlockInfo
  estimatedSize : Nat
  closed : Bool
  highestFrameNumber : U16
  lastFrameNumber : U16
  inputs : List (U16 × Frame)
  highestL1InclusionBlock : BlockInfo

namespace Channel

def new (id : ChannelId) (openBlock : BlockInfo) : Channel where
  id
  openBlock
  estimatedSize := 0
  closed := false
  highestFrameNumber := 0
  lastFrameNumber := 0
  inputs := []
  highestL1InclusionBlock := default

def len (c : Channel) : Nat := c.inputs.length

def isEmpty (c : Channel) : Bool := c.inputs.isEmpty

def frame? (c : Channel) (number : U16) : Option Frame := c.inputs.lookup number

/-- The entries removed when a frame with this number closes the channel. -/
def beyond (c : Channel) (number : U16) : List (U16 × Frame) :=
  c.inputs.filter (fun e => ¬ e.1 < number)

/-- Closing prunes the frames numbered above the closing one. -/
def close (c : Channel) (number : U16) : Channel :=
  if number < c.highestFrameNumber then
    { c with
      lastFrameNumber := number
      closed := true
      inputs := c.inputs.filter (fun e => e.1 < number)
      estimatedSize := (c.beyond number).foldl (fun size e => size - e.2.size) c.estimatedSize
      highestFrameNumber := number }
  else { c with lastFrameNumber := number, closed := true }

def addFrame (c : Channel) (frame : Frame) (l1InclusionBlock : BlockInfo) :
    Except ChannelError Channel := do
  reject (frame.id ≠ c.id) .frameIdMismatch
  reject (frame.isLast ∧ c.closed) .channelClosed
  reject ((c.frame? frame.number).isSome) (.frameNumberExists frame.number.toNat)
  reject (c.closed ∧ c.lastFrameNumber ≤ frame.number) (.frameBeyondEndFrame frame.number.toNat)
  let c := if frame.isLast then c.close frame.number else c
  pure { c with
    highestFrameNumber :=
      if c.highestFrameNumber < frame.number then frame.number else c.highestFrameNumber
    highestL1InclusionBlock :=
      if c.highestL1InclusionBlock.number < l1InclusionBlock.number then l1InclusionBlock
      else c.highestL1InclusionBlock
    estimatedSize := c.estimatedSize + frame.size
    inputs := (frame.number, frame) :: c.inputs }

def openBlockNumber (c : Channel) : U64 := c.openBlock.number

def size (c : Channel) : Nat := c.estimatedSize

/-- The last number plus one is taken in sixteen bits. -/
def isReady (mode : Overflow) (c : Channel) : Option Bool :=
  if ¬c.closed then some false else do
  let expected ← mode.add c.lastFrameNumber 1
  if c.inputs.length ≠ expected.toNat then some false else
  some ((List.range (c.lastFrameNumber.toNat + 1)).all
    (fun i => (c.frame? (BitVec.ofNat 16 i)).isSome))

def frameData (c : Channel) : Option Bytes :=
  if c.isEmpty then none else
  (List.range (c.lastFrameNumber.toNat + 1)).foldlM
    (fun data i => (c.frame? (BitVec.ofNat 16 i)).map (fun frame => data ++ frame.data)) []

end Channel
end SciChain.Derive
