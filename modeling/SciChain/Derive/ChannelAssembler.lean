import SciChain.Derive.Channel
import SciChain.Derive.Pipeline

namespace SciChain.Derive
open Library

namespace RollupConfig

def maxRlpBytesPerChannelBedrock : Nat := 10000000
def maxRlpBytesPerChannelFjord : Nat := 100000000

def maxRlpBytesPerChannel (cfg : RollupConfig) (timestamp : U64) : Nat :=
  if cfg.isFjordActive timestamp then maxRlpBytesPerChannelFjord else maxRlpBytesPerChannelBedrock

end RollupConfig

/-- The one channel that is assembled since Holocene. -/
structure ChannelAssembler where
  channel : Option Channel

namespace ChannelAssembler

def new : ChannelAssembler := ⟨none⟩

/-- `none` is a panic of the addition. -/
def isTimedOut (mode : Overflow) (cfg : RollupConfig) (origin : BlockInfo) :
    Option Channel → Option Bool
  | none => some false
  | some channel => (mode.add channel.openBlockNumber (cfg.channelTimeoutAt origin.timestamp)).map
      (fun last => decide (last < origin.number))

/-- What follows once the frame is in the channel. -/
def forward (mode : Overflow) (cfg : RollupConfig) (origin : BlockInfo) (channel : Channel) :
    Option (PipelineResult (Option Bytes) × ChannelAssembler) :=
  if cfg.maxRlpBytesPerChannel origin.timestamp < channel.size then
    some (.error PipelineError.notEnoughData.temp, ⟨none⟩)
  else
    (channel.isReady mode).map fun ready =>
      if ready then
        match channel.frameData with
        | none => (.error PipelineError.channelNotFound.crit, ⟨some channel⟩)
        | some data => (.ok (some data), ⟨none⟩)
      else (.error PipelineError.notEnoughData.temp, ⟨some channel⟩)

/-- A frame that the channel does not take is dropped, and the channel stays. -/
def addFrame (mode : Overflow) (cfg : RollupConfig) (origin : BlockInfo) (frame : Frame)
    (channel : Channel) : Option (PipelineResult (Option Bytes) × ChannelAssembler) :=
  -- Only a metric uses this sum, but it can panic.
  (mode.add channel.openBlockNumber (cfg.channelTimeoutAt origin.timestamp)).bind fun _ =>
    if frame.number.toNat ≠ channel.len then
      some (.error PipelineError.notEnoughData.temp, ⟨some channel⟩)
    else
      match channel.addFrame frame origin with
      | .error _ => some (.error PipelineError.notEnoughData.temp, ⟨some channel⟩)
      | .ok channel => forward mode cfg origin channel

/-- The channel that a frame is added to: a first frame starts a new one. -/
def current (origin : BlockInfo) (frame : Frame) (channel : Option Channel) : Option Channel :=
  if frame.number = 0 then some (Channel.new frame.id origin) else channel

/-- The origin is that of the stage before, which may have none; `next` is what
that stage answers when asked for a frame. -/
def nextData (mode : Overflow) (cfg : RollupConfig) (origin : Option BlockInfo)
    (next : PipelineResult Frame) (s : ChannelAssembler) :
    Option (PipelineResult (Option Bytes) × ChannelAssembler) :=
  match origin with
  | none => some (.error PipelineError.missingOrigin.crit, s)
  | some origin => (isTimedOut mode cfg origin s.channel).bind fun timedOut =>
      let channel := if timedOut then none else s.channel
      match next with
      | .error e => some (.error e, ⟨channel⟩)
      | .ok frame =>
        match current origin frame channel with
        | none => some (.error PipelineError.notEnoughData.temp, ⟨none⟩)
        | some channel => addFrame mode cfg origin frame channel

/-- A call of `next_data`: the origin at the time, and the answer of the stage
before. -/
structure Call where
  origin : Option BlockInfo
  next : PipelineResult Frame

/-- The frame that a call receives, with the origin it is received at. -/
def Call.received (call : Call) : Option (Frame × BlockInfo) :=
  match call.origin, call.next with
  | some origin, .ok frame => some (frame, origin)
  | _, _ => none

/-- The stage after some calls, unless one of them panics. -/
def run (mode : Overflow) (cfg : RollupConfig) (calls : List Call) : Option ChannelAssembler :=
  calls.foldlM (fun s call => (nextData mode cfg call.origin call.next s).map Prod.snd) new

end ChannelAssembler
end SciChain.Derive
