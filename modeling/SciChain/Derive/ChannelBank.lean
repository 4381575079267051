import SciChain.Derive.Channel
import SciChain.Derive.Pipeline

namespace SciChain.Derive
open Library

/-- Channels under construction before Holocene. The map from ids to channels is
a list of entries; the queue holds the ids in the order of arrival. -/
structure ChannelBank where
  channels : List (ChannelId × Channel)
  channelQueue : List ChannelId

namespace ChannelBank

def maxChannelBankSize : Nat := 100000000
def fjordMaxChannelBankSize : Nat := 1000000000

def new : ChannelBank := ⟨[], []⟩

def channel? (bank : ChannelBank) (id : ChannelId) : Option Channel := bank.channels.lookup id

def size (bank : ChannelBank) : Nat := bank.channels.foldl (fun acc e => acc + e.2.size) 0

/-- The map without the entry of `id`. -/
def without (channels : List (ChannelId × Channel)) (id : ChannelId) :
    List (ChannelId × Channel) :=
  channels.filter (fun e => e.1 ≠ id)

/-- The loop of `prune` over the queue, with the size left. -/
def pruneFrom (max total : Nat) (channels : List (ChannelId × Channel)) :
    List ChannelId → PipelineResult Unit × ChannelBank
  | [] =>
    if max < total then (.error PipelineError.channelProviderEmpty.crit, ⟨channels, []⟩)
    else (.ok (), ⟨channels, []⟩)
  | id :: queue =>
    if max < total then
      match channels.lookup id with
      | none => (.error PipelineError.channelNotFound.crit, ⟨channels, queue⟩)
      | some channel => pruneFrom max (total - channel.size) (without channels id) queue
    else (.ok (), ⟨channels, id :: queue⟩)

def maxSize (cfg : RollupConfig) (origin : BlockInfo) : Nat :=
  if cfg.isFjordActive origin.timestamp then fjordMaxChannelBankSize else maxChannelBankSize

/-- The origin is that of the stage before, which may have none. -/
def prune (cfg : RollupConfig) (origin : Option BlockInfo) (bank : ChannelBank) :
    PipelineResult Unit × ChannelBank :=
  match origin with
  | none => (.error PipelineError.missingOrigin.crit, bank)
  | some origin => pruneFrom (maxSize cfg origin) bank.size bank.channels bank.channelQueue

/-- `none` is a panic of the addition. -/
def timedOut (mode : Overflow) (cfg : RollupConfig) (origin : BlockInfo) (channel : Channel) :
    Option Bool :=
  (mode.add channel.openBlockNumber (cfg.channelTimeoutAt origin.timestamp)).map
    (fun last => decide (last < origin.number))

/-- The channel of a frame, opened if there is none. -/
def obtainChannel (bank : ChannelBank) (id : ChannelId) (origin : BlockInfo) :
    Channel × ChannelBank :=
  match bank.channel? id with
  | some channel => (channel, bank)
  | none =>
    let channel := Channel.new id origin
    (channel, ⟨(id, channel) :: bank.channels, bank.channelQueue ++ [id]⟩)

def setChannel (bank : ChannelBank) (id : ChannelId) (channel : Channel) : ChannelBank :=
  { bank with channels := bank.channels.map (fun e => if e.1 = id then (id, channel) else e) }

def ingestFrame (mode : Overflow) (cfg : RollupConfig) (origin : Option BlockInfo) (frame : Frame)
    (bank : ChannelBank) : Option (PipelineResult Unit × ChannelBank) :=
  match origin with
  | none => some (.error PipelineError.missingOrigin.crit, bank)
  | some origin => do
    let (channel, bank) := bank.obtainChannel frame.id origin
    -- The frame of a channel that timed out is ignored, as is one the channel refuses.
    if ← timedOut mode cfg origin channel then some (.ok (), bank) else
    match channel.addFrame frame origin with
    | .error _ => some (.ok (), bank)
    | .ok channel => some ((bank.setChannel frame.id channel).prune cfg (some origin))

/-- Indexing past the end of the queue panics. -/
def tryReadChannelAtIndex (mode : Overflow) (cfg : RollupConfig) (origin : BlockInfo)
    (index : Nat) (bank : ChannelBank) : Option (PipelineResult Bytes × ChannelBank) := do
  let id ← bank.channelQueue[index]?
  match bank.channel? id with
  | none => some (.error PipelineError.channelProviderEmpty.crit, bank)
  | some channel =>
    if ← timedOut mode cfg origin channel then some (.error PipelineError.eof.temp, bank) else
    if ¬(← channel.isReady mode) then some (.error PipelineError.eof.temp, bank) else
    let bank := ⟨without bank.channels id, bank.channelQueue.eraseIdx index⟩
    match channel.frameData with
    | none => some (.error PipelineError.channelProviderEmpty.crit, bank)
    | some data => some (.ok data, bank)

/-- The first of the next `left` channels from `index` on that can be read. -/
def findReadable (mode : Overflow) (cfg : RollupConfig) (origin : BlockInfo) :
    Nat → Nat → ChannelBank → Option (PipelineResult (Option Bytes) × ChannelBank)
  | 0, _, bank => some (.error PipelineError.eof.temp, bank)
  | left + 1, index, bank => do
    let (data, bank) ← bank.tryReadChannelAtIndex mode cfg origin index
    match data with
    | .ok data => some (.ok (some data), bank)
    | .error _ => findReadable mode cfg origin left (index + 1) bank

def read (mode : Overflow) (cfg : RollupConfig) (origin : Option BlockInfo) (bank : ChannelBank) :
    Option (PipelineResult (Option Bytes) × ChannelBank) :=
  match bank.channelQueue with
  | [] => some (.error PipelineError.eof.temp, bank)
  | first :: rest =>
    match bank.channel? first, origin with
    | some channel, some origin => do
      if ← timedOut mode cfg origin channel then
        some (.ok none, ⟨without bank.channels first, rest⟩)
      else if ¬cfg.isCanyonActive origin.timestamp then do
        let (data, bank) ← bank.tryReadChannelAtIndex mode cfg origin 0
        some (data.map some, bank)
      else findReadable mode cfg origin bank.channelQueue.length 0 bank
    | _, _ => some (.error PipelineError.channelProviderEmpty.crit, bank)

/-- `next` is what the stage before answers when asked for a frame. -/
def nextData (mode : Overflow) (cfg : RollupConfig) (origin : Option BlockInfo)
    (next : PipelineResult Frame) (bank : ChannelBank) :
    Option (PipelineResult (Option Bytes) × ChannelBank) := do
  let (data, bank) ← bank.read mode cfg origin
  match data with
  | .ok data => some (.ok data, bank)
  | .error e =>
    if e ≠ PipelineError.eof.temp then
      some (.error PipelineError.channelProviderEmpty.crit, bank)
    else
      match next with
      | .error e => some (.error e, bank)
      | .ok frame => do
        let (res, bank) ← bank.ingestFrame mode cfg origin frame
        match res with
        | .error e => some (.error e, bank)
        | .ok () => some (.error PipelineError.notEnoughData.temp, bank)

end ChannelBank
end SciChain.Derive
