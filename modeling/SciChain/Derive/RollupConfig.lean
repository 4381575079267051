import SciChain.Derive.Frame

namespace SciChain.Derive

structure BlockNumHash where
  number : U64
  hash : B256
  deriving DecidableEq, Repr

structure ChainGenesis where
  l1 : BlockNumHash
  l2 : BlockNumHash
  l2Time : U64
  deriving Repr

/-- Activation times of the upgrades that derivation consults. -/
structure HardForkConfig where
  canyonTime : Option U64
  deltaTime : Option U64
  ecotoneTime : Option U64
  fjordTime : Option U64
  graniteTime : Option U64
  holoceneTime : Option U64
  isthmusTime : Option U64
  jovianTime : Option U64
  deriving Repr

structure RollupConfig where
  genesis : ChainGenesis
  blockTime : U64
  maxSequencerDrift : U64
  seqWindowSize : U64
  channelTimeout : U64
  graniteChannelTimeout : U64
  l2ChainId : U64
  hardforks : HardForkConfig
  deriving Repr

/-- An upgrade is active from its own time on. -/
def activeSince (time : Option U64) (timestamp : U64) : Bool :=
  match time with
  | some t => t ≤ timestamp
  | none => false

namespace RollupConfig

def fjordMaxSequencerDrift : U64 := 1800

variable (cfg : RollupConfig) (timestamp : U64)

def isJovianActive : Bool := activeSince cfg.hardforks.jovianTime timestamp

def isIsthmusActive : Bool :=
  activeSince cfg.hardforks.isthmusTime timestamp || cfg.isJovianActive timestamp

def isHoloceneActive : Bool :=
  activeSince cfg.hardforks.holoceneTime timestamp || cfg.isIsthmusActive timestamp

def isGraniteActive : Bool :=
  activeSince cfg.hardforks.graniteTime timestamp || cfg.isHoloceneActive timestamp

def isFjordActive : Bool :=
  activeSince cfg.hardforks.fjordTime timestamp || cfg.isGraniteActive timestamp

def isEcotoneActive : Bool :=
  activeSince cfg.hardforks.ecotoneTime timestamp || cfg.isFjordActive timestamp

def isDeltaActive : Bool :=
  activeSince cfg.hardforks.deltaTime timestamp || cfg.isEcotoneActive timestamp

def isCanyonActive : Bool :=
  activeSince cfg.hardforks.canyonTime timestamp || cfg.isDeltaActive timestamp

def isFirstEcotoneBlock : Bool :=
  cfg.isEcotoneActive timestamp && !cfg.isEcotoneActive (Library.satSub timestamp cfg.blockTime)

def isFirstHoloceneBlock : Bool :=
  cfg.isHoloceneActive timestamp && !cfg.isHoloceneActive (Library.satSub timestamp cfg.blockTime)

def isFirstIsthmusBlock : Bool :=
  cfg.isIsthmusActive timestamp && !cfg.isIsthmusActive (Library.satSub timestamp cfg.blockTime)

def isFirstJovianBlock : Bool :=
  cfg.isJovianActive timestamp && !cfg.isJovianActive (Library.satSub timestamp cfg.blockTime)

def maxSequencerDriftAt : U64 :=
  if cfg.isFjordActive timestamp then fjordMaxSequencerDrift else cfg.maxSequencerDrift

def channelTimeoutAt : U64 :=
  if cfg.isGraniteActive timestamp then cfg.graniteChannelTimeout else cfg.channelTimeout

/-- A chain with two seconds a block, by the upgrades it has. -/
def withUpgrades (hardforks : HardForkConfig) : RollupConfig where
  genesis := ⟨⟨0, 0⟩, ⟨0, 0⟩, 0⟩
  blockTime := 2
  maxSequencerDrift := 600
  seqWindowSize := 3600
  channelTimeout := 300
  graniteChannelTimeout := 50
  l2ChainId := 10
  hardforks

section Later

variable {cfg : RollupConfig} {t t' : U64} (hle : t ≤ t')
include hle

theorem activeSince_mono (h : activeSince time t = true) : activeSince time t' = true := by
  cases time with
  | none => cases h
  | some start =>
    simp only [activeSince, decide_eq_true_eq] at h ⊢
    exact BitVec.le_trans h hle

/-- An upgrade that later ones include stays active if they do. -/
theorem or_mono {time : Option U64} {later : U64 → Bool}
    (hlater : later t = true → later t' = true) (h : (activeSince time t || later t) = true) :
    (activeSince time t' || later t') = true := by
  rcases Bool.or_eq_true_iff.mp h with hnow | hnow
  · rw [activeSince_mono hle hnow, Bool.true_or]
  · rw [hlater hnow, Bool.or_true]

theorem isJovianActive_mono : cfg.isJovianActive t = true → cfg.isJovianActive t' = true :=
  activeSince_mono hle

theorem isIsthmusActive_mono : cfg.isIsthmusActive t = true → cfg.isIsthmusActive t' = true :=
  or_mono hle (isJovianActive_mono hle)

theorem isHoloceneActive_mono : cfg.isHoloceneActive t = true → cfg.isHoloceneActive t' = true :=
  or_mono hle (isIsthmusActive_mono hle)

theorem isFjordActive_mono : cfg.isFjordActive t = true → cfg.isFjordActive t' = true :=
  or_mono hle (or_mono hle (isHoloceneActive_mono hle))

theorem isEcotoneActive_mono : cfg.isEcotoneActive t = true → cfg.isEcotoneActive t' = true :=
  or_mono hle (isFjordActive_mono hle)

end Later

end RollupConfig
end SciChain.Derive
