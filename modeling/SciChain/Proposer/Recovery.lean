import SciChain.Library.Result
import SciChain.Primitives

namespace SciChain.Proposer
open Library

/-- The service does not start with a block interval below 2. -/
structure DriverConfig where
  blockInterval : Nat
  intermediateBlockInterval : Nat
  gameType : U32
  anchorStateRegistryAddress : Address
  two_le : 2 ≤ blockInterval

structure RecoveredState where
  parentAddress : Address
  outputRoot : B256
  l2BlockNumber : Nat
  deriving DecidableEq, Repr

structure CachedRecovery where
  gameCount : Nat
  state : RecoveredState
  deriving DecidableEq, Repr

inductive ProposerError where
  | config | internal | rpc | contract | invalidParentGame
  deriving DecidableEq, Repr

structure AnchorSnapshot where
  root : B256
  l2BlockNumber : Nat
  anchorGame : Address

/-- What the contracts and the rollup node answer at one time. -/
structure Chain where
  gameCount : Nat
  anchor : AnchorSnapshot
  games : U32 → B256 → Bytes → Address
  /-- None for a block that is not found. -/
  outputAtBlock : Nat → Option B256

def encodeExtraData (l2BlockNumber : Nat) (parentAddress : Address)
    (intermediateRoots : List B256) : Bytes :=
  beBytes 32 l2BlockNumber ++ beBytes 20 parentAddress.toNat ++
    intermediateRoots.flatMap fun root => beBytes 32 root.toNat

def DriverConfig.intermediateBlockNumbers (cfg : DriverConfig) (startingBlockNumber : Nat) :
    Except ProposerError (List Nat) :=
  if cfg.intermediateBlockInterval = 0 then .error .config else
  (List.range' 1 (cfg.blockInterval / cfg.intermediateBlockInterval)).mapM fun i =>
    if startingBlockNumber + i * cfg.intermediateBlockInterval < 2 ^ 64 then
      .ok (startingBlockNumber + i * cfg.intermediateBlockInterval)
    else .error .internal

namespace Chain

/-- The registry is the parent as long as no game is the anchor. -/
def anchorState (cfg : DriverConfig) (chain : Chain) : RecoveredState where
  parentAddress :=
    if chain.anchor.anchorGame = 0 then cfg.anchorStateRegistryAddress else chain.anchor.anchorGame
  outputRoot := chain.anchor.root
  l2BlockNumber := chain.anchor.l2BlockNumber

/-- One round of the forward walk: the next game, or none where the walk ends. -/
def forwardStep (cfg : DriverConfig) (chain : Chain) (parent : RecoveredState) :
    Except ProposerError (Option RecoveredState) :=
  let expectedBlock := parent.l2BlockNumber + cfg.blockInterval
  if 2 ^ 64 ≤ expectedBlock then .ok none else
  (cfg.intermediateBlockNumbers parent.l2BlockNumber).bind fun blocks =>
    match blocks.mapM chain.outputAtBlock with
    | none => .ok none
    | some roots =>
      match (blocks.zip roots).lookup expectedBlock with
      | none => .error .internal
      | some canonicalRoot =>
        let proxy := chain.games cfg.gameType canonicalRoot
          (encodeExtraData expectedBlock parent.parentAddress roots)
        .ok (if proxy = 0 then none else some ⟨proxy, canonicalRoot, expectedBlock⟩)

theorem forwardStep_number (h : forwardStep cfg chain s = .ok (some next)) :
    s.l2BlockNumber < next.l2BlockNumber ∧ next.l2BlockNumber < 2 ^ 64 := by
  have hpos := cfg.two_le
  unfold forwardStep at h
  dsimp only at h
  split at h
  · cases h
  · obtain ⟨blocks, _, h⟩ := (bind_ok _ _ _).mp h
    split at h
    · cases h
    · split at h
      · cases h
      · have h := Except.ok.inj h
        split at h
        · cases h
        · rw [← Option.some.inj h]
          dsimp only
          omega

def forwardWalk (cfg : DriverConfig) (chain : Chain) (s : RecoveredState) :
    Except ProposerError RecoveredState :=
  match _h : chain.forwardStep cfg s with
  | .error e => .error e
  | .ok none => .ok s
  | .ok (some next) => chain.forwardWalk cfg next
termination_by 2 ^ 64 - s.l2BlockNumber
decreasing_by
  have := forwardStep_number _h
  omega

/-- Where the walk starts: at the cached tip if games were added and the anchor is not past it. -/
def start (cfg : DriverConfig) (chain : Chain) : Option CachedRecovery → RecoveredState
  | some cached =>
    if chain.anchor.l2BlockNumber ≤ cached.state.l2BlockNumber ∧
      cached.gameCount < chain.gameCount then cached.state else chain.anchorState cfg
  | none => chain.anchorState cfg

def walkAndCache (cfg : DriverConfig) (chain : Chain) (cache : Option CachedRecovery) :
    Except ProposerError RecoveredState × Option CachedRecovery :=
  match chain.forwardWalk cfg (chain.start cfg cache) with
  | .error e => (.error e, cache)
  | .ok state => (.ok state, some ⟨chain.gameCount, state⟩)

/-- A call that fails ends the recovery and leaves the cache. -/
def recoverLatestState (cfg : DriverConfig) (chain : Chain) (failure : Option ProposerError)
    (cache : Option CachedRecovery) : Except ProposerError RecoveredState × Option CachedRecovery :=
  match failure, cache with
  | some e, _ => (.error e, cache)
  | none, none => chain.walkAndCache cfg none
  | none, some cached =>
    if chain.anchor.l2BlockNumber ≤ cached.state.l2BlockNumber ∧
      cached.gameCount = chain.gameCount then (.ok cached.state, cache)
    else chain.walkAndCache cfg cache

end Chain

inductive SubmitOutcome where
  | success
  | gameAlreadyExists
  | rootMismatch
  | failed (error : ProposerError)
  | discard
  | cancelled
  | panicked

/-- What the coordinator handles. A proof that fails too often or panics resets the pipeline. -/
inductive Event where
  | tick (safeHead : Except ProposerError Nat)
  | submitResult (outcome : SubmitOutcome)
  | proofReset

/-- Whether an event recovers the state, and the cache that it uses or leaves. -/
def Event.recovers (cfg : DriverConfig) (cache : Option CachedRecovery) :
    Event → Bool × Option CachedRecovery
  | .tick safeHead =>
    match cache, safeHead with
    | none, _ => (true, none)
    | some _, .error _ => (false, cache)
    | some cached, .ok safeHead =>
      let next := cached.state.l2BlockNumber + cfg.blockInterval
      (next < 2 ^ 64 ∧ next ≤ safeHead, cache)
  | .submitResult .success => (true, cache)
  | .submitResult .gameAlreadyExists =>
    (true, cache.map fun cached => { cached with gameCount := cached.gameCount - 1 })
  | .submitResult (.failed e) => (false, if e = .invalidParentGame then none else cache)
  | .submitResult .discard | .submitResult .cancelled => (false, cache)
  | .submitResult .rootMismatch | .submitResult .panicked | .proofReset => (false, none)

structure Round where
  event : Event
  chain : Chain
  failure : Option ProposerError

/-- The states that a run recovers, each with the chain that it is recovered from. -/
def recoveries (cfg : DriverConfig) (cache : Option CachedRecovery) :
    List Round → List (Chain × RecoveredState)
  | [] => []
  | r :: rest =>
    match r.event.recovers cfg cache with
    | (false, cache) => recoveries cfg cache rest
    | (true, cache) =>
      match r.chain.recoverLatestState cfg r.failure cache with
      | (.ok state, cache) => (r.chain, state) :: recoveries cfg cache rest
      | (.error _, cache) => recoveries cfg cache rest

end SciChain.Proposer
