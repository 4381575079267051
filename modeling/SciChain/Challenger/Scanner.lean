import SciChain.Primitives
import SciChain.Library.Result

namespace SciChain.Challenger
open Library

inductive GameStatus where
  | inProgress
  | challengerWins
  | defenderWins
  deriving DecidableEq, Repr

/-- A game as the factory lists it. -/
structure GameAtIndex where
  gameType : U32
  timestamp : U64
  proxy : Address
  deriving DecidableEq, Repr

structure GameInfo where
  rootClaim : B256
  l2BlockNumber : Nat
  parentAddress : Address
  deriving DecidableEq, Repr

inductive GameCategory where
  | invalidTeeProposal
  | fraudulentZkChallenge (challengedIndex : Nat)
  | invalidZkProposal
  | invalidDualProposal
  deriving DecidableEq, Repr

structure CandidateGame where
  index : Nat
  factory : GameAtIndex
  info : GameInfo
  startingBlockNumber : Nat
  intermediateBlockInterval : Nat
  l1Head : B256
  teeProver : Address
  category : GameCategory
  deriving DecidableEq, Repr

inductive GameEvaluation where
  | actionable (candidate : CandidateGame)
  | inProgressNotActionable
  | terminal
  deriving DecidableEq, Repr

inductive ScanError where
  | rpc
  | noGameImplementation (gameType : U32)
  deriving DecidableEq, Repr

/-- What the clients answer during one scan. The anchor search reads the factory
on its own. -/
structure Rpc where
  gameCount : Except ScanError Nat
  anchorGame : Except ScanError Address
  searchedGame : Nat → Except ScanError GameAtIndex
  gameAtIndex : Nat → Except ScanError GameAtIndex
  status : Address → Except ScanError GameStatus
  zkProver : Address → Except ScanError Address
  teeProver : Address → Except ScanError Address
  counteredIndex : Address → Except ScanError Nat
  gameInfo : Address → Except ScanError GameInfo
  startingBlockNumber : Address → Except ScanError Nat
  l1Head : Address → Except ScanError B256
  gameImpls : U32 → Except ScanError Address
  readIntermediateBlockInterval : Address → Except ScanError Nat

abbrev IntervalCache := U32 × Address → Option Nat

/-- What the scanner keeps from one scan to the next: intervals by game type and
implementation, the anchor game with its index, and the failures of each index
that was in progress. -/
structure GameScanner where
  intervalCache : IntervalCache
  anchorIndex : Option (Address × Nat)
  tracking : Nat → Option Nat

def GameScanner.new : GameScanner := ⟨fun _ => none, none, fun _ => none⟩

def classify (teeProver zkProver : Address) (counteredIndex : Nat) : Option GameCategory :=
  match decide (teeProver ≠ 0), decide (zkProver ≠ 0), counteredIndex with
  | true, false, 0 => some .invalidTeeProposal
  | true, false, _ => none
  | true, true, 0 => some .invalidDualProposal
  | true, true, ci + 1 => some (.fraudulentZkChallenge ci)
  | false, true, 0 => some .invalidZkProposal
  | false, true, _ => none
  | false, false, _ => none

def resolveIntermediateBlockInterval (rpc : Rpc) (cache : IntervalCache) (gameType : U32) :
    Except ScanError (Nat × IntervalCache) := do
  let implAddress ← rpc.gameImpls gameType
  reject (implAddress = 0) (.noGameImplementation gameType)
  match cache (gameType, implAddress) with
  | some interval => pure (interval, cache)
  | none =>
    let interval ← rpc.readIntermediateBlockInterval implAddress
    pure (interval, Function.update cache (gameType, implAddress) (some interval))

/-- The part of `evaluate_game` that ends early unless the game is actionable. -/
def inspectGame (rpc : Rpc) (index : Nat) :
    Except ScanError (GameEvaluation ⊕ GameAtIndex × Address × GameCategory) := do
  let factory ← rpc.gameAtIndex index
  let status ← rpc.status factory.proxy
  if status ≠ .inProgress then pure (.inl .terminal) else
    let zkProver ← rpc.zkProver factory.proxy
    let teeProver ← rpc.teeProver factory.proxy
    let counteredIndex ← rpc.counteredIndex factory.proxy
    if teeProver = 0 ∧ zkProver = 0 then pure (.inl .terminal) else
      match classify teeProver zkProver counteredIndex with
      | none => pure (.inl .inProgressNotActionable)
      | some category => pure (.inr (factory, teeProver, category))

/-- The remaining fields of an actionable game. -/
def readCandidate (rpc : Rpc) (index : Nat) (factory : GameAtIndex) (teeProver : Address)
    (category : GameCategory) (intermediateBlockInterval : Nat) :
    Except ScanError GameEvaluation := do
  let info ← rpc.gameInfo factory.proxy
  let startingBlockNumber ← rpc.startingBlockNumber factory.proxy
  let l1Head ← rpc.l1Head factory.proxy
  pure (.actionable { index, factory, info, startingBlockNumber, intermediateBlockInterval,
                      l1Head, teeProver, category })

/-- Evaluates the game at an index. The interval is resolved beside the other
fields and stays cached when one of those fails. -/
def evaluateGame (rpc : Rpc) (cache : IntervalCache) (index : Nat) :
    Except ScanError GameEvaluation × IntervalCache :=
  match inspectGame rpc index with
  | .error e => (.error e, cache)
  | .ok (.inl evaluation) => (.ok evaluation, cache)
  | .ok (.inr (factory, teeProver, category)) =>
    match resolveIntermediateBlockInterval rpc cache factory.gameType with
    | .error e => (.error e, cache)
    | .ok (interval, cache) => (readCandidate rpc index factory teeProver category interval, cache)

def evaluateGames (rpc : Rpc) :
    IntervalCache → List Nat → List (Nat × Except ScanError GameEvaluation) × IntervalCache
  | cache, [] => ([], cache)
  | cache, index :: rest =>
    let (result, cache) := evaluateGame rpc cache index
    let (results, cache) := evaluateGames rpc cache rest
    ((index, result) :: results, cache)

/-- One batch of the anchor search: the last match, and whether a call failed. -/
def searchBatch (rpc : Rpc) (target : Address) : List Nat → Option Nat × Bool
  | [] => (none, false)
  | index :: rest =>
    let (found, hadErrors) := searchBatch rpc target rest
    match rpc.searchedGame index with
    | .error _ => (found, true)
    | .ok game =>
      (if game.proxy = target then some (max index (found.getD index)) else found, hadErrors)

def anchorSearchBatchSize : Nat := 1024

/-- The loop of the search, backward in batches; each takes at least one index,
so as many rounds as there are indices are enough. -/
def searchLoop (rpc : Rpc) (target : Address) (start : Nat) :
    Nat → Nat → Bool → Option Nat × Bool
  | 0, _, hadErrors => (none, hadErrors)
  | rounds + 1, searchEnd, hadErrors =>
    if searchEnd ≤ start then (none, hadErrors) else
      let searchStart := max (searchEnd - anchorSearchBatchSize) start
      let (found, failed) := searchBatch rpc target (List.range' searchStart (searchEnd - searchStart))
      if found.isSome then (found, hadErrors || failed)
      else searchLoop rpc target start rounds searchStart (hadErrors || failed)

def findGameIndex (rpc : Rpc) (target : Address) (start stop : Nat) : Option Nat × Bool :=
  searchLoop rpc target start stop stop false

/-- The index after the cached one if it is there, then from it on to the end,
then the rest. -/
def searchAnchor (rpc : Rpc) (cached : Option (Address × Nat)) (anchorGame : Address)
    (gameCount : Nat) : Option Nat × Bool :=
  let searchStart := min ((cached.map fun entry => entry.2 + 1).getD 0) gameCount
  let (found, hadErrors) := findGameIndex rpc anchorGame searchStart gameCount
  if found.isNone ∧ 0 < searchStart then
    let (wrapped, failed) := findGameIndex rpc anchorGame 0 searchStart
    (wrapped, hadErrors || failed)
  else (found, hadErrors)

/-- The first index to evaluate, and the anchor game to remember. -/
def scanStartIndex (rpc : Rpc) (cached : Option (Address × Nat)) (gameCount : Nat) :
    Nat × Option (Address × Nat) :=
  let cachedScanStart := (cached.filter fun entry => entry.2 < gameCount).map fun entry =>
    min (entry.2 + 1) gameCount
  match rpc.anchorGame with
  | .error _ => (cachedScanStart.getD 0, cached)
  | .ok anchorGame =>
    if anchorGame = 0 then (0, none) else
    match cached.filter fun entry => entry.1 = anchorGame ∧ entry.2 < gameCount with
    | some entry => (min (entry.2 + 1) gameCount, cached)
    | none =>
      match searchAnchor rpc cached anchorGame gameCount, cachedScanStart with
      | (some index, _), _ => (min (index + 1) gameCount, some (anchorGame, index))
      | (none, true), some scanStart => (scanStart, cached)
      | (none, _), _ => (0, none)

def candidateOf : Nat × Except ScanError GameEvaluation → Option CandidateGame
  | (_, .ok (.actionable candidate)) => some candidate
  | _ => none

/-- Games in progress stay tracked, failing ones only if they were. -/
def nextTracking (previous : Nat → Option Nat) :
    List (Nat × Except ScanError GameEvaluation) → Nat → Option Nat
  | [] => fun _ => none
  | (index, result) :: rest =>
    Function.update (nextTracking previous rest) index
      (match result with
      | .ok (.actionable _) => some 0
      | .ok .inProgressNotActionable => some 0
      | .ok .terminal => none
      | .error _ => (previous index).map (· + 1))

/-- One scan: every index after the anchor game is evaluated, in the order in
which the candidates are sorted. -/
def scan (rpc : Rpc) (s : GameScanner) : Except ScanError (List CandidateGame) × GameScanner :=
  match rpc.gameCount with
  | .error e => (.error e, s)
  | .ok gameCount =>
    if gameCount = 0 then (.ok [], { s with tracking := fun _ => none }) else
    let (scanStart, anchorIndex) := scanStartIndex rpc s.anchorIndex gameCount
    let (results, intervalCache) :=
      evaluateGames rpc s.intervalCache (List.range' scanStart (gameCount - scanStart))
    (.ok (results.filterMap candidateOf),
      { intervalCache, anchorIndex, tracking := nextTracking s.tracking results })

end SciChain.Challenger
