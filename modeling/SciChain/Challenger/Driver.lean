import SciChain.Challenger.Validator
import SciChain.Library.Assoc

namespace SciChain.Challenger
open Library

abbrev SessionId := String

structure ProveBlockRequest where
  startBlockNumber : Nat
  numberOfBlocksToProve : Nat
  sessionId : SessionId
  proverAddress : Address
  l1Head : B256
  intermediateRootInterval : Nat
  deriving DecidableEq, Repr

structure TeeProofRequest where
  l1Head : B256
  agreedL2HeadHash : B256
  agreedL2OutputRoot : B256
  claimedL2OutputRoot : B256
  claimedL2BlockNumber : Nat
  proposer : Address
  intermediateBlockInterval : Nat
  l1HeadNumber : Nat
  deriving DecidableEq, Repr

inductive ProofResult where
  | tee (outputRoot : B256) (signature : Bytes)
  | zk
  deriving DecidableEq, Repr

inductive ProofJobStatus where
  | unspecified
  | created
  | pending
  | running
  | succeeded
  | failed
  deriving DecidableEq, Repr

inductive DisputeIntent where
  | challenge
  | nullify
  deriving DecidableEq, Repr

inductive ProofKind where
  | tee (zkFallbackRequest : Option ProveBlockRequest) (zkFallbackIntent : Option DisputeIntent)
  | zk (proveRequest : ProveBlockRequest)
  deriving DecidableEq, Repr

def ProofKind.isTee : ProofKind → Bool
  | .tee _ _ => true
  | .zk _ => false

inductive ProofPhase where
  | awaitingProof (sessionId : SessionId) (startedAt : Nat)
  | readyToSubmit (proofBytes : Bytes)
  | needsRetry
  deriving DecidableEq, Repr

structure PendingProof where
  phase : ProofPhase
  kind : ProofKind
  invalidIndex : Nat
  expectedRoot : B256
  retryCount : Nat
  intent : DisputeIntent
  deriving DecidableEq, Repr

def PendingProof.awaiting (sessionId : SessionId) (now invalidIndex : Nat) (expectedRoot : B256)
    (proveRequest : ProveBlockRequest) (intent : DisputeIntent) : PendingProof :=
  ⟨.awaitingProof sessionId now, .zk proveRequest, invalidIndex, expectedRoot, 0, intent⟩

def PendingProof.readyTee (proofBytes : Bytes) (invalidIndex : Nat) (expectedRoot : B256)
    (zkFallbackRequest : Option ProveBlockRequest) (zkFallbackIntent : Option DisputeIntent) :
    PendingProof :=
  ⟨.readyToSubmit proofBytes, .tee zkFallbackRequest zkFallbackIntent, invalidIndex, expectedRoot,
    0, .nullify⟩

def maxProofRetries : Nat := 3

def proofTypeZk : UInt8 := 1

structure DriverConfig where
  maxProofDuration : Nat
  senderAddress : Address
  /-- Whether a TEE prover is configured. -/
  tee : Bool
  deriveSessionId : Address → Nat → SessionId
  encodeDisputeProofBytes : Bytes → Option Bytes

/-- What the other services answer during one call of the driver about a game.
`none` is a call that fails. The countered index of the game is there for the
statements: no call that submits a dispute reads it. -/
structure Env where
  l2 : L2Provider
  now : Nat
  intermediateOutputRoots : Option (List B256)
  intermediateOutputRoot : Nat → Option B256
  l1HeadNumber : Option Nat
  teeTimedOut : Bool
  teeProve : TeeProofRequest → Option ProofResult
  proveBlock : ProveBlockRequest → Option SessionId
  getProof : SessionId → Option (ProofJobStatus × Bytes)
  status : Option GameStatus
  teeProver : Option Address
  zkProver : Option Address
  counteredIndex : Nat
  submitted : Bool

/-- A call to a prover or to the chain, with its answer. -/
inductive Action where
  | teeProof (game : Address) (request : TeeProofRequest) (proof : Option Bytes)
  | zkRequest (game : Address) (request : ProveBlockRequest) (session : Option SessionId)
  | zkReceipt (game : Address) (session : SessionId) (receipt : Bytes)
  | submit (game : Address) (proof : Bytes) (index : Nat) (root : B256) (intent : DisputeIntent)
      (counteredIndex : Nat)
  /-- The chain shows that the pending dispute is not needed any more. -/
  | settled (game : Address)
  /-- The challenge of the game is legitimate. -/
  | legitimate (game : Address)
  deriving DecidableEq

/-- Pending proofs by game, and the calls made so far, latest first. -/
structure DriverState where
  proofs : List (Address × PendingProof)
  log : List Action
  nodup : (keys proofs).Nodup

namespace DriverState

def empty : DriverState := ⟨[], [], List.nodup_nil⟩

def pending (s : DriverState) (game : Address) : Option PendingProof := s.proofs.lookup game

/-- `PendingProofs::addresses`. -/
def addresses (s : DriverState) : List Address := keys s.proofs

def set (s : DriverState) (game : Address) (p : Option PendingProof) : DriverState where
  proofs := (p.map fun p => (game, p)).toList ++ s.proofs.filter fun e => e.1 ≠ game
  log := s.log
  nodup := by
    have hrest : (keys (s.proofs.filter fun e => e.1 ≠ game)).Nodup :=
      s.nodup.sublist (List.filter_sublist.map Prod.fst)
    cases p with
    | none => exact hrest
    | some p => exact List.nodup_cons.mpr ⟨by simp, hrest⟩

def record (s : DriverState) (action : Action) : DriverState :=
  { s with log := action :: s.log }

end DriverState

inductive ProofUpdate where
  | ready (proofBytes : Bytes)
  | needsRetry
  deriving DecidableEq, Repr

/-- `PendingProofs::poll`. No update is a proof that is not ready or a call that
fails. -/
def poll (cfg : DriverConfig) (env : Env) (game : Address) (p : PendingProof) (s : DriverState) :
    Option ProofUpdate × DriverState :=
  let retry : Option ProofUpdate × DriverState :=
    (some .needsRetry,
      s.set game (some { p with retryCount := p.retryCount + 1, phase := .needsRetry }))
  match p.phase with
  | .readyToSubmit proofBytes => (some (.ready proofBytes), s)
  | .needsRetry => (some .needsRetry, s)
  | .awaitingProof sessionId startedAt =>
    if cfg.maxProofDuration < env.now - startedAt then retry else
    match env.getProof sessionId with
    | none => (none, s)
    | some (.succeeded, receipt) =>
      let proofBytes := proofTypeZk :: receipt
      (some (.ready proofBytes), (s.record (.zkReceipt game sessionId receipt)).set game
        (some { p with phase := .readyToSubmit proofBytes }))
    | some (.failed, _) => retry
    | some (.unspecified, _) => retry
    | some (.created, _) => (none, s)
    | some (.pending, _) => (none, s)
    | some (.running, _) => (none, s)

/-- Asks for the proof of an entry again, from the ZK service in any case. -/
def reprove (env : Env) (game : Address) (p : PendingProof) (request : ProveBlockRequest)
    (s : DriverState) : DriverState :=
  let s := s.record (.zkRequest game request (env.proveBlock request))
  match env.proveBlock request with
  | some sessionId => s.set game (some { p with phase := .awaitingProof sessionId env.now })
  | none => s.set game (some { p with retryCount := p.retryCount + 1 })

def handleProofRetry (env : Env) (game : Address) (p : PendingProof) (s : DriverState) :
    DriverState :=
  if maxProofRetries < p.retryCount then s.set game none else
  match p.kind with
  | .tee (some request) (some intent) =>
    reprove env game { p with kind := .zk request, intent, retryCount := 0 } request s
  | .tee _ _ => s.set game none
  | .zk request => reprove env game p request s

/-- The proof slot that a dispute is about is empty already. -/
def alreadyResolved (p : PendingProof) (teeProver zkProver : Address) : Bool :=
  match p.intent with
  | .challenge => zkProver ≠ 0 ∨ teeProver = 0
  | .nullify => if p.kind.isTee then teeProver = 0 else zkProver = 0

def submitDispute (env : Env) (game : Address) (p : PendingProof) (proofBytes : Bytes)
    (s : DriverState) : DriverState :=
  let s := s.record (.submit game proofBytes p.invalidIndex p.expectedRoot p.intent
    env.counteredIndex)
  if env.submitted then s.set game none
  else if p.kind.isTee then
    let p := { p with phase := .needsRetry }
    handleProofRetry env game p (s.set game (some p))
  else s

def pollOrSubmit (cfg : DriverConfig) (env : Env) (game : Address) (s : DriverState) :
    DriverState :=
  match s.pending game with
  | none => s
  | some p =>
    match poll cfg env game p s with
    | (none, s) => s
    | (some update, s) =>
      match env.status, env.teeProver, env.zkProver with
      | some status, some teeProver, some zkProver =>
        if status ≠ .inProgress ∨ alreadyResolved p teeProver zkProver = true then
          (s.record (.settled game)).set game none
        else
          match update, s.pending game with
          | .ready proofBytes, some p => submitDispute env game p proofBytes s
          | .needsRetry, some p => handleProofRetry env game p s
          | _, none => s
      | _, _, _ => s

def CandidateGame.checkpointStartBlock (c : CandidateGame) (index : Nat) : Option Nat :=
  checkpointBlock c.startingBlockNumber c.intermediateBlockInterval index

/-- `None` is a game that is skipped this time. -/
def validateGame (env : Env) (c : CandidateGame) : Option ValidationResult := do
  let intermediateRoots ← env.intermediateOutputRoots
  match env.l2.validateIntermediateRoots c.startingBlockNumber c.info.l2BlockNumber
      c.intermediateBlockInterval c.info.rootClaim intermediateRoots with
  | .ok result => some result
  | .error _ => none

def teeRequest (cfg : DriverConfig) (env : Env) (c : CandidateGame) (invalidIndex : Nat)
    (expectedRoot : B256) : Option TeeProofRequest := do
  let startBlockNumber ← c.checkpointStartBlock invalidIndex
  if 2 ^ 64 ≤ startBlockNumber + c.intermediateBlockInterval then none else
    let l1HeadNumber ← env.l1HeadNumber
    let (agreedL2HeadHash, agreedL2OutputRoot) ←
      (env.l2.computeOutputRootWithHash startBlockNumber).toOption
    some { l1Head := c.l1Head, agreedL2HeadHash, agreedL2OutputRoot,
           claimedL2OutputRoot := expectedRoot,
           claimedL2BlockNumber := startBlockNumber + c.intermediateBlockInterval,
           proposer := cfg.senderAddress,
           intermediateBlockInterval := c.intermediateBlockInterval, l1HeadNumber }

/-- The proof bytes of a TEE result that is for the expected root. -/
def teeProofBytes (cfg : DriverConfig) (expectedRoot : B256) : Option ProofResult → Option Bytes
  | some (.tee outputRoot signature) =>
    if outputRoot ≠ expectedRoot then none else cfg.encodeDisputeProofBytes signature
  | some .zk => none
  | none => none

/-- The request to the TEE prover, if one is made in time, and its proof. -/
def attemptTeeProof (cfg : DriverConfig) (env : Env) (c : CandidateGame) (invalidIndex : Nat)
    (expectedRoot : B256) : Option (TeeProofRequest × Option Bytes) :=
  (teeRequest cfg env c invalidIndex expectedRoot).map fun request =>
    (request,
      if env.teeTimedOut then none else teeProofBytes cfg expectedRoot (env.teeProve request))

def buildZkRequest (cfg : DriverConfig) (c : CandidateGame) (invalidIndex : Nat) :
    Option ProveBlockRequest :=
  (c.checkpointStartBlock invalidIndex).map fun startBlockNumber =>
    { startBlockNumber, numberOfBlocksToProve := c.intermediateBlockInterval,
      sessionId := cfg.deriveSessionId c.factory.proxy invalidIndex,
      proverAddress := cfg.senderAddress, l1Head := c.l1Head,
      intermediateRootInterval := c.intermediateBlockInterval }

def initiateZkProof (cfg : DriverConfig) (env : Env) (c : CandidateGame) (invalidIndex : Nat)
    (expectedRoot : B256) (intent : DisputeIntent) (s : DriverState) : DriverState :=
  match buildZkRequest cfg c invalidIndex with
  | none => s
  | some request =>
    let s := s.record (.zkRequest c.factory.proxy request (env.proveBlock request))
    match env.proveBlock request with
    | none => s
    | some sessionId => s.set c.factory.proxy
        (some (.awaiting sessionId env.now invalidIndex expectedRoot request intent))

/-- TEE first where the game has a TEE proof and the caller asks for it, then ZK. -/
def initiateProof (cfg : DriverConfig) (env : Env) (c : CandidateGame) (invalidIndex : Nat)
    (expectedRoot : B256) (intent : DisputeIntent) (tryTeeFirst : Bool) (s : DriverState) :
    DriverState :=
  if c.teeProver ≠ 0 ∧ tryTeeFirst = true ∧ cfg.tee = true then
    match attemptTeeProof cfg env c invalidIndex expectedRoot with
    | none => initiateZkProof cfg env c invalidIndex expectedRoot intent s
    | some (request, none) =>
      initiateZkProof cfg env c invalidIndex expectedRoot intent
        (s.record (.teeProof c.factory.proxy request none))
    | some (request, some proofBytes) =>
      let zkFallback := buildZkRequest cfg c invalidIndex
      pollOrSubmit cfg env c.factory.proxy
        ((s.record (.teeProof c.factory.proxy request (some proofBytes))).set c.factory.proxy
          (some (.readyTee proofBytes invalidIndex expectedRoot zkFallback
            (zkFallback.map fun _ => intent))))
  else initiateZkProof cfg env c invalidIndex expectedRoot intent s

def processInvalidProposal (cfg : DriverConfig) (env : Env) (c : CandidateGame)
    (intent : DisputeIntent) (tryTeeFirst : Bool) (s : DriverState) : DriverState :=
  match validateGame env c with
  | none => s
  | some result =>
    if result.isValid then s else
    match result.invalidIntermediateIndex with
    | none => s
    | some invalidIndex =>
      initiateProof cfg env c invalidIndex result.expectedRoot intent tryTeeFirst s

def processFraudulentZkChallenge (cfg : DriverConfig) (env : Env) (c : CandidateGame)
    (challengedIndex : Nat) (s : DriverState) : DriverState :=
  match env.intermediateOutputRoot challengedIndex,
      c.checkpointStartBlock (challengedIndex + 1) with
  | some onChainRoot, some block =>
    match env.l2.computeOutputRoot block with
    | .error _ => s
    | .ok expectedRoot =>
      if onChainRoot ≠ expectedRoot then s.record (.legitimate c.factory.proxy)
      else initiateZkProof cfg env c challengedIndex onChainRoot .nullify s
  | _, _ => s

def processCandidate (cfg : DriverConfig) (env : Env) (c : CandidateGame) (s : DriverState) :
    DriverState :=
  if (s.pending c.factory.proxy).isSome then s else
  match c.category with
  | .invalidTeeProposal => processInvalidProposal cfg env c .challenge true s
  | .fraudulentZkChallenge challengedIndex =>
    processFraudulentZkChallenge cfg env c challengedIndex s
  | .invalidZkProposal => processInvalidProposal cfg env c .nullify false s
  | .invalidDualProposal => processInvalidProposal cfg env c .nullify true s

/-- What a cycle meets: the order in which the map lists its keys, what is answered
about each pending game, and the candidates of the scan with what is answered
about them. Without a scan there are none. -/
structure Cycle where
  order : List Address → List Address
  perm : ∀ addresses, (order addresses).Perm addresses
  polls : Address → Env
  candidates : List (CandidateGame × Env)

def pollPendingProofs (cfg : DriverConfig) (cycle : Cycle) (s : DriverState) : DriverState :=
  (cycle.order s.addresses).foldl (fun s game => pollOrSubmit cfg (cycle.polls game) game s) s

/-- One cycle of the driver. -/
def step (cfg : DriverConfig) (cycle : Cycle) (s : DriverState) : DriverState :=
  cycle.candidates.foldl (fun s entry => processCandidate cfg entry.2 entry.1 s)
    (pollPendingProofs cfg cycle s)

end SciChain.Challenger
