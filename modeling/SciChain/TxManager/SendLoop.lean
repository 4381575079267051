import SciChain.Library.Run
import SciChain.TxManager.SendState

namespace SciChain.TxManager
open Library

/-- The part of the configuration that a send reads. Durations are numbers. -/
structure TxManagerConfig where
  numConfirmations : ℕ
  safeAbortNonceTooLowCount : ℕ
  txSendTimeout : ℕ
  txNotInMempoolTimeout : ℕ
  confirmationTimeout : ℕ
  deriving DecidableEq, Repr

/-- What fee estimation and signing give for a transaction. -/
structure Crafted where
  rawTx : Bytes
  gasTipCap : U128
  gasFeeCap : U128
  blobFeeCap : Option U128
  gasLimit : U64
  deriving DecidableEq, Repr

structure PreparedTx extends Crafted where
  nonce : ℕ
  deriving DecidableEq, Repr

structure BumpState where
  tip : U128
  feeCap : U128
  blobFeeCap : Option U128
  gasLimit : U64
  txHash : B256
  nonce : ℕ
  deriving DecidableEq, Repr

def BumpState.fromPrepared (prepared : PreparedTx) (txHash : B256) : BumpState :=
  ⟨prepared.gasTipCap, prepared.gasFeeCap, prepared.blobFeeCap, prepared.gasLimit, txHash,
    prepared.nonce⟩

structure TransactionReceipt where
  transactionHash : B256
  blockNumber : Option ℕ
  blockHash : Option B256
  deriving DecidableEq, Repr

/-- What the node answers to one receipt query: its head, the receipt, and the hash of the
block at the number that the receipt names. -/
structure NodeView where
  tip : Except TxManagerError ℕ
  receipt : Except TxManagerError (Option TransactionReceipt)
  canonical : Except TxManagerError (Option B256)

def saturatingAdd (a b : ℕ) : ℕ := min (a + b) (2 ^ 64 - 1)

def queryReceipt (s : SendState) (txHash : B256) (numConfirmations : ℕ) (view : NodeView) :
    Except TxManagerError (Option TransactionReceipt) × SendState :=
  match view.tip with
  | .error e => (.error e, s)
  | .ok tipHeight =>
    match view.receipt with
    | .error e => (.error e, s)
    | .ok none => (.ok none, s.txNotMined txHash)
    | .ok (some receipt) =>
      match receipt.blockNumber, receipt.blockHash with
      | none, _ => (.ok none, s.txNotMined txHash)
      | some _, none => (.ok none, s.txNotMined txHash)
      | some txBlock, some blockHash =>
        match view.canonical with
        | .error e => (.error e, s)
        | .ok canonical =>
          if canonical ≠ some blockHash then (.ok none, s.txNotMined txHash)
          else if saturatingAdd txBlock numConfirmations ≤ saturatingAdd tipHeight 1 then
            (.ok (some receipt), s.txMined txHash)
          else (.ok none, s.txMined txHash)

/-- `publish_tx`, with the answer of the node. -/
def publishTx (s : SendState) (answer : Except TxManagerError B256) (lastTxHash : Option B256) :
    Except TxManagerError B256 × SendState :=
  match answer with
  | .ok txHash => (.ok txHash, s.recordSuccessfulPublish)
  | .error e =>
    if e.isAlreadyKnown && s.hasPublished then
      match lastTxHash with
      | some hash => (.ok hash, s.recordSuccessfulPublish)
      | none =>
        (.error (.invalidConfig ("AlreadyKnown but no prior tx hash available — " ++
          "caller must track the hash from publish_tx")), s)
    else (.error e, s.processSendError e)

/-- A task of `wait_for_tx`: it polls, or it waits to hand over the receipt it has found. -/
structure Poller where
  txHash : B256
  deadline : ℕ
  receipt : Option TransactionReceipt
  deriving DecidableEq, Repr

/-- Where `send_event_loop` stands. -/
inductive LoopPhase where
  | preparing
  | publishing (prepared : PreparedTx)
  | top (bump : BumpState)
  | selecting (bump : BumpState)
  | bumping (bump : BumpState)
  | republishing (bump : BumpState) (prepared : PreparedTx)
  | ended (result : Except TxManagerError TransactionReceipt)

/-- A send with its pollers. The channel for receipts has room for one. -/
structure SendLoop where
  state : SendState
  phase : LoopPhase
  pollers : List Poller
  receipts : List TransactionReceipt
  closed : Bool

/-- What happens next: an answer arrives at the loop, the loop goes round, a timer fires, or a
poller does something. -/
inductive LoopEvent where
  | prepared (result : Except TxManagerError PreparedTx)
  | published (now : ℕ) (answer : Except TxManagerError B256)
  | round (now : ℕ)
  | receive
  | tick
  | bumpPrepared (result : Except TxManagerError Crafted)
  | bumpPublished (now : ℕ) (answer : Except TxManagerError B256)
  | poll (index : ℕ) (now : ℕ) (view : NodeView)
  | deliver (index : ℕ)
  | close
  | timeout

namespace SendLoop

/-- The beginning of `send_tx`. -/
def start (cfg : TxManagerConfig) (closed : Bool) (now : ℕ) : Except TxManagerError SendLoop :=
  if closed then .error .channelClosed
  else
    match SendState.new cfg.safeAbortNonceTooLowCount with
    | .error e => .error e
    | .ok state =>
      .ok
        { state := if cfg.txNotInMempoolTimeout = 0 then state
            else state.setMempoolDeadline (now + cfg.txNotInMempoolTimeout)
          phase := .preparing
          pollers := []
          receipts := []
          closed := false }

theorem start_ok {cfg : TxManagerConfig} {closed : Bool} {now : ℕ} {l : SendLoop}
    (h : start cfg closed now = .ok l) :
    l.phase = .preparing ∧ l.pollers = [] ∧ l.state.minedTxs = [] ∧
      l.state.hasPublished = false := by
  unfold start SendState.new at h
  split at h
  · cases h
  · split at h
    · cases h
    · rename_i state hnew
      split at hnew
      · cases hnew
      · cases hnew
        cases h
        refine ⟨rfl, rfl, ?_, ?_⟩ <;> (dsimp only; split <;> rfl)

/-- `wait_for_tx`: a new poller. -/
def waitForTx (cfg : TxManagerConfig) (l : SendLoop) (now : ℕ) (txHash : B256) : SendLoop :=
  { l with pollers := l.pollers ++ [⟨txHash, now + cfg.confirmationTimeout, none⟩] }

/-- The beginning of `try_fee_bump`: no bump while a transaction waits for confirmation. -/
def tryFeeBump (l : SendLoop) (bump : BumpState) : SendLoop :=
  if l.state.isWaitingForConfirmation then { l with phase := .top bump }
  else { l with phase := .bumping bump }

def applyBumpResult (l : SendLoop) (bump : BumpState) :
    Except TxManagerError BumpState → SendLoop
  | .ok newBump => { l with phase := .top newBump }
  | .error e =>
    if !e.isRetryable then { l with phase := .ended (.error e) } else { l with phase := .top bump }

def applyBumpResultWithSuppression (l : SendLoop) (bump : BumpState)
    (result : Except TxManagerError BumpState) : SendLoop :=
  match result with
  | .error e =>
    if !e.isRetryable && l.state.isWaitingForConfirmation then { l with phase := .top bump }
    else l.applyBumpResult bump result
  | .ok _ => l.applyBumpResult bump result

/-- The checks at the top of the loop. -/
def loopTop (l : SendLoop) (bump : BumpState) (now : ℕ) : SendLoop :=
  if l.closed then { l with phase := .ended (.error .channelClosed) }
  else
    match l.state.criticalError now, l.receipts with
    | some e, _ => { l with phase := .ended (.error e) }
    | none, receipt :: rest => { l with phase := .ended (.ok receipt), receipts := rest }
    | none, [] =>
      let (bumpFees, state) := l.state.takeBumpFees
      if bumpFees then tryFeeBump { l with state } bump
      else { l with state, phase := .selecting bump }

/-- The publication of the first transaction. -/
def publishFirst (cfg : TxManagerConfig) (l : SendLoop) (prepared : PreparedTx) (now : ℕ)
    (answer : Except TxManagerError B256) : SendLoop :=
  match publishTx l.state answer none with
  | (.ok txHash, state) =>
    waitForTx cfg { l with state, phase := .top (.fromPrepared prepared txHash) } now txHash
  | (.error e, state) => { l with state, phase := .ended (.error e) }

/-- The publication of a replacement, at the end of `handle_fee_bump`. -/
def publishBump (cfg : TxManagerConfig) (l : SendLoop) (bump : BumpState) (prepared : PreparedTx)
    (now : ℕ) (answer : Except TxManagerError B256) : SendLoop :=
  match publishTx l.state answer (some bump.txHash) with
  | (.ok txHash, state) =>
    applyBumpResultWithSuppression
      (waitForTx cfg { l with state := state.recordFeeBump } now txHash) bump
      (.ok (.fromPrepared prepared txHash))
  | (.error e, state) => applyBumpResultWithSuppression { l with state } bump (.error e)

/-- One round of `wait_mined`: the query, and the poller that gives up at its deadline or when
the manager is closed. -/
def pollOnce (cfg : TxManagerConfig) (l : SendLoop) (index : ℕ) (poller : Poller) (now : ℕ)
    (view : NodeView) : SendLoop :=
  match queryReceipt l.state poller.txHash cfg.numConfirmations view with
  | (.ok (some receipt), state) =>
    { l with state, pollers := l.pollers.set index { poller with receipt := some receipt } }
  | (_, state) =>
    if poller.deadline ≤ now ∨ l.closed then
      { l with state, pollers := l.pollers.eraseIdx index }
    else { l with state }

def act (cfg : TxManagerConfig) (event : LoopEvent) (l : SendLoop) : Except Unit SendLoop :=
  match event, l.phase with
  | .prepared (.ok prepared), .preparing => .ok { l with phase := .publishing prepared }
  | .prepared (.error e), .preparing => .ok { l with phase := .ended (.error e) }
  | .published now answer, .publishing prepared => .ok (l.publishFirst cfg prepared now answer)
  | .round now, .top bump => .ok (l.loopTop bump now)
  | .receive, .selecting _ =>
    match l.receipts with
    | receipt :: rest => .ok { l with phase := .ended (.ok receipt), receipts := rest }
    | [] => .error ()
  | .tick, .selecting bump =>
    -- The receipt is looked for first.
    if l.receipts = [] then .ok (l.tryFeeBump bump) else .error ()
  | .bumpPrepared (.ok crafted), .bumping bump =>
    .ok { l with phase := .republishing bump { crafted with nonce := bump.nonce } }
  | .bumpPrepared (.error e), .bumping bump =>
    .ok (l.applyBumpResultWithSuppression bump (.error e))
  | .bumpPublished now answer, .republishing bump prepared =>
    .ok (l.publishBump cfg bump prepared now answer)
  | .poll index now view, _ =>
    match l.pollers[index]? with
    | some poller =>
      if poller.receipt = none then .ok (l.pollOnce cfg index poller now view) else .error ()
    | none => .error ()
  | .deliver index, _ =>
    match l.pollers[index]?.bind Poller.receipt with
    | some receipt =>
      if l.receipts = [] then
        .ok { l with receipts := [receipt], pollers := l.pollers.eraseIdx index }
      else .error ()
    | none => .error ()
  | .close, _ => .ok { l with closed := true }
  | .timeout, .ended _ => .error ()
  | .timeout, _ =>
    if cfg.txSendTimeout = 0 then .error ()
    else .ok { l with phase := .ended (.error .sendTimeout) }
  | _, _ => .error ()

end SendLoop
end SciChain.TxManager
