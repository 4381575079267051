import SciChain.TxManager.Error

namespace SciChain.TxManager

/-- The publication state of one transaction. Times are numbers. -/
structure SendState where
  minedTxs : List B256
  hasPublished : Bool
  nonceTooLowCount : ℕ
  nonceTooHigh : Bool
  alreadyReserved : Bool
  bumpFees : Bool
  bumpCount : ℕ
  mempoolDeadline : Option ℕ
  safeAbortNonceTooLowCount : ℕ
  deriving DecidableEq, Repr

namespace SendState

def new (safeAbortNonceTooLowCount : ℕ) : Except TxManagerError SendState :=
  if safeAbortNonceTooLowCount = 0 then .error .invalidSafeAbortNonceTooLowCount
  else .ok ⟨[], false, 0, false, false, false, 0, none, safeAbortNonceTooLowCount⟩

def processSendError (s : SendState) (err : TxManagerError) : SendState :=
  match err with
  | .nonceTooLow => { s with nonceTooLowCount := s.nonceTooLowCount + 1 }
  | .nonceTooHigh => { s with nonceTooHigh := true }
  | .alreadyReserved => { s with alreadyReserved := true }
  | e => if e.isRetryable then { s with bumpFees := true } else s

def txMined (s : SendState) (txHash : B256) : SendState :=
  if txHash ∈ s.minedTxs then s else { s with minedTxs := s.minedTxs ++ [txHash] }

/-- `tx_not_mined`. The count of low nonces starts again when the last one is gone. -/
def txNotMined (s : SendState) (txHash : B256) : SendState :=
  if txHash ∈ s.minedTxs then
    let mined := s.minedTxs.erase txHash
    { s with
      minedTxs := mined
      nonceTooLowCount := if mined = [] then 0 else s.nonceTooLowCount }
  else s

/-- `critical_error`: why the send has to be given up at this time. -/
def criticalError (s : SendState) (now : ℕ) : Option TxManagerError :=
  if s.minedTxs ≠ [] then none
  else if s.alreadyReserved then some .alreadyReserved
  else if s.nonceTooHigh then some .nonceTooHigh
  else if s.hasPublished = false ∧ 0 < s.nonceTooLowCount then some .nonceTooLow
  else if s.safeAbortNonceTooLowCount ≤ s.nonceTooLowCount then some .nonceTooLow
  else
    match s.mempoolDeadline with
    | some deadline =>
      if s.hasPublished = false ∧ deadline ≤ now then some .mempoolDeadlineExpired else none
    | none => none

def isWaitingForConfirmation (s : SendState) : Bool := !s.minedTxs.isEmpty

def recordSuccessfulPublish (s : SendState) : SendState := { s with hasPublished := true }

def recordFeeBump (s : SendState) : SendState := { s with bumpCount := s.bumpCount + 1 }

/-- `take_bump_fees`: whether to bump, and the flag is cleared. -/
def takeBumpFees (s : SendState) : Bool × SendState := (s.bumpFees, { s with bumpFees := false })

def setMempoolDeadline (s : SendState) (deadline : ℕ) : SendState :=
  { s with mempoolDeadline := some deadline }

theorem processSendError_mined (s : SendState) (err : TxManagerError) :
    (s.processSendError err).minedTxs = s.minedTxs := by
  unfold processSendError
  split
  · rfl
  · rfl
  · rfl
  · split <;> rfl

theorem mem_txMined {s : SendState} {txHash h : B256} :
    h ∈ (s.txMined txHash).minedTxs ↔ h ∈ s.minedTxs ∨ h = txHash := by
  unfold txMined
  split
  · rename_i hmem
    exact ⟨.inl, fun h => h.elim id (fun heq => heq ▸ hmem)⟩
  · simp

theorem mem_of_txNotMined {s : SendState} {txHash h : B256}
    (hmem : h ∈ (s.txNotMined txHash).minedTxs) : h ∈ s.minedTxs := by
  unfold txNotMined at hmem
  split at hmem
  · exact List.mem_of_mem_erase hmem
  · exact hmem

section

variable {s : SendState} (h : s.minedTxs.Nodup) (txHash : B256)
include h txHash

theorem nodup_txMined : (s.txMined txHash).minedTxs.Nodup := by
  unfold txMined
  split
  · exact h
  · rename_i hout
    exact List.nodup_append.mpr ⟨h, List.nodup_singleton _, by
      rintro a ha b hb rfl
      exact hout (List.mem_singleton.mp hb ▸ ha)⟩

theorem nodup_txNotMined : (s.txNotMined txHash).minedTxs.Nodup := by
  unfold txNotMined
  split
  · exact h.erase txHash
  · exact h

theorem not_mem_txNotMined : txHash ∉ (s.txNotMined txHash).minedTxs := by
  unfold txNotMined
  split
  · exact h.not_mem_erase
  · assumption

end

end SendState
end SciChain.TxManager
