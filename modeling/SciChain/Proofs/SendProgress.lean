import SciChain.TxManager.SendLoop

namespace SciChain.TxManager
open Library SendState

/-! A send goes on: it returns, or a poller runs, or another fee bump is ahead. -/

/-- What a receipt query finds out about its transaction. -/
inductive Finding where
  | failed
  | absent
  | shallow
  | confirmed
  deriving DecidableEq, Repr

def NodeView.finding (view : NodeView) (numConfirmations : ℕ) : Finding :=
  match view.tip, view.receipt with
  | .error _, _ => .failed
  | .ok _, .error _ => .failed
  | .ok _, .ok none => .absent
  | .ok tipHeight, .ok (some receipt) =>
    match receipt.blockNumber, receipt.blockHash, view.canonical with
    | none, _, _ => .absent
    | some _, none, _ => .absent
    | some _, some _, .error _ => .failed
    | some txBlock, some blockHash, .ok canonical =>
      if canonical ≠ some blockHash then .absent
      else if saturatingAdd txBlock numConfirmations ≤ saturatingAdd tipHeight 1 then .confirmed
      else .shallow

/-- What the send state learns from a query. -/
def SendState.learn (s : SendState) (txHash : B256) : Finding → SendState
  | .failed => s
  | .absent => s.txNotMined txHash
  | .shallow => s.txMined txHash
  | .confirmed => s.txMined txHash

theorem queryReceipt_spec (s : SendState) (txHash : B256) (n : ℕ) (view : NodeView) :
    (queryReceipt s txHash n view).2 = s.learn txHash (view.finding n) ∧
      ((∃ receipt, (queryReceipt s txHash n view).1 = .ok (some receipt)) ↔
        view.finding n = .confirmed) := by
  fun_cases queryReceipt s txHash n view <;>
    simp_all [NodeView.finding, learn, -Nat.not_le, -not_le]

/-- What the loop does on its own, without an answer of the node. -/
def LoopEvent.isOwn : LoopEvent → Bool
  | .round _ | .receive | .tick => true
  | _ => false

namespace SendLoop

variable {cfg : TxManagerConfig} {l l' : SendLoop}

variable {s : SendState} {pollers : List Poller} {index now : ℕ} {poller : Poller}

def Returned (l : SendLoop) : Prop := ∃ result, l.phase = .ended result

/-- A transaction is being prepared or published. -/
def Busy (l : SendLoop) : Prop :=
  match l.phase with
  | .preparing | .publishing _ | .bumping _ | .republishing _ _ => True
  | .top _ | .selecting _ | .ended _ => False

/-- The loop comes to such a state on its own. -/
def Reaches (cfg : TxManagerConfig) (l : SendLoop) (P : SendLoop → Prop) : Prop :=
  ∃ events : List LoopEvent, (∀ e ∈ events, e.isOwn = true) ∧ P (Library.run (act cfg) l events)

/-- Every transaction that counts as mined has a poller. -/
def Watched (l : SendLoop) : Prop := ∀ h ∈ l.state.minedTxs, ∃ p ∈ l.pollers, p.txHash = h

/-- When a poller comes to its deadline, its transaction does not count as mined, or it is
confirmed, or another poller has it too. -/
def Careful (cfg : TxManagerConfig) (event : LoopEvent) (l : SendLoop) : Prop :=
  match event with
  | .poll index now view => ∀ poller, l.pollers[index]? = some poller →
      now < poller.deadline ∨ view.finding cfg.numConfirmations = .absent ∨
        view.finding cfg.numConfirmations = .confirmed ∨
        (view.finding cfg.numConfirmations = .failed ∧ poller.txHash ∉ l.state.minedTxs) ∨
        ∃ (j : ℕ) (other : Poller), j ≠ index ∧ l.pollers[j]? = some other ∧
          other.txHash = poller.txHash
  | _ => True

structure Attended (l : SendLoop) : Prop where
  nodup : l.state.minedTxs.Nodup
  watched : l.Returned ∨ l.receipts ≠ [] ∨ l.closed = true ∨ l.Watched

/-- A step of the loop itself: the mined transactions are the same and the pollers go on. -/
structure Steady (l l' : SendLoop) : Prop where
  mined : l'.state.minedTxs = l.state.minedTxs
  pollers : ∀ p ∈ l.pollers, p ∈ l'.pollers
  receipts : l'.Returned ∨ l'.receipts = l.receipts
  closed : l'.closed = l.closed

theorem Attended.steady (h : l.Attended) (hphase : ¬l.Returned) (hs : Steady l l') :
    l'.Attended := by
  refine ⟨hs.mined ▸ h.nodup, ?_⟩
  rcases hs.receipts with hret | hrec
  · exact .inl hret
  · rcases h.watched with hret | hwait | hclosed | hwatched
    · exact absurd hret hphase
    · exact .inr (.inl (hrec ▸ hwait))
    · exact .inr (.inr (.inl (hs.closed.trans hclosed)))
    · refine .inr (.inr (.inr ?_))
      intro h hmem
      obtain ⟨p, hp, heq⟩ := hwatched h (hs.mined ▸ hmem)
      exact ⟨p, hs.pollers p hp, heq⟩

theorem steady_phase (l : SendLoop) (phase : LoopPhase) : Steady l { l with phase } :=
  ⟨rfl, fun _ hp => hp, .inr rfl, rfl⟩

theorem tryFeeBump_steady (l : SendLoop) (bump : BumpState) : Steady l (l.tryFeeBump bump) := by
  unfold tryFeeBump
  split <;> exact steady_phase l _

theorem applyBumpResult_steady (l : SendLoop) (bump : BumpState)
    (result : Except TxManagerError BumpState) :
    Steady l (l.applyBumpResultWithSuppression bump result) := by
  unfold applyBumpResultWithSuppression
  split
  · split
    · exact steady_phase l _
    · unfold applyBumpResult
      dsimp only
      split <;> exact steady_phase l _
  · exact steady_phase l _

theorem publishTx_mined (s : SendState) (answer : Except TxManagerError B256)
    (last : Option B256) : (publishTx s answer last).2.minedTxs = s.minedTxs := by
  fun_cases publishTx s answer last <;> simp [recordSuccessfulPublish, processSendError_mined]

theorem loopTop_steady (l : SendLoop) (bump : BumpState) (now : ℕ) :
    Steady l (l.loopTop bump now) := by
  unfold loopTop
  split
  · exact steady_phase l _
  · split
    · exact steady_phase l _
    · exact ⟨rfl, fun _ hp => hp, .inl ⟨_, rfl⟩, rfl⟩
    · dsimp only [takeBumpFees]
      split
      · have hs := tryFeeBump_steady { l with state := { l.state with bumpFees := false } } bump
        exact ⟨hs.mined, hs.pollers, hs.receipts, hs.closed⟩
      · exact ⟨rfl, fun _ hp => hp, .inr rfl, rfl⟩

theorem publishFirst_steady (l : SendLoop) (prepared : PreparedTx) (now : ℕ)
    (answer : Except TxManagerError B256) : Steady l (l.publishFirst cfg prepared now answer) := by
  have hmined := publishTx_mined l.state answer none
  unfold publishFirst
  split
  · rename_i txHash state heq
    rw [heq] at hmined
    exact ⟨hmined, fun p hp => List.mem_append_left _ hp, .inr rfl, rfl⟩
  · rename_i e state heq
    rw [heq] at hmined
    exact ⟨hmined, fun p hp => hp, .inr rfl, rfl⟩

theorem publishBump_steady (l : SendLoop) (bump : BumpState) (prepared : PreparedTx) (now : ℕ)
    (answer : Except TxManagerError B256) :
    Steady l (l.publishBump cfg bump prepared now answer) := by
  have hmined := publishTx_mined l.state answer (some bump.txHash)
  unfold publishBump
  split
  · rename_i txHash state heq
    rw [heq] at hmined
    have hs := applyBumpResult_steady
      (waitForTx cfg { l with state := state.recordFeeBump } now txHash) bump
      (.ok (.fromPrepared prepared txHash))
    exact ⟨hs.mined.trans hmined, fun p hp => hs.pollers p (List.mem_append_left _ hp),
      hs.receipts, hs.closed⟩
  · rename_i e state heq
    rw [heq] at hmined
    have hs := applyBumpResult_steady { l with state } bump (.error e)
    exact ⟨hs.mined.trans hmined, hs.pollers, hs.receipts, hs.closed⟩

/-- Everything that the loop can do, apart from its pollers, is steady. -/
theorem act_cases (h : act cfg event l = .ok l') :
    (¬l.Returned ∧ Steady l l') ∨
    (∃ index now view poller, event = .poll index now view ∧ l.pollers[index]? = some poller ∧
      poller.receipt = none ∧ l' = l.pollOnce cfg index poller now view) ∨
    (∃ receipt pollers, l' = { l with receipts := [receipt], pollers }) ∨
    (event = .close ∧ l' = { l with closed := true }) := by
  have hopen {phase : LoopPhase} (hp : l.phase = phase) (hne : ∀ r, phase ≠ .ended r) :
      ¬l.Returned := by
    rintro ⟨r, hr⟩
    exact hne r (hp.symm.trans hr)
  unfold act at h
  split at h
  · rename_i hp
    cases h
    exact .inl ⟨hopen hp nofun, steady_phase l _⟩
  · rename_i hp
    cases h
    exact .inl ⟨hopen hp nofun, steady_phase l _⟩
  · rename_i hp
    cases h
    exact .inl ⟨hopen hp nofun, publishFirst_steady l _ _ _⟩
  · rename_i hp
    cases h
    exact .inl ⟨hopen hp nofun, loopTop_steady l _ _⟩
  · rename_i hp
    split at h
    · cases h
      exact .inl ⟨hopen hp nofun, rfl, fun _ hq => hq, .inl ⟨_, rfl⟩, rfl⟩
    · cases h
  · rename_i hp
    split at h
    · cases h
      exact .inl ⟨hopen hp nofun, tryFeeBump_steady l _⟩
    · cases h
  · rename_i hp
    cases h
    exact .inl ⟨hopen hp nofun, steady_phase l _⟩
  · rename_i hp
    cases h
    exact .inl ⟨hopen hp nofun, applyBumpResult_steady l _ _⟩
  · rename_i hp
    cases h
    exact .inl ⟨hopen hp nofun, publishBump_steady l _ _ _ _⟩
  · split at h
    · rename_i poller hpoller
      split at h
      · rename_i hnone
        cases h
        exact .inr (.inl ⟨_, _, _, poller, rfl, hpoller, hnone, rfl⟩)
      · cases h
    · cases h
  · split at h
    · split at h
      · cases h
        exact .inr (.inr (.inl ⟨_, _, rfl⟩))
      · cases h
    · cases h
  · cases h
    exact .inr (.inr (.inr ⟨rfl, rfl⟩))
  · cases h
  · rename_i hne
    split at h
    · cases h
    · cases h
      exact .inl ⟨fun ⟨r, hr⟩ => hne r hr, steady_phase l _⟩
  · cases h

/-- The mined transactions after a query are those from before, without or with the one that
was asked for. -/
theorem mem_learn (hmem : h ∈ (s.learn txHash f).minedTxs) :
    h ∈ s.minedTxs ∨ h = txHash := by
  cases f with
  | failed => exact .inl hmem
  | absent => exact .inl (mem_of_txNotMined hmem)
  | shallow => exact mem_txMined.mp hmem
  | confirmed => exact mem_txMined.mp hmem

theorem nodup_learn (h : s.minedTxs.Nodup) (txHash : B256) (f : Finding) :
    (s.learn txHash f).minedTxs.Nodup := by
  cases f with
  | failed => exact h
  | absent => exact nodup_txNotMined h txHash
  | shallow => exact nodup_txMined h txHash
  | confirmed => exact nodup_txMined h txHash

/-- What one round of a poller does: it has found its receipt, it goes on, or it gives up. -/
theorem pollOnce_cases (cfg : TxManagerConfig) (l : SendLoop) (index : ℕ) (poller : Poller)
    (now : ℕ) (view : NodeView) :
    (∃ receipt, l.pollOnce cfg index poller now view =
      { l with
        state := l.state.learn poller.txHash (view.finding cfg.numConfirmations)
        pollers := l.pollers.set index { poller with receipt := some receipt } }) ∨
    (view.finding cfg.numConfirmations ≠ .confirmed ∧
      l.pollOnce cfg index poller now view =
      { l with
        state := l.state.learn poller.txHash (view.finding cfg.numConfirmations)
        pollers := if poller.deadline ≤ now ∨ l.closed then l.pollers.eraseIdx index
          else l.pollers }) := by
  obtain ⟨hstate, hfound⟩ :=
    queryReceipt_spec l.state poller.txHash cfg.numConfirmations view
  rw [← hstate]
  unfold pollOnce
  split
  · rename_i receipt state heq
    rw [heq]
    exact .inl ⟨receipt, rfl⟩
  · rename_i result state hnot heq
    rw [heq] at hfound ⊢
    refine .inr ⟨fun hc => ?_, ?_⟩
    · obtain ⟨receipt, hreceipt⟩ := hfound.mpr hc
      exact hnot receipt hreceipt
    · split <;> rfl

/-- A poller of another transaction stays when one is removed or changed. -/
theorem other_poller (hpoller : pollers[index]? = some poller)
    (hne : h ≠ poller.txHash) (hwatched : ∃ p ∈ pollers, p.txHash = h) :
    ∃ (j : ℕ) (p : Poller), j ≠ index ∧ pollers[j]? = some p ∧ p.txHash = h := by
  obtain ⟨p, hp, heq⟩ := hwatched
  obtain ⟨j, hj⟩ := List.mem_iff_getElem?.mp hp
  refine ⟨j, p, ?_, hj, heq⟩
  rintro rfl
  rw [hpoller] at hj
  cases hj
  exact hne heq.symm

theorem watched_set (hpoller : pollers[index]? = some poller) (receipt : TransactionReceipt)
    (hwatched : h = poller.txHash ∨ ∃ p ∈ pollers, p.txHash = h) :
    ∃ p ∈ pollers.set index { poller with receipt := some receipt }, p.txHash = h := by
  obtain ⟨hlt, _⟩ := List.getElem?_eq_some_iff.mp hpoller
  by_cases hsame : h = poller.txHash
  · exact ⟨_, List.mem_set hlt _, hsame.symm⟩
  · obtain ⟨j, p, hj, hp, heq⟩ :=
      other_poller hpoller hsame (hwatched.resolve_left hsame)
    refine ⟨p, List.mem_iff_getElem?.mpr ⟨j, ?_⟩, heq⟩
    rw [List.getElem?_set_ne (Ne.symm hj)]
    exact hp

theorem watched_eraseIdx
    (hother : ∃ (j : ℕ) (p : Poller), j ≠ index ∧ pollers[j]? = some p ∧ p.txHash = h) :
    ∃ p ∈ pollers.eraseIdx index, p.txHash = h := by
  obtain ⟨j, p, hj, hp, heq⟩ := hother
  exact ⟨p, List.mem_eraseIdx_iff_getElem?.mpr ⟨j, hj, hp⟩, heq⟩

theorem Attended.poll (ha : l.Attended)
    (hpoller : l.pollers[index]? = some poller) (hcareful : Careful cfg (.poll index now view) l) :
    (l.pollOnce cfg index poller now view).Attended := by
  rcases pollOnce_cases cfg l index poller now view with ⟨receipt, heq⟩ | ⟨hnot, heq⟩
  · rw [heq]
    refine ⟨nodup_learn ha.nodup _ _, ?_⟩
    refine ha.watched.imp_right (.imp_right (.imp_right ?_))
    intro hwatched h hmem
    exact watched_set hpoller receipt ((mem_learn hmem).symm.imp_right (hwatched h))
  · rw [heq]
    refine ⟨nodup_learn ha.nodup _ _, ?_⟩
    refine ha.watched.imp_right (.imp_right ?_)
    intro hrest
    rcases hrest with hclosed | hwatched
    · exact .inl hclosed
    · by_cases hgives : poller.deadline ≤ now ∨ l.closed
      · rcases hgives with hdeadline | hclosed
        · refine .inr ?_
          intro h hmem
          simp only [hdeadline, true_or, if_true]
          apply watched_eraseIdx
          have hold := mem_learn hmem
          rcases hcareful poller hpoller with hlt | habsent | hconf | ⟨hfailed, hout⟩ | hother
          · exact absurd hdeadline (Nat.not_le.mpr hlt)
          · rw [habsent] at hmem
            have hne : h ≠ poller.txHash := by
              rintro rfl
              exact not_mem_txNotMined ha.nodup _ hmem
            exact other_poller hpoller hne (hwatched h (hold.resolve_right hne))
          · exact absurd hconf hnot
          · rw [hfailed] at hmem
            have hne : h ≠ poller.txHash := by
              rintro rfl
              exact hout hmem
            exact other_poller hpoller hne (hwatched h hmem)
          · by_cases hne : h = poller.txHash
            · rw [hne]
              exact hother
            · exact other_poller hpoller hne (hwatched h (hold.resolve_right hne))
        · exact .inl hclosed
      · refine .inr ?_
        intro h hmem
        simp only [if_neg hgives]
        rcases mem_learn hmem with hold | hnew
        · exact hwatched h hold
        · exact ⟨poller, List.mem_of_getElem? hpoller, hnew.symm⟩

theorem Attended.act (ha : l.Attended) (hcareful : Careful cfg event l)
    (h : act cfg event l = .ok l') : l'.Attended := by
  rcases act_cases h with ⟨hopen, hs⟩ | ⟨index, now, view, poller, rfl, hpoller, _, rfl⟩ |
    ⟨receipt, pollers, rfl⟩ | ⟨_, rfl⟩
  · exact ha.steady hopen hs
  · exact ha.poll hpoller hcareful
  · exact ⟨ha.nodup, .inr (.inl (List.cons_ne_nil _ _))⟩
  · exact ⟨ha.nodup, .inr (.inr (.inl rfl))⟩

theorem attended_start {closed : Bool} (h : start cfg closed now = .ok l) : l.Attended := by
  obtain ⟨_, _, hmined, _⟩ := start_ok h
  refine ⟨hmined ▸ List.nodup_nil, .inr (.inr (.inr ?_))⟩
  intro x hx
  rw [hmined] at hx
  cases hx

theorem loopTop_returns (hready : l.receipts ≠ [] ∨ l.closed = true) (now : ℕ) :
    (l.loopTop bump now).Returned := by
  unfold loopTop
  split
  · exact ⟨_, rfl⟩
  · rename_i hopen
    split
    · exact ⟨_, rfl⟩
    · exact ⟨_, rfl⟩
    · rename_i hnil
      rcases hready with hready | hready
      · exact absurd hnil hready
      · exact absurd hready hopen

theorem act_round (hphase : l.phase = .top bump) (now : ℕ) :
    act cfg (.round now) l = .ok (l.loopTop bump now) := by
  simp [act, hphase]

theorem act_tick (hphase : l.phase = .selecting bump) (hreceipts : l.receipts = []) :
    act cfg .tick l = .ok (l.tryFeeBump bump) := by
  simp [act, hphase, hreceipts]

theorem reaches_round (hphase : l.phase = .top bump) (now : ℕ) (h : P (l.loopTop bump now)) :
    Reaches cfg l P := by
  refine ⟨[.round now], by simp [LoopEvent.isOwn], ?_⟩
  rw [run_cons, run_nil, attempt_of_ok (act_round hphase now)]
  exact h

theorem reaches_tick (hphase : l.phase = .selecting bump) (hreceipts : l.receipts = [])
    (h : Reaches cfg (l.tryFeeBump bump) P) : Reaches cfg l P := by
  obtain ⟨events, hown, hP⟩ := h
  refine ⟨.tick :: events, ?_, ?_⟩
  · intro e he
    rcases List.mem_cons.mp he with rfl | he
    · rfl
    · exact hown e he
  · rw [run_cons, attempt_of_ok (act_tick hphase hreceipts)]
    exact hP

theorem reaches_self (h : P l) : Reaches cfg l P :=
  ⟨[], fun _ he => (by cases he), h⟩

theorem reaches_receive (hphase : l.phase = .selecting bump) (hreceipts : l.receipts ≠ []) :
    Reaches cfg l Returned := by
  obtain ⟨receipt, rest, heq⟩ := List.exists_cons_of_ne_nil hreceipts
  have hreceive : act cfg .receive l =
      .ok { l with phase := .ended (.ok receipt), receipts := rest } := by
    simp [act, hphase, heq]
  refine ⟨[.receive], by simp [LoopEvent.isOwn], ?_⟩
  rw [run_cons, run_nil, attempt_of_ok hreceive]
  exact ⟨_, rfl⟩

theorem tryFeeBump_mined (bump : BumpState) (h : l.state.minedTxs ≠ []) :
    l.tryFeeBump bump = { l with phase := .top bump } := by
  rw [tryFeeBump, if_pos]
  simpa [isWaitingForConfirmation] using h

theorem tryFeeBump_unmined (bump : BumpState) (h : l.state.minedTxs = []) :
    l.tryFeeBump bump = { l with phase := .bumping bump } := by
  rw [tryFeeBump, if_neg]
  simp [isWaitingForConfirmation, h]

/-- With no transaction that counts as mined the loop comes to another bump, or returns. -/
theorem reaches_bump (hphase : l.phase = .top bump ∨ l.phase = .selecting bump)
    (hmined : l.state.minedTxs = []) : Reaches cfg l Returned ∨ Reaches cfg l Busy := by
  rcases hphase with hphase | hphase
  · by_cases hready : l.receipts ≠ [] ∨ l.closed = true
    · exact .inl (reaches_round hphase 0 (loopTop_returns hready 0))
    · simp only [not_or, not_not, Bool.not_eq_true] at hready
      cases hcritical : l.state.criticalError 0 with
      | some e =>
        refine .inl (reaches_round hphase 0 ?_)
        simp only [loopTop, hready.2, Bool.false_eq_true, if_false, hcritical]
        exact ⟨_, rfl⟩
      | none =>
        have htop : l.loopTop bump 0 =
            if l.state.bumpFees then tryFeeBump { l with state := l.state.takeBumpFees.2 } bump
            else { l with state := l.state.takeBumpFees.2, phase := .selecting bump } := by
          simp only [loopTop, hready.1, hready.2, Bool.false_eq_true, if_false, hcritical]
          rfl
        refine .inr ?_
        cases hflag : l.state.bumpFees with
        | true =>
          refine reaches_round hphase 0 ?_
          rw [htop, hflag, if_pos rfl,
            tryFeeBump_unmined (l := { l with state := l.state.takeBumpFees.2 }) bump hmined]
          exact trivial
        | false =>
          let waiting : SendLoop :=
            { l with state := l.state.takeBumpFees.2, phase := .selecting bump }
          have htick : act cfg .tick waiting = .ok (waiting.tryFeeBump bump) :=
            act_tick rfl hready.1
          refine ⟨[.round 0, .tick], by simp [LoopEvent.isOwn], ?_⟩
          rw [run_cons, attempt_of_ok (act_round hphase 0), htop, hflag,
            if_neg Bool.false_ne_true, run_cons, run_nil, attempt_of_ok htick,
            tryFeeBump_unmined (l := waiting) bump hmined]
          exact trivial
  · by_cases hreceipts : l.receipts = []
    · refine .inr (reaches_tick hphase hreceipts (reaches_self ?_))
      rw [tryFeeBump_unmined bump hmined]
      exact trivial
    · exact .inl (reaches_receive hphase hreceipts)

/-- A mined transaction without a poller: the loop has its receipt, or the manager is closed. -/
theorem Attended.ready (ha : l.Attended) (hopen : ¬l.Returned) (hmined : l.state.minedTxs ≠ [])
    (hpollers : l.pollers = []) : l.receipts ≠ [] ∨ l.closed = true := by
  rcases ha.watched with hret | hready | hready | hwatched
  · exact absurd hret hopen
  · exact .inl hready
  · exact .inr hready
  · obtain ⟨h, hmem⟩ := List.exists_mem_of_ne_nil _ hmined
    obtain ⟨p, hp, _⟩ := hwatched h hmem
    rw [hpollers] at hp
    cases hp

theorem Attended.live (ha : l.Attended) :
    Reaches cfg l Returned ∨ l.pollers ≠ [] ∨ Reaches cfg l Busy := by
  by_cases hpollers : l.pollers = []
  · cases hphase : l.phase with
    | ended result => exact .inl (reaches_self ⟨result, hphase⟩)
    | preparing | publishing | bumping | republishing =>
      exact .inr (.inr (reaches_self (by simp [Busy, hphase])))
    | top bump =>
      by_cases hmined : l.state.minedTxs = []
      · exact (reaches_bump (.inl hphase) hmined).imp_right .inr
      · have hready := ha.ready (fun ⟨r, hr⟩ => by rw [hphase] at hr; cases hr) hmined hpollers
        exact .inl (reaches_round hphase 0 (loopTop_returns hready 0))
    | selecting bump =>
      by_cases hmined : l.state.minedTxs = []
      · exact (reaches_bump (.inr hphase) hmined).imp_right .inr
      · by_cases hreceipts : l.receipts = []
        · have hready := ha.ready (fun ⟨r, hr⟩ => by rw [hphase] at hr; cases hr) hmined hpollers
          refine .inl (reaches_tick hphase hreceipts ?_)
          rw [tryFeeBump_mined bump hmined]
          exact reaches_round rfl 0 (loopTop_returns hready 0)
        · exact .inl (reaches_receive hphase hreceipts)
  · exact .inr (.inl hpollers)

/-- In every run of a send in which no poller gives up a transaction that counts as mined and
that no other poller has, the loop returns on its own, or a poller runs, or the loop comes to
another fee bump on its own. -/
theorem send_never_hangs (cfg : TxManagerConfig) {closed : Bool} {now : ℕ} {first l : SendLoop}
    (hstart : start cfg closed now = .ok first)
    (hrun : Reachable (act cfg) (Careful cfg) first l) :
    Reaches cfg l Returned ∨ l.pollers ≠ [] ∨ Reaches cfg l Busy := by
  have ha : l.Attended :=
    hrun.invariant (attended_start hstart) (fun e s s' hcareful hs hok => hs.act hcareful hok)
  exact ha.live

/-- The loop waits for a receipt that nobody looks for and does not bump. -/
structure Stuck (l : SendLoop) : Prop where
  phase : ∃ bump, l.phase = .top bump ∨ l.phase = .selecting bump
  pollers : l.pollers = []
  receipts : l.receipts = []
  mined : l.state.minedTxs ≠ []
  opened : l.closed = false

theorem tryFeeBump_stuck (bump : BumpState) (hmined : l.state.minedTxs ≠ [])
    (hpollers : l.pollers = []) (hreceipts : l.receipts = []) (hopened : l.closed = false) :
    (l.tryFeeBump bump).Stuck := by
  rw [tryFeeBump_mined bump hmined]
  exact ⟨⟨bump, .inl rfl⟩, hpollers, hreceipts, hmined, hopened⟩

theorem loopTop_stuck (h : l.Stuck) (now : ℕ) : (l.loopTop bump now).Stuck := by
  have hcritical : l.state.criticalError now = none := by
    rw [criticalError, if_pos h.mined]
  simp only [loopTop, h.opened, Bool.false_eq_true, if_false, hcritical, h.receipts]
  split
  · exact tryFeeBump_stuck bump h.mined h.pollers rfl rfl
  · exact ⟨⟨bump, .inr rfl⟩, h.pollers, rfl, h.mined, rfl⟩

/-- Only closing the manager ends the wait. -/
theorem Stuck.act (h : l.Stuck) (hcfg : cfg.txSendTimeout = 0) (hevent : event ≠ .close)
    (hact : act cfg event l = .ok l') : l'.Stuck := by
  obtain ⟨bump, hphase⟩ := h.phase
  cases event with
  | close => exact absurd rfl hevent
  | round now =>
    rcases hphase with hphase | hphase <;> simp only [SendLoop.act, hphase] at hact <;> cases hact
    exact loopTop_stuck h now
  | tick =>
    rcases hphase with hphase | hphase <;>
      simp only [SendLoop.act, hphase, if_pos h.receipts] at hact <;> cases hact
    exact tryFeeBump_stuck bump h.mined h.pollers h.receipts h.opened
  | poll | deliver => simp [SendLoop.act, h.pollers] at hact
  | prepared result | bumpPrepared result =>
    cases result <;> rcases hphase with hphase | hphase <;> simp [SendLoop.act, hphase] at hact
  | published | bumpPublished | receive | timeout =>
    rcases hphase with hphase | hphase <;>
      simp [SendLoop.act, hphase, h.receipts, hcfg] at hact

theorem Stuck.run (h : l.Stuck) (hcfg : cfg.txSendTimeout = 0) (events : List LoopEvent)
    (hevents : ∀ e ∈ events, e ≠ .close) : (Library.run (SendLoop.act cfg) l events).Stuck := by
  induction events generalizing l with
  | nil => exact h
  | cons e events ih =>
    refine ih (attempt_invariant (fun l' hok => ?_) h)
      (fun e' he' => hevents e' (List.mem_cons_of_mem _ he'))
    exact h.act hcfg (hevents e List.mem_cons_self) hok

def plainTxConfig : TxManagerConfig := ⟨10, 3, 0, 0, 300⟩

def plainCrafted : Crafted := ⟨[1], 1, 2, none, 21000⟩

def minedIn (tip : ℕ) : NodeView := ⟨.ok tip, .ok (some ⟨1, some 7, some 70⟩), .ok (some 70)⟩

/-- A transaction is mined in block 7 and the chain does not grow: ten confirmations are not
reached before the poller gives up. -/
def shallowPoll : List LoopEvent :=
  [.prepared (.ok { plainCrafted with nonce := 5 }), .published 0 (.ok 1), .poll 0 12 (minedIn 7),
    .poll 0 300 (minedIn 7)]

def plainSend : SendLoop :=
  ⟨⟨[], false, 0, false, false, false, 0, none, 3⟩, .preparing, [], [], false⟩

/-- The send waits until the manager is closed, whatever the node does. -/
theorem shallow_transaction_hangs :
    start plainTxConfig false 0 = .ok plainSend ∧
    ∀ events : List LoopEvent, (∀ e ∈ events, e ≠ .close) →
      (Library.run (SendLoop.act plainTxConfig)
        (Library.run (SendLoop.act plainTxConfig) plainSend shallowPoll) events).Stuck := by
  refine ⟨rfl, fun events hevents => ?_⟩
  refine Stuck.run ⟨?_, ?_, ?_, ?_, ?_⟩ rfl events hevents
  · exact ⟨_, .inl rfl⟩
  · rfl
  · rfl
  · decide
  · rfl

/-- The same send, with a chain that grows in time. -/
def confirmedPoll : List LoopEvent :=
  [.prepared (.ok { plainCrafted with nonce := 5 }), .published 0 (.ok 1), .poll 0 12 (minedIn 7),
    .poll 0 300 (minedIn 16)]

theorem send_never_hangs_confirmed :
    Reaches plainTxConfig (Library.run (SendLoop.act plainTxConfig) plainSend confirmedPoll)
      Returned ∨
    (Library.run (SendLoop.act plainTxConfig) plainSend confirmedPoll).pollers ≠ [] ∨
    Reaches plainTxConfig (Library.run (SendLoop.act plainTxConfig) plainSend confirmedPoll)
      Busy := by
  have hcareful : Admissible (SendLoop.act plainTxConfig) (Careful plainTxConfig) plainSend
      confirmedPoll := by
    refine ⟨trivial, trivial, ?_, ?_, trivial⟩
    · intro poller hpoller
      cases hpoller
      exact .inl (by decide)
    · intro poller hpoller
      exact .inr (.inr (.inl rfl))
  have hstart : start plainTxConfig false 0 = .ok plainSend := rfl
  exact send_never_hangs plainTxConfig hstart (Reachable.start.admissible hcareful)

end SendLoop
end SciChain.TxManager
