import SciChain.Derive.SpanCheck
import Mathlib.Data.List.Chain

namespace SciChain.Derive
open Library

/-- Consecutive L1 blocks. -/
def Consecutive (window : List BlockInfo) : Prop :=
  window.IsChain fun a b => b.number.toNat = a.number.toNat + 1

theorem Consecutive.lt_of_mem (h : Consecutive (epoch :: rest)) (hb : b ∈ rest) :
    epoch.number.toNat < b.number.toNat := by
  induction rest generalizing epoch with
  | nil => cases hb
  | cons next rest ih =>
    obtain ⟨hn, hr⟩ := List.isChain_cons_cons.mp h
    cases hb with
    | head => omega
    | tail _ hb =>
      have := ih hr hb
      omega

theorem Consecutive.windowFrom (h : Consecutive window) (number : U64) :
    Consecutive (SpanBatch.windowFrom window number) :=
  h.suffix (List.dropWhile_suffix _)

namespace SingleBatch

theorem checkBatchTimestamp_ok (b : SingleBatch) (cfg : RollupConfig) (head : L2BlockInfo)
    (inclusion : BlockInfo) :
    b.checkBatchTimestamp cfg head inclusion = .ok () ↔
      b.timestamp = head.blockInfo.timestamp + cfg.blockTime := by
  simp only [checkBatchTimestamp, reject_bind_ok, reject_ok, BitVec.not_lt]
  constructor
  · rintro ⟨hle, hge⟩
    exact BitVec.le_antisymm hle hge
  · intro he
    exact ⟨BitVec.le_of_eq he, BitVec.le_of_eq he.symm⟩

theorem checkDrift_ok (b : SingleBatch) (cfg : RollupConfig) (epoch : BlockInfo)
    (later : List BlockInfo) (origin : BlockInfo) :
    b.checkDrift cfg epoch later origin = .ok () ↔
      origin.timestamp.toNat + (cfg.maxSequencerDriftAt origin.timestamp).toNat < 2 ^ 64 ∧
      (origin.timestamp + cfg.maxSequencerDriftAt origin.timestamp < b.timestamp →
        b.transactions = [] ∧
        (epoch.number = origin.number → ∃ next ∈ later.head?, b.timestamp < next.timestamp)) := by
  simp only [checkDrift, reject_bind_ok, Nat.not_le]
  apply and_congr_right
  intro _
  by_cases hmax : origin.timestamp + cfg.maxSequencerDriftAt origin.timestamp < b.timestamp
  · by_cases htx : b.transactions = []
    · by_cases he : epoch.number = origin.number
      · cases later <;> simp [hmax, htx, he]
      · simp [hmax, htx, he]
    · simp [hmax, htx]
  · simp [hmax]

theorem checks_ok {b : SingleBatch} (hp : b.parentHash = head.blockInfo.hash) :
    b.checks cfg (epoch :: later) head inclusion = .ok () ↔
      b.timestamp = head.blockInfo.timestamp + cfg.blockTime ∧
      ¬b.epochNum + cfg.seqWindowSize < inclusion.number ∧
      ∃ origin, b.batchOrigin epoch later = .ok origin ∧ b.epochHash = origin.hash ∧
        ¬b.timestamp < origin.timestamp ∧ b.checkDrift cfg epoch later origin = .ok () ∧
        (cfg.isFirstJovianBlock b.timestamp = true → b.transactions = []) ∧
        checkTransactions cfg b.timestamp b.transactions = .ok () := by
  have hparent : ¬b.parentHash ≠ head.blockInfo.hash := not_not.mpr hp
  simp only [checks, unit_bind_ok, reject_ok, checkBatchTimestamp_ok]
  simp [bind_ok (α := BlockInfo), unit_bind_ok, reject_ok, hparent]

end SingleBatch

namespace SpanBatch

theorem mem_of_windowFrom (h : windowFrom window number = origin :: later) :
    origin.number = number ∧ origin ∈ window := by
  have hd := List.head?_dropWhile_not (fun b : BlockInfo => decide (b.number ≠ number)) window
  rw [windowFrom] at h
  rw [h] at hd
  have hs := (List.dropWhile_sublist (fun b : BlockInfo => decide (b.number ≠ number))
    (l := window)).subset
  rw [h] at hs
  exact ⟨by simpa using hd, hs (by simp)⟩

theorem windowFrom_self : windowFrom (epoch :: rest) epoch.number = epoch :: rest := by
  simp [windowFrom]

theorem windowFrom_skip (h : epoch.number ≠ number) :
    windowFrom (epoch :: rest) number = windowFrom rest number := by
  simp [windowFrom, h]

/-- Both checks agree on the origin of a block of the current epoch or the next. -/
theorem batchOrigin_ok (hc : Consecutive (epoch :: rest)) {b : SingleBatch}
    (hw : windowFrom (epoch :: rest) b.epochNum = origin :: later) (o : BlockInfo) :
    b.batchOrigin epoch rest = .ok o ↔ b.epochNum.toNat ≤ epoch.number.toNat + 1 ∧ o = origin := by
  by_cases he : b.epochNum = epoch.number
  · rw [he, windowFrom_self] at hw
    cases hw
    unfold SingleBatch.batchOrigin
    rw [he, if_neg (by exact BitVec.lt_irrefl _), if_pos rfl]
    simp [eq_comm]
  · rw [windowFrom_skip (Ne.symm he)] at hw
    obtain ⟨hn, hm⟩ := mem_of_windowFrom hw
    have hlt := hc.lt_of_mem hm
    rw [hn] at hlt
    have hold : ¬b.epochNum < epoch.number := by
      rw [BitVec.lt_def]
      omega
    match rest with
    | [] => cases hm
    | next :: rest =>
      have hnext : next.number.toNat = epoch.number.toNat + 1 := (List.isChain_cons_cons.mp hc).1
      have hsucc : (epoch.number + 1).toNat = epoch.number.toNat + 1 := by
        rw [BitVec.toNat_add]
        simp
        omega
      have hplus : b.epochNum = epoch.number + 1 ↔ b.epochNum.toNat = epoch.number.toNat + 1 := by
        rw [← BitVec.toNat_inj, hsucc]
      unfold SingleBatch.batchOrigin
      rw [if_neg hold, if_neg he]
      by_cases hs : b.epochNum.toNat = epoch.number.toNat + 1
      · have : next.number = b.epochNum := BitVec.eq_of_toNat_eq (by omega)
        rw [← this, windowFrom_self] at hw
        cases hw
        rw [if_pos (hplus.mpr hs)]
        simp [hs, eq_comm]
      · rw [if_neg (hplus.not.mpr hs)]
        simp
        omega

/-- The block that a batch becomes on top of `head`. Its hash is what executing the
batch gives. -/
def nextHead (blockHash : SingleBatch → B256) (head : L2BlockInfo) (b : SingleBatch) :
    L2BlockInfo where
  blockInfo := ⟨blockHash b, head.blockInfo.number + 1, head.blockInfo.hash, b.timestamp⟩
  l1Origin := ⟨b.epochNum, b.epochHash⟩
  seqNum := if b.epochNum = head.l1Origin.number then head.seqNum + 1 else 0

/-- Every batch, with the hash of the block before it as its parent, is accepted
against the window from that block's L1 origin on. -/
def AcceptedInTurn (cfg : RollupConfig) (inclusion : BlockInfo) (blockHash : SingleBatch → B256) :
    L2BlockInfo → List BlockInfo → List SingleBatch → Prop
  | _, _, [] => True
  | head, window, single :: singles =>
    let b := { single with parentHash := head.blockInfo.hash }
    b.checkBatch cfg window head inclusion = .accept ∧
      AcceptedInTurn cfg inclusion blockHash (nextHead blockHash head b)
        (windowFrom window b.epochNum) singles

/-- The span comes apart into batches that are accepted one by one. -/
def SplitsAccepted (span : SpanBatch) (cfg : RollupConfig) (l1Blocks : List BlockInfo)
    (head : L2BlockInfo) (inclusion : BlockInfo) : Prop :=
  ∃ singles, span.getSingularBatches l1Blocks head = .ok singles ∧
    ∀ blockHash, AcceptedInTurn cfg inclusion blockHash head l1Blocks singles

/-- The blocks that are not on the safe chain yet. -/
def newElements (head : L2BlockInfo) (batches : List SpanBatchElement) : List SpanBatchElement :=
  batches.filter fun e => ¬e.timestamp ≤ head.blockInfo.timestamp

/-- What the check of a single batch asks for and that of a span does not, of a
block after one with the given time and epoch. `window` starts at its L1 origin. -/
structure Follows (cfg : RollupConfig) (inclusion : BlockInfo) (timestamp epoch : U64)
    (window : List BlockInfo) (e : SpanBatchElement) : Prop where
  next : e.timestamp = timestamp + cfg.blockTime
  near : e.epochNum.toNat ≤ epoch.toNat + 1
  timely : ¬e.epochNum + cfg.seqWindowSize < inclusion.number
  drift : ∀ origin ∈ window.head?,
    origin.timestamp.toNat + (cfg.maxSequencerDriftAt origin.timestamp).toNat < 2 ^ 64
  hurried : ∀ origin ∈ window.head?,
    origin.timestamp + cfg.maxSequencerDriftAt origin.timestamp < e.timestamp →
    e.epochNum = epoch → ∃ next ∈ window.tail.head?, e.timestamp < next.timestamp
  transition : cfg.isFirstJovianBlock e.timestamp = true → e.transactions = []

/-- `Follows` from one block to the next. -/
def FollowInTurn (cfg : RollupConfig) (inclusion : BlockInfo) :
    U64 → U64 → List BlockInfo → List SpanBatchElement → Prop
  | _, _, _, [] => True
  | timestamp, epoch, window, e :: es =>
    Follows cfg inclusion timestamp epoch (windowFrom window e.epochNum) e ∧
      FollowInTurn cfg inclusion e.timestamp e.epochNum (windowFrom window e.epochNum) es

theorem checkDrift_ok :
    checkDrift cfg e origin later advanced = .ok () ↔
      (origin.timestamp + cfg.maxSequencerDriftAt origin.timestamp < e.timestamp →
        e.transactions = [] ∧
        (advanced = false → ∃ next ∈ later.head?, e.timestamp < next.timestamp)) := by
  unfold checkDrift
  by_cases hmax : origin.timestamp + cfg.maxSequencerDriftAt origin.timestamp < e.timestamp
  · by_cases htx : e.transactions = []
    · cases advanced
      · cases later <;> simp [hmax, htx]
      · simp [hmax, htx]
    · simp [hmax, htx]
  · simp [hmax]

/-- One block: given what the span check has established, the check of the single
batch accepts exactly if the block follows its predecessor. -/
theorem single_accept_iff (inclusion : BlockInfo) {head : L2BlockInfo}
    (hc : Consecutive (epoch :: rest)) (hh : epoch.number = head.l1Origin.number)
    (hw : windowFrom (epoch :: rest) e.epochNum = origin :: later)
    (hts : ¬e.timestamp < origin.timestamp) (hd : checkDrift cfg e origin later advanced = .ok ())
    (htx : checkTransactions cfg e.timestamp e.transactions = .ok ()) :
    SingleBatch.checkBatch ⟨head.blockInfo.hash, e.epochNum, origin.hash, e.timestamp,
        e.transactions⟩ cfg (epoch :: rest) head inclusion = .accept ↔
      Follows cfg inclusion head.blockInfo.timestamp head.l1Origin.number (origin :: later) e := by
  rw [checkDrift_ok] at hd
  unfold SingleBatch.checkBatch
  rw [BatchValidity.ofChecks_accept, SingleBatch.checks_ok rfl]
  have horigin := batchOrigin_ok (b := ⟨head.blockInfo.hash, e.epochNum, origin.hash, e.timestamp,
    e.transactions⟩) hc hw
  simp only [horigin, SingleBatch.checkDrift_ok]
  -- a block that keeps the epoch has the first block of the window as its origin
  have hsame : epoch.number = origin.number ↔ e.epochNum = head.l1Origin.number := by
    rw [(mem_of_windowFrom hw).1, hh, eq_comm]
  have hrest : e.epochNum = head.l1Origin.number → rest = later := by
    intro he
    rw [he, ← hh, windowFrom_self] at hw
    exact (List.cons.inj hw).2
  constructor
  · rintro ⟨hnext, htime, o, ⟨hnear, rfl⟩, -, -, ⟨hover, hdrift⟩, hj, -⟩
    refine ⟨hnext, hh ▸ hnear, htime, by simpa using hover, ?_, hj⟩
    rintro origin ho hmax he
    cases ho
    have := (hdrift hmax).2 (hsame.mpr he)
    rwa [hrest he] at this
  · rintro ⟨hnext, hnear, htime, hover, hhurry, hj⟩
    refine ⟨hnext, htime, origin, ⟨hh ▸ hnear, rfl⟩, rfl, hts, ⟨hover origin rfl, ?_⟩, hj, htx⟩
    intro hmax
    refine ⟨(hd hmax).1, fun hs => ?_⟩
    rw [hrest (hsame.mp hs)]
    exact hhurry origin rfl hmax (hsame.mp hs)

theorem checkElements_old (he : e.timestamp ≤ safe.blockInfo.timestamp) :
    checkElements cfg safe first before window (e :: es) =
      checkElements cfg safe first (some e) window es := by
  rw [checkElements, if_pos he]

theorem checkElements_new (he : ¬e.timestamp ≤ safe.blockInfo.timestamp)
    (h : checkElements cfg safe first before window (e :: es) = .ok ()) :
    ¬e.epochNum < safe.l1Origin.number ∧ ∃ origin later,
      windowFrom window e.epochNum = origin :: later ∧ ¬e.timestamp < origin.timestamp ∧
      checkDrift cfg e origin later (originAdvanced first before e) = .ok () ∧
      checkTransactions cfg e.timestamp e.transactions = .ok () ∧
      checkElements cfg safe first (some e) (origin :: later) es = .ok () := by
  rw [checkElements, if_neg he, reject_bind_ok] at h
  obtain ⟨hepoch, h⟩ := h
  refine ⟨hepoch, ?_⟩
  cases hw : windowFrom window e.epochNum with
  | nil => simp [hw] at h
  | cons origin later =>
    simp only [hw, unit_bind_ok, reject_ok, mapError_eq_ok] at h
    exact ⟨origin, later, rfl, h⟩

/-- All blocks: by induction over the elements, with the L1 window and the block in
front of them as they come up. -/
theorem accepted_run (inclusion : BlockInfo) (es : List SpanBatchElement)
    (hc : Consecutive window) (h : checkElements cfg safe first before window es = .ok ()) :
    ∃ singles, singularBatchesFrom safe window es = .ok singles ∧
      ∀ (blockHash : SingleBatch → B256) (head : L2BlockInfo),
        (∃ epoch ∈ window.head?, epoch.number = head.l1Origin.number) →
        (AcceptedInTurn cfg inclusion blockHash head window singles ↔
          FollowInTurn cfg inclusion head.blockInfo.timestamp head.l1Origin.number window
            (newElements safe es)) := by
  induction es generalizing before window with
  | nil => exact ⟨[], rfl, fun _ _ _ => Iff.rfl⟩
  | cons e es ih =>
    by_cases he : e.timestamp ≤ safe.blockInfo.timestamp
    · rw [checkElements_old he] at h
      obtain ⟨singles, hs, hiff⟩ := ih hc h
      have hnew : newElements safe (e :: es) = newElements safe es := by simp [newElements, he]
      refine ⟨singles, ?_, hnew ▸ hiff⟩
      rw [singularBatchesFrom, if_pos he, hs]
    · obtain ⟨hepoch, origin, later, hw, hts, hd, htx, hes⟩ := checkElements_new he h
      have hcl : Consecutive (origin :: later) := hw ▸ hc.windowFrom e.epochNum
      obtain ⟨singles, hs, hiff⟩ := ih hcl hes
      have hnew : newElements safe (e :: es) = e :: newElements safe es :=
        List.filter_cons_of_pos (by simpa using he)
      refine ⟨⟨0, e.epochNum, origin.hash, e.timestamp, e.transactions⟩ :: singles, ?_, ?_⟩
      · rw [singularBatchesFrom, if_neg he, if_neg hepoch, hw]
        simp [hs]
      · rintro blockHash head ⟨epoch, hmem, hh⟩
        obtain ⟨rest, rfl⟩ : ∃ rest, window = epoch :: rest := List.head?_eq_some_iff.mp hmem
        rw [hnew, FollowInTurn, hw]
        have hsingle := single_accept_iff inclusion hc hh hw hts hd htx
        have horigin := (mem_of_windowFrom hw).1
        refine and_congr hsingle ?_
        rw [hw]
        exact hiff blockHash _ ⟨origin, rfl, horigin⟩

theorem checks_of_accept {span : SpanBatch}
    (h : span.checkBatch cfg decodeCalldata l1Blocks head inclusion fetcher = some .accept) :
    span.checks cfg decodeCalldata l1Blocks head inclusion fetcher = .ok () := by
  unfold checkBatch at h
  split at h
  · assumption
  · rename_i refusal _
    cases refusal <;> cases h
  · cases h

/-- An accepted span comes apart into accepted batches exactly if its new blocks
follow one another. -/
theorem splits_iff_follow {span : SpanBatch} (inclusion : BlockInfo) (hc : Consecutive l1Blocks)
    (hw : ∃ epoch ∈ l1Blocks.head?, epoch.number = head.l1Origin.number)
    (h : checkElements cfg head first none l1Blocks span.batches = .ok ()) :
    span.SplitsAccepted cfg l1Blocks head inclusion ↔
      FollowInTurn cfg inclusion head.blockInfo.timestamp head.l1Origin.number l1Blocks
        (newElements head span.batches) := by
  obtain ⟨singles, hs, hiff⟩ := accepted_run inclusion span.batches hc h
  constructor
  · rintro ⟨singles', hs', hall⟩
    rw [getSingularBatches, hs] at hs'
    cases hs'
    exact (hiff (fun _ => 0) head hw).mp (hall _)
  · intro hf
    exact ⟨singles, hs, fun blockHash => (hiff blockHash head hw).mpr hf⟩

end SpanBatch
end SciChain.Derive
