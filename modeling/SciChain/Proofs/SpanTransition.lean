import SciChain.Proofs.SpanAcceptance

namespace SciChain.Derive.SpanBatch
open Library

/-- Blocks one block time apart whose epochs advance one by one, as `derive` lays
them out. -/
def Regular (blockTime : U64) (batches : List SpanBatchElement) : Prop :=
  batches.IsChain fun a b => b.timestamp.toNat = a.timestamp.toNat + blockTime.toNat ∧
    a.epochNum.toNat ≤ b.epochNum.toNat ∧ b.epochNum.toNat ≤ a.epochNum.toNat + 1

/-- The sums that the checks form stay below the end of the word. -/
structure NoOverflow (cfg : RollupConfig) (head : L2BlockInfo) (l1Blocks : List BlockInfo)
    (batches : List SpanBatchElement) : Prop where
  next : head.blockInfo.timestamp.toNat + cfg.blockTime.toNat < 2 ^ 64
  window : ∀ e ∈ batches, e.epochNum.toNat + cfg.seqWindowSize.toNat < 2 ^ 64
  drift : ∀ b ∈ l1Blocks,
    b.timestamp.toNat + (cfg.maxSequencerDriftAt b.timestamp).toNat < 2 ^ 64

/-- The provider answers with the blocks of the chain that ends in `head`. -/
structure Consistent (cfg : RollupConfig) (decodeCalldata : Bytes → Option L1BlockInfoTx)
    (head : L2BlockInfo) (fetcher : BatchValidationProvider) : Prop where
  number : ∀ n info, fetcher.l2BlockInfoByNumber n = some info → info.blockInfo.number = n
  origin : ∀ block info, fetcher.blockByNumber head.blockInfo.number = some block →
    L2BlockInfo.fromBlockAndGenesis decodeCalldata block cfg.genesis = .ok info →
    info.l1Origin = head.l1Origin

/-- No block at which the Jovian upgrade activates has transactions. -/
def EmptyTransition (cfg : RollupConfig) (batches : List SpanBatchElement) : Prop :=
  ∀ e ∈ batches, cfg.isFirstJovianBlock e.timestamp = true → e.transactions = []

section Regular

variable {cfg : RollupConfig} {safe : L2BlockInfo} {first : Bool} {inclusion : BlockInfo}

variable {decodeCalldata : Bytes → Option L1BlockInfoTx} {fetcher : BatchValidationProvider}
  {batches : List SpanBatchElement} {span : SpanBatch}

/-- One block that comes regularly after another: only the transition rule is left
to ask for. -/
theorem follows_iff (hw : windowFrom window e.epochNum = origin :: later)
    (hd : checkDrift cfg e origin later (originAdvanced first before e) = .ok ())
    (hnext : e.timestamp = timestamp + cfg.blockTime) (hnear : e.epochNum.toNat ≤ epoch.toNat + 1)
    (hflag : e.epochNum = epoch → originAdvanced first before e = false)
    (htime : inclusion.number.toNat ≤ e.epochNum.toNat + cfg.seqWindowSize.toNat)
    (hov : e.epochNum.toNat + cfg.seqWindowSize.toNat < 2 ^ 64) (hdrift : ∀ b ∈ window,
      b.timestamp.toNat + (cfg.maxSequencerDriftAt b.timestamp).toNat < 2 ^ 64) :
    Follows cfg inclusion timestamp epoch (origin :: later) e ↔
      (cfg.isFirstJovianBlock e.timestamp = true → e.transactions = []) := by
  rw [checkDrift_ok] at hd
  constructor
  · exact Follows.transition
  · intro hj
    refine ⟨hnext, hnear, ?_, ?_, ?_, hj⟩
    · rw [BitVec.lt_def, BitVec.toNat_add, Nat.mod_eq_of_lt hov]
      omega
    · rintro o ho
      cases ho
      exact hdrift _ (mem_of_windowFrom hw).2
    · rintro o ho hmax he
      cases ho
      exact (hd hmax).2 (hflag he)

theorem follow_iff_transition (hlow : inclusion.number.toNat ≤ low + cfg.seqWindowSize.toNat)
    (es : List SpanBatchElement) (hnew : ∀ x ∈ e :: es, ¬x.timestamp ≤ safe.blockInfo.timestamp)
    (hreg : Regular cfg.blockTime (e :: es)) (hle : low ≤ e.epochNum.toNat)
    (hnext : e.timestamp = timestamp + cfg.blockTime) (hnear : e.epochNum.toNat ≤ epoch.toNat + 1)
    (hflag : e.epochNum = epoch → originAdvanced first before e = false)
    (hov : ∀ x ∈ e :: es, x.epochNum.toNat + cfg.seqWindowSize.toNat < 2 ^ 64)
    (hdrift : ∀ b ∈ window,
      b.timestamp.toNat + (cfg.maxSequencerDriftAt b.timestamp).toNat < 2 ^ 64)
    (h : checkElements cfg safe first before window (e :: es) = .ok ()) :
    FollowInTurn cfg inclusion timestamp epoch window (e :: es) ↔ EmptyTransition cfg (e :: es) := by
  induction es generalizing e before window timestamp epoch with
  | nil =>
    obtain ⟨-, origin, later, hw, -, hd, -, -⟩ := checkElements_new (hnew e (by simp)) h
    rw [FollowInTurn, hw, follows_iff hw hd hnext hnear hflag (by omega) (hov e (by simp)) hdrift]
    simp [FollowInTurn, EmptyTransition]
  | cons e' es ih =>
    obtain ⟨-, origin, later, hw, -, hd, -, hes⟩ := checkElements_new (hnew e (by simp)) h
    obtain ⟨⟨hstep, hmono, hone⟩, hreg'⟩ := List.isChain_cons_cons.mp hreg
    have hnext' : e'.timestamp = e.timestamp + cfg.blockTime := by
      apply BitVec.eq_of_toNat_eq
      rw [BitVec.toNat_add, ← hstep, Nat.mod_eq_of_lt e'.timestamp.isLt]
    have hflag' : e'.epochNum = e.epochNum → originAdvanced first (some e) e' = false := by
      intro he
      simp [originAdvanced, he]
    have hsub : ∀ b ∈ origin :: later, b ∈ window := fun b hb => by
      have hs := (List.dropWhile_sublist (fun b : BlockInfo => decide (b.number ≠ e.epochNum))
        (l := window)).subset
      rw [← hw] at hb
      exact hs hb
    have hrest := ih (fun x hx => hnew x (List.mem_cons_of_mem _ hx)) hreg' (by omega) hnext' hone
      hflag' (fun x hx => hov x (List.mem_cons_of_mem _ hx)) (fun b hb => hdrift b (hsub b hb)) hes
    rw [FollowInTurn, hw, follows_iff hw hd hnext hnear hflag (by omega) (hov e (by simp)) hdrift,
      hrest]
    simp [EmptyTransition]

theorem Regular.timestamp_at (h : Regular blockTime (e :: es)) (hx : (e :: es)[i]? = some x) :
    x.timestamp.toNat = e.timestamp.toNat + i * blockTime.toNat ∧
      e.epochNum.toNat ≤ x.epochNum.toNat := by
  induction es generalizing e i with
  | nil =>
    cases i with
    | zero =>
      cases hx
      simp
    | succ i => simp at hx
  | cons e' es ih =>
    cases i with
    | zero =>
      cases hx
      simp
    | succ i =>
      obtain ⟨⟨hstep, hmono, -⟩, hreg⟩ := List.isChain_cons_cons.mp h
      obtain ⟨ht, he⟩ := ih hreg hx
      exact ⟨by rw [ht, hstep, Nat.succ_mul]; omega, by omega⟩

theorem Regular.le_of_mem_take (h : Regular blockTime (e :: es)) (hx : x ∈ (e :: es).take (k + 1)) :
    x.timestamp.toNat ≤ e.timestamp.toNat + k * blockTime.toNat := by
  obtain ⟨i, hi⟩ := List.mem_iff_getElem?.mp hx
  rw [List.getElem?_take] at hi
  split at hi
  · rename_i hlt
    have hmul : i * blockTime.toNat ≤ k * blockTime.toNat := Nat.mul_le_mul_right _ (by omega)
    have := (h.timestamp_at hi).1
    omega
  · cases hi

theorem Regular.lt_of_mem_drop (h : Regular blockTime (e :: es)) (hp : 0 < blockTime.toNat)
    (hx : x ∈ (e :: es).drop k) :
    e.timestamp.toNat + k * blockTime.toNat < x.timestamp.toNat + blockTime.toNat := by
  obtain ⟨i, hi⟩ := List.mem_iff_getElem?.mp hx
  rw [List.getElem?_drop] at hi
  have hmul : k * blockTime.toNat ≤ (k + i) * blockTime.toNat := Nat.mul_le_mul_right _ (by omega)
  have := (h.timestamp_at hi).1
  omega

theorem checkElements_skip (hold : ∀ x ∈ old, x.timestamp ≤ safe.blockInfo.timestamp)
    (before : Option SpanBatchElement) (window : List BlockInfo) (es : List SpanBatchElement) :
    checkElements cfg safe first before window (old ++ es) =
      checkElements cfg safe first (old.getLast?.or before) window es := by
  induction old generalizing before with
  | nil => rfl
  | cons e old ih =>
    rw [List.cons_append, checkElements_old (hold e (by simp)),
      ih (fun x hx => hold x (List.mem_cons_of_mem _ hx))]
    cases old <;> simp [List.getLast?_cons]

theorem newElements_split (old es : List SpanBatchElement)
    (hold : ∀ x ∈ old, x.timestamp ≤ safe.blockInfo.timestamp)
    (hnew : ∀ x ∈ es, ¬x.timestamp ≤ safe.blockInfo.timestamp) :
    newElements safe (old ++ es) = es := by
  rw [newElements, List.filter_append, List.filter_eq_nil_iff.mpr, List.filter_eq_self.mpr]
  · rfl
  · simpa using hnew
  · simpa using hold

/-- The blocks compared with the safe chain, by their positions. -/
theorem checkOverlaps_at
    (h : checkOverlaps cfg decodeCalldata fetcher parentNum batches left i = .ok ())
    (hj : j < left) :
    ∃ block batch, fetcher.blockByNumber (parentNum + BitVec.ofNat 64 (i + j) + 1) = some block ∧
      batches[i + j]? = some batch ∧ checkOverlapped cfg decodeCalldata block batch = .ok () := by
  induction left generalizing i j with
  | zero => omega
  | succ left ih =>
    unfold checkOverlaps at h
    split at h
    · cases h
    · rename_i block hb
      split at h
      · cases h
      · rename_i batch hbatch
        rw [unit_bind_ok] at h
        cases j with
        | zero => exact ⟨block, batch, by simpa using hb, by simpa using hbatch, h.1⟩
        | succ j =>
          have hr := ih h.2 (Nat.lt_of_succ_lt_succ hj)
          rwa [Nat.add_right_comm, Nat.add_assoc] at hr

theorem origin_of_overlapped (h : checkOverlapped cfg decodeCalldata block batch = .ok ()) :
    ∃ info, L2BlockInfo.fromBlockAndGenesis decodeCalldata block cfg.genesis = .ok info ∧
      info.l1Origin.number = batch.epochNum := by
  simp only [checkOverlapped, unit_bind_ok] at h
  obtain ⟨-, -, h⟩ := h
  split at h
  · cases h
  · rename_i info hinfo
    exact ⟨info, hinfo, by simpa using h⟩

theorem front_ok (h : span.checkBatchPrefix cfg l1Blocks head inclusion fetcher = .ok parent) :
    ∃ e es, span.batches = e :: es ∧
      ¬head.blockInfo.timestamp + cfg.blockTime < e.timestamp ∧
      parentOf cfg fetcher head e.timestamp = .ok parent ∧
      ¬e.epochNum + cfg.seqWindowSize < inclusion.number ∧
      ¬parent.l1Origin.number + 1 < e.epochNum := by
  unfold checkBatchPrefix at h
  split at h
  · rename_i epoch later e last hfirst hlast
    obtain ⟨es, hes⟩ := List.head?_eq_some_iff.mp hfirst
    simp only [bind_ok (α := BlockInfo), bind_ok (α := L2BlockInfo), unit_bind_ok, reject_ok] at h
    obtain ⟨_, -, -, hfuture, -, p, hp, -, htime, hfar, -, -, hpp⟩ := h
    cases hpp
    exact ⟨e, es, hes, hfuture, hp, htime, hfar⟩
  · cases h

/-- The parent of a span that starts on the safe chain, and how far back it is. -/
theorem parentOf_overlap (hs : start < head.blockInfo.timestamp + cfg.blockTime)
    (hov : head.blockInfo.timestamp.toNat + cfg.blockTime.toNat < 2 ^ 64)
    (h : parentOf cfg fetcher head start = .ok parent) :
    ∃ k : Nat, head.blockInfo.timestamp.toNat = start.toNat + k * cfg.blockTime.toNat ∧
      0 < cfg.blockTime.toNat ∧ k + 1 < 2 ^ 64 ∧
      fetcher.l2BlockInfoByNumber (head.blockInfo.number - BitVec.ofNat 64 k - 1) = some parent := by
  unfold parentOf at h
  simp only [if_pos hs, unit_bind_ok, reject_ok, BitVec.not_lt, not_not] at h
  obtain ⟨hle, hmod, h⟩ := h
  rw [BitVec.le_def] at hle
  have hsub := toNat_sub_of_toNat_le hle
  have hmod' : (head.blockInfo.timestamp.toNat - start.toNat) % cfg.blockTime.toNat = 0 := by
    have := congrArg BitVec.toNat hmod
    rwa [BitVec.toNat_umod, hsub] at this
  -- without a block time only the safe head's own time is aligned, and it is not below the next
  have hpos : 0 < cfg.blockTime.toNat := by
    rw [BitVec.lt_def, BitVec.toNat_add, Nat.mod_eq_of_lt hov] at hs
    by_contra hz
    rw [Nat.eq_zero_of_not_pos hz, Nat.mod_zero] at hmod'
    omega
  refine ⟨(head.blockInfo.timestamp.toNat - start.toNat) / cfg.blockTime.toNat, ?_, hpos, ?_, ?_⟩
  · have := Nat.div_add_mod (head.blockInfo.timestamp.toNat - start.toNat) cfg.blockTime.toNat
    rw [Nat.mul_comm]
    omega
  · have := Nat.div_le_self (head.blockInfo.timestamp.toNat - start.toNat) cfg.blockTime.toNat
    omega
  · have hdiv : (head.blockInfo.timestamp - start) / cfg.blockTime = BitVec.ofNat 64
        ((head.blockInfo.timestamp.toNat - start.toNat) / cfg.blockTime.toNat) := by
      apply BitVec.eq_of_toNat_eq
      rw [BitVec.toNat_udiv, hsub, BitVec.toNat_ofNat, Nat.mod_eq_of_lt]
      exact Nat.lt_of_le_of_lt (Nat.div_le_self _ _) (by omega)
    rw [hdiv] at h
    split at h
    · cases h
    · rename_i hf
      cases h
      exact hf

/-- The element that repeats the safe head has the safe head's epoch. -/
theorem overlap_at_head (hcons : Consistent cfg decodeCalldata head fetcher) (hk : k + 1 < 2 ^ 64)
    (hp : fetcher.l2BlockInfoByNumber (head.blockInfo.number - BitVec.ofNat 64 k - 1) = some parent)
    (h : checkOverlaps cfg decodeCalldata fetcher parent.blockInfo.number batches
      (head.blockInfo.number - parent.blockInfo.number).toNat 0 = .ok ()) :
    ∃ p, batches[k]? = some p ∧ p.epochNum = head.l1Origin.number := by
  have hn := hcons.number _ _ hp
  have hk' : BitVec.ofNat 64 k + 1 = BitVec.ofNat 64 (k + 1) := by
    rw [BitVec.ofNat_add]
    rfl
  have hback : head.blockInfo.number - parent.blockInfo.number = BitVec.ofNat 64 (k + 1) := by
    rw [hn, ← hk']
    generalize BitVec.ofNat 64 k = x
    generalize head.blockInfo.number = y
    bv_omega
  have hleft : (head.blockInfo.number - parent.blockInfo.number).toNat = k + 1 := by
    rw [hback, BitVec.toNat_ofNat, Nat.mod_eq_of_lt hk]
  have hat := checkOverlaps_at h (j := k) (by omega)
  rw [Nat.zero_add] at hat
  obtain ⟨block, p, hb, hbatch, hover⟩ := hat
  have hself : parent.blockInfo.number + BitVec.ofNat 64 k + 1 = head.blockInfo.number := by
    rw [hn]
    generalize BitVec.ofNat 64 k = x
    generalize head.blockInfo.number = y
    bv_omega
  rw [hself] at hb
  obtain ⟨info, hinfo, horigin⟩ := origin_of_overlapped hover
  exact ⟨p, hbatch, by rw [← horigin, hcons.origin block info hb hinfo]⟩

variable {e : SpanBatchElement} {es : List SpanBatchElement} {l1Blocks : List BlockInfo}

section

variable (hreg : Regular cfg.blockTime (e :: es)) (hov : NoOverflow cfg safe l1Blocks (e :: es))
  (hlow : inclusion.number.toNat ≤ e.epochNum.toNat + cfg.seqWindowSize.toNat)
include hreg hov hlow

theorem follow_iff_overlap (hpos : 0 < cfg.blockTime.toNat)
    (hk : safe.blockInfo.timestamp.toNat = e.timestamp.toNat + k * cfg.blockTime.toNat)
    (hpk : (e :: es)[k]? = some p) (hpe : p.epochNum = safe.l1Origin.number)
    (h : checkElements cfg safe first none l1Blocks (e :: es) = .ok ()) :
    FollowInTurn cfg inclusion safe.blockInfo.timestamp safe.l1Origin.number l1Blocks
        (newElements safe (e :: es)) ↔ EmptyTransition cfg (newElements safe (e :: es)) := by
  obtain ⟨hpt, hple⟩ := hreg.timestamp_at hpk
  obtain ⟨hlt, hget⟩ := List.getElem?_eq_some_iff.mp hpk
  have htake : (e :: es).take (k + 1) = (e :: es).take k ++ [p] := by
    rw [← hget, List.take_concat_get' _ _ hlt]
  have hold : ∀ x ∈ (e :: es).take (k + 1), x.timestamp ≤ safe.blockInfo.timestamp :=
    fun x hx => BitVec.le_def.mpr (hk ▸ hreg.le_of_mem_take hx)
  have hnew : ∀ x ∈ (e :: es).drop (k + 1), ¬x.timestamp ≤ safe.blockInfo.timestamp := by
    intro x hx hle
    have := hreg.lt_of_mem_drop hpos hx
    rw [BitVec.le_def, hk] at hle
    rw [Nat.succ_mul] at this
    omega
  have hmem : ∀ x ∈ (e :: es).drop (k + 1), x ∈ e :: es := fun x hx => List.mem_of_mem_drop hx
  have hregk : Regular cfg.blockTime (p :: (e :: es).drop (k + 1)) := by
    rw [← hget, ← List.drop_eq_getElem_cons hlt]
    exact hreg.suffix (List.drop_suffix k _)
  rw [← List.take_append_drop (k + 1) (e :: es)] at h ⊢
  rw [newElements_split _ _ hold hnew]
  rw [checkElements_skip hold, htake] at h
  cases hrest : (e :: es).drop (k + 1) with
  | nil => simp [FollowInTurn, EmptyTransition]
  | cons e' es' =>
    rw [hrest] at hregk h hnew hmem
    obtain ⟨⟨hstep, hmono, hone⟩, hreg'⟩ := List.isChain_cons_cons.mp hregk
    have hnext : e'.timestamp = safe.blockInfo.timestamp + cfg.blockTime := by
      apply BitVec.eq_of_toNat_eq
      rw [BitVec.toNat_add, Nat.mod_eq_of_lt hov.next]
      omega
    refine follow_iff_transition hlow es' hnew hreg' (by omega) hnext (hpe ▸ hone) ?_
      (fun x hx => hov.window x (hmem x hx)) hov.drift h
    intro he
    simp [originAdvanced, he, hpe]

theorem follow_iff_next (hnext : e.timestamp = safe.blockInfo.timestamp + cfg.blockTime)
    (hnear : e.epochNum.toNat ≤ safe.l1Origin.number.toNat + 1)
    (hflag : e.epochNum = safe.l1Origin.number → first = false)
    (h : checkElements cfg safe first none l1Blocks (e :: es) = .ok ()) :
    FollowInTurn cfg inclusion safe.blockInfo.timestamp safe.l1Origin.number l1Blocks
        (newElements safe (e :: es)) ↔ EmptyTransition cfg (newElements safe (e :: es)) := by
  have hnextNat : e.timestamp.toNat = safe.blockInfo.timestamp.toNat + cfg.blockTime.toNat := by
    rw [hnext, BitVec.toNat_add, Nat.mod_eq_of_lt hov.next]
  by_cases hpos : 0 < cfg.blockTime.toNat
  · have hnew : ∀ x ∈ e :: es, ¬x.timestamp ≤ safe.blockInfo.timestamp := by
      intro x hx hle
      have := hreg.lt_of_mem_drop hpos (k := 0) hx
      rw [BitVec.le_def] at hle
      omega
    have hall := newElements_split [] (e :: es) (by simp) hnew
    rw [List.nil_append] at hall
    rw [hall]
    refine follow_iff_transition hlow es hnew hreg (Nat.le_refl _) hnext hnear ?_ hov.window
      hov.drift h
    exact hflag
  · -- without a block time no element is new
    have hold : ∀ x ∈ e :: es, x.timestamp ≤ safe.blockInfo.timestamp := by
      intro x hx
      obtain ⟨i, hi⟩ := List.mem_iff_getElem?.mp hx
      have := (hreg.timestamp_at hi).1
      rw [Nat.eq_zero_of_not_pos hpos, Nat.mul_zero] at this
      rw [BitVec.le_def]
      omega
    have hnone := newElements_split (e :: es) [] hold (by simp)
    rw [List.append_nil] at hnone
    rw [hnone]
    simp [FollowInTurn, EmptyTransition]

end

/-- For a regular span only the transition rule decides. -/
theorem follow_iff_of_regular (hreg : Regular cfg.blockTime span.batches)
    (hov : NoOverflow cfg head l1Blocks span.batches)
    (hcons : Consistent cfg decodeCalldata head fetcher)
    (h : span.checks cfg decodeCalldata l1Blocks head inclusion fetcher = .ok ()) :
    FollowInTurn cfg inclusion head.blockInfo.timestamp head.l1Origin.number l1Blocks
        (newElements head span.batches) ↔
      EmptyTransition cfg (newElements head span.batches) := by
  simp only [checks, bind_ok (α := L2BlockInfo), unit_bind_ok] at h
  obtain ⟨parent, hfront, helements, hoverlap⟩ := h
  obtain ⟨e, es, hes, hfuture, hparent, htime, hfar⟩ := front_ok hfront
  rw [hes] at hreg hov helements hoverlap ⊢
  have hlow : inclusion.number.toNat ≤ e.epochNum.toNat + cfg.seqWindowSize.toNat := by
    rw [BitVec.lt_def, BitVec.toNat_add, Nat.mod_eq_of_lt (hov.window e (by simp))] at htime
    omega
  by_cases hs : e.timestamp < head.blockInfo.timestamp + cfg.blockTime
  · obtain ⟨k, hk, hpos, hk64, hp⟩ := parentOf_overlap hs hov.next hparent
    simp only [List.head?_cons, Option.any_some, decide_eq_true_eq, hs, if_true] at hoverlap
    obtain ⟨p, hpk, hpe⟩ := overlap_at_head hcons hk64 hp hoverlap
    exact follow_iff_overlap hreg hov hlow hpos hk hpk hpe helements
  · have hnext : e.timestamp = head.blockInfo.timestamp + cfg.blockTime :=
      BitVec.le_antisymm (BitVec.not_lt.mp hfuture) (BitVec.not_lt.mp hs)
    rw [parentOf, if_neg hs] at hparent
    cases hparent
    have hnear : e.epochNum.toNat ≤ head.l1Origin.number.toNat + 1 := by
      rw [BitVec.lt_def, BitVec.toNat_add] at hfar
      have := Nat.mod_le (head.l1Origin.number.toNat + (1 : U64).toNat) (2 ^ 64)
      change _ ≤ head.l1Origin.number.toNat + 1 at this
      omega
    refine follow_iff_next hreg hov hlow hnext hnear ?_ helements
    intro he
    simp [he]

end Regular

/-- An accepted span comes apart into batches that are accepted one by one exactly
if its new blocks follow one another; for a regular span and a consistent chain,
exactly if the block that activates Jovian is empty. -/
theorem accepted_span_splits_iff (span : SpanBatch) (cfg : RollupConfig)
    (decodeCalldata : Bytes → Option L1BlockInfoTx) (l1Blocks : List BlockInfo)
    (head : L2BlockInfo) (inclusion : BlockInfo) (fetcher : BatchValidationProvider)
    (hc : Consecutive l1Blocks)
    (hw : ∃ epoch ∈ l1Blocks.head?, epoch.number = head.l1Origin.number)
    (h : span.checkBatch cfg decodeCalldata l1Blocks head inclusion fetcher = some .accept) :
    (span.SplitsAccepted cfg l1Blocks head inclusion ↔
      FollowInTurn cfg inclusion head.blockInfo.timestamp head.l1Origin.number l1Blocks
        (newElements head span.batches)) ∧
    (Regular cfg.blockTime span.batches → NoOverflow cfg head l1Blocks span.batches →
      Consistent cfg decodeCalldata head fetcher →
      (span.SplitsAccepted cfg l1Blocks head inclusion ↔
        EmptyTransition cfg (newElements head span.batches))) := by
  have hok := checks_of_accept h
  have hchecks := hok
  simp only [checks, bind_ok (α := L2BlockInfo), unit_bind_ok] at hchecks
  obtain ⟨_, -, helements, -⟩ := hchecks
  have hiff := splits_iff_follow inclusion hc hw helements
  exact ⟨hiff, fun hreg hov hcons => hiff.trans (follow_iff_of_regular hreg hov hcons hok)⟩

/-- Jovian activates at time 102, every earlier upgrade at genesis. -/
def jovianConfig : RollupConfig :=
  { RollupConfig.withUpgrades ⟨some 0, some 0, some 0, some 0, some 0, some 0, some 0, some 102⟩ with
    l2ChainId := 8453 }

/-- The safe head right before the activation, and the L1 block it was built on. -/
def lastSafeHead : L2BlockInfo := ⟨⟨0xab, 50, 0xaa, 100⟩, ⟨10, 0xcd⟩, 3⟩
def lastOrigin : BlockInfo := ⟨0xcd, 10, 0xcc, 90⟩

def nextOrigin : BlockInfo := ⟨0xce, 11, 0xcd, 102⟩

/-- A span on top of it, up to the origin with the given hash. -/
def spanUpTo (origin : B256) (batches : List SpanBatchElement) : SpanBatch where
  parentCheck := hashCheck 0xab
  l1OriginCheck := hashCheck origin
  genesisTimestamp := 0
  chainId := 8453
  batches := batches
  originBits := []
  blockTxCounts := []
  txs := .empty

def spanOfOne (transactions : List Bytes) : SpanBatch := spanUpTo 0xcd [⟨10, 102, transactions⟩]

/-- The empty activation block and two more, the last of the next epoch. -/
def spanOfThree : SpanBatch :=
  spanUpTo 0xce [⟨10, 102, []⟩, ⟨10, 104, [[0x02]]⟩, ⟨11, 106, [[0x03]]⟩]

/-- A provider that knows no block; the span does not reach back to any. -/
def noBlocks : BatchValidationProvider := ⟨fun _ => none, fun _ => none⟩

theorem noBlocks_consistent (cfg : RollupConfig) (decodeCalldata : Bytes → Option L1BlockInfoTx)
    (head : L2BlockInfo) : Consistent cfg decodeCalldata head noBlocks where
  number _ _ h := by cases h
  origin _ _ h := by cases h

theorem accepted_span_into_next_epoch :
    spanOfThree.SplitsAccepted jovianConfig [lastOrigin, nextOrigin] lastSafeHead
      ⟨1, 12, 0, 114⟩ := by
  have h := accepted_span_splits_iff spanOfThree jovianConfig (fun _ => none)
    [lastOrigin, nextOrigin] lastSafeHead ⟨1, 12, 0, 114⟩ noBlocks
    (List.isChain_pair.mpr rfl) ⟨lastOrigin, rfl, rfl⟩ (by decide +kernel)
  refine (h.2 (by simp [Regular, spanOfThree, spanUpTo, jovianConfig, RollupConfig.withUpgrades])
    ⟨by decide, ?_, ?_⟩ (noBlocks_consistent _ _ _)).mpr ?_
  · simp [spanOfThree, spanUpTo, jovianConfig, RollupConfig.withUpgrades]
  · simp only [List.forall_mem_cons]
    exact ⟨by decide, by decide, nofun⟩
  · have hnew : newElements lastSafeHead spanOfThree.batches = spanOfThree.batches := rfl
    rw [hnew]
    simp only [EmptyTransition, spanOfThree, spanUpTo, List.forall_mem_cons]
    exact ⟨fun _ => trivial, fun h => absurd h (by decide), fun h => absurd h (by decide),
      nofun⟩

/-- The span check lets the activation block carry a transaction, for which the
check of the single batch drops it. -/
theorem accepted_span_splits_dropped :
    jovianConfig.isHoloceneActive 114 = true ∧ Consecutive [lastOrigin] ∧
    lastOrigin.number = lastSafeHead.l1Origin.number ∧
    Consistent jovianConfig (fun _ => none) lastSafeHead noBlocks ∧
    (spanOfOne [[0x02]]).checkBatch jovianConfig (fun _ => none) [lastOrigin] lastSafeHead
      ⟨1, 12, 0, 114⟩ noBlocks = some .accept ∧
    (spanOfOne [[0x02]]).getSingularBatches [lastOrigin] lastSafeHead =
      .ok [⟨0, 10, 0xcd, 102, [[0x02]]⟩] ∧
    SingleBatch.checkBatch ⟨0xab, 10, 0xcd, 102, [[0x02]]⟩ jovianConfig [lastOrigin] lastSafeHead
      ⟨1, 12, 0, 114⟩ = .drop .nonEmptyTransitionBlock ∧
    ¬(spanOfOne [[0x02]]).SplitsAccepted jovianConfig [lastOrigin] lastSafeHead
      ⟨1, 12, 0, 114⟩ := by
  refine ⟨by decide, List.isChain_singleton _, rfl, noBlocks_consistent _ _ _, by decide +kernel,
    by decide +kernel, by decide +kernel, ?_⟩
  rintro ⟨singles, hs, hall⟩
  have hone : (spanOfOne [[0x02]]).getSingularBatches [lastOrigin] lastSafeHead =
      .ok [⟨0, 10, 0xcd, 102, [[0x02]]⟩] := by decide +kernel
  rw [hone] at hs
  cases hs
  have hacc := (hall fun _ => 0).1
  revert hacc
  decide +kernel

end SciChain.Derive.SpanBatch
