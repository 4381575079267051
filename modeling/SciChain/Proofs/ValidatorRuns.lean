import SciChain.Derive.BatchValidator
import SciChain.Library.Run
import SciChain.Proofs.BatchDelays
import SciChain.Proofs.SpanAcceptance

namespace SciChain.Derive
open Library

/-- The next block of a chain whose timestamps do not decrease. -/
def BlockInfo.Precedes (block next : BlockInfo) : Prop :=
  next.number.toNat = block.number.toNat + 1 ∧ next.parentHash = block.hash ∧
    block.timestamp ≤ next.timestamp

instance (block next : BlockInfo) : Decidable (block.Precedes next) :=
  inferInstanceAs (Decidable (_ ∧ _ ∧ _))

/-- The L1 block after the origin of an L2 block. -/
def L2BlockInfo.NextOrigin (parent : L2BlockInfo) (block : BlockInfo) : Prop :=
  block.number.toNat = parent.l1Origin.number.toNat + 1 ∧
    block.parentHash = parent.l1Origin.hash

/-- The block built from a batch on top of its parent. -/
def L2BlockInfo.child (parent : L2BlockInfo) (batch : SingleBatch) (hash : B256) : L2BlockInfo where
  blockInfo := ⟨hash, parent.blockInfo.number + 1, batch.parentHash, batch.timestamp⟩
  l1Origin := ⟨batch.epochNum, batch.epochHash⟩
  seqNum := if batch.epochNum = parent.l1Origin.number then parent.seqNum + 1 else 0

theorem BlockInfo.Precedes.number_eq {block next : BlockInfo} (h : block.Precedes next) :
    next.number = block.number + 1 := by
  have hnumber := h.1
  bv_omega

theorem BlockInfo.number_add_length (h : (first :: blocks).IsChain BlockInfo.Precedes)
    (hlast : (first :: blocks).getLast? = some last) :
    first.number.toNat + blocks.length = last.number.toNat := by
  induction blocks generalizing first with
  | nil =>
    obtain rfl : first = last := by simpa using hlast
    rfl
  | cons next blocks ih =>
    obtain ⟨hnext, htail⟩ := List.isChain_cons_cons.mp h
    have hrec := ih htail (by simpa using hlast)
    have hnumber := hnext.1
    simp only [List.length_cons]
    omega

theorem checkTransactions_ne_future : checkTransactions cfg timestamp txs ≠ .error .future := by
  induction txs with
  | nil => simp [checkTransactions]
  | cons tx txs ih =>
    refine bind_ne_error (reject_ne_error (by simp)) fun _ => ?_
    refine bind_ne_error (reject_ne_error (by simp)) fun _ => ?_
    exact bind_ne_error (reject_ne_error (by simp)) fun _ => ih

namespace SingleBatch

variable {cfg : RollupConfig} {b : SingleBatch} {epoch origin : BlockInfo} {later : List BlockInfo}

theorem batchOrigin_ok (h : b.batchOrigin epoch later = .ok origin) :
    (b.epochNum = epoch.number ∧ origin = epoch) ∨
      (b.epochNum = epoch.number + 1 ∧ later.head? = some origin) := by
  unfold batchOrigin at h
  split at h
  · cases h
  · split at h
    · rename_i heq
      exact Or.inl ⟨heq, (Except.ok.inj h).symm⟩
    · split at h
      · rename_i heq
        cases later with
        | nil => cases h
        | cons next later => exact Or.inr ⟨heq, congrArg some (Except.ok.inj h)⟩
      · cases h

/-- Under Holocene no batch is kept for later. -/
theorem checks_ne_future (h : cfg.isHoloceneActive inclusion.timestamp = true) :
    b.checks cfg blocks head inclusion ≠ .error .future := by
  cases blocks with
  | nil => simp [checks]
  | cons epoch later =>
    have htime : b.checkBatchTimestamp cfg head inclusion ≠ .error .future := by
      refine bind_ne_error (reject_ne_error (by simp [h])) fun _ => ?_
      exact reject_ne_error (by simp [h])
    have horigin : b.batchOrigin epoch later ≠ .error .future := by
      unfold batchOrigin
      cases later with
      | nil => split_ifs <;> simp
      | cons next later => split_ifs <;> simp
    have hdrift : ∀ origin, b.checkDrift cfg epoch later origin ≠ .error .future := by
      intro origin
      refine bind_ne_error (reject_ne_error (by simp)) fun _ => ?_
      refine bind_ne_error (reject_ne_error (by simp)) fun _ => ?_
      split_ifs
      · cases later with
        | nil => simp
        | cons next later => exact reject_ne_error (by simp)
      · simp
    refine bind_ne_error htime fun _ => ?_
    refine bind_ne_error (reject_ne_error (by simp)) fun _ => ?_
    refine bind_ne_error (reject_ne_error (by simp)) fun _ => ?_
    refine bind_ne_error horigin fun origin => ?_
    refine bind_ne_error (reject_ne_error (by simp)) fun _ => ?_
    refine bind_ne_error (reject_ne_error (by simp)) fun _ => ?_
    refine bind_ne_error (hdrift origin) fun _ => ?_
    exact bind_ne_error (reject_ne_error (by simp)) fun _ => checkTransactions_ne_future

end SingleBatch

namespace BatchValidator

variable {cfg : RollupConfig} {parent : L2BlockInfo} {s : BatchValidator}

variable {origin epoch next : BlockInfo} {later : List BlockInfo}

/-- The L1 blocks the stage holds for a parent: a chain from the origin of the parent,
or the block after it, to the origin of the stage. -/
structure Window (parent : L2BlockInfo) (s : BatchValidator) : Prop where
  chained : s.l1Blocks.IsChain BlockInfo.Precedes
  last : ∃ origin, s.origin = some origin ∧ s.l1Blocks.getLast? = some origin
  first : ∃ epoch, s.l1Blocks.head? = some epoch ∧
    (epoch.id = parent.l1Origin ∨ parent.NextOrigin epoch)

/-- How the blocks of a window start. A window that is ahead of its parent has passed
every block of the parent's epoch, and so the time of the next one. -/
inductive Start (cfg : RollupConfig) (parent : L2BlockInfo) : List BlockInfo → Prop
  | held {epoch : BlockInfo} {later : List BlockInfo} (here : epoch.id = parent.l1Origin)
      (time : epoch.timestamp ≤ parent.blockInfo.timestamp) : Start cfg parent (epoch :: later)
  | ahead {epoch next : BlockInfo} {later : List BlockInfo} (here : parent.NextOrigin epoch)
      (time : epoch.timestamp.toNat ≤ parent.blockInfo.timestamp.toNat + cfg.blockTime.toNat) :
      Start cfg parent (epoch :: next :: later)

/-- How they start where the parent is the block just yielded: one further block may
be in front. -/
inductive Late (cfg : RollupConfig) (parent : L2BlockInfo) : List BlockInfo → Prop
  | settled {blocks : List BlockInfo} (start : Start cfg parent blocks) : Late cfg parent blocks
  | behind {old epoch : BlockInfo} {later : List BlockInfo} (here : epoch.id = parent.l1Origin)
      (time : epoch.timestamp ≤ parent.blockInfo.timestamp) :
      Late cfg parent (old :: epoch :: later)

/-- The invariant of the stage: `start` is what is known of its first blocks. -/
structure Aligned (start : List BlockInfo → Prop) (s : BatchValidator) : Prop where
  chained : s.l1Blocks.IsChain BlockInfo.Precedes
  last : ∃ origin, s.origin = some origin ∧ s.l1Blocks.getLast? = some origin
  start : start s.l1Blocks

theorem Aligned.window (h : Aligned (Start cfg parent) s) : Window parent s := by
  obtain ⟨origin, blocks⟩ := s
  refine ⟨h.chained, h.last, ?_⟩
  cases h.start with
  | @held epoch _ here _ => exact ⟨epoch, rfl, Or.inl here⟩
  | @ahead epoch _ _ here _ => exact ⟨epoch, rfl, Or.inr here⟩

theorem Start.append (h : Start cfg parent blocks) (more : List BlockInfo) :
    Start cfg parent (blocks ++ more) := by
  cases h with
  | held here time => exact .held here time
  | ahead here time => exact .ahead here time

theorem Late.append (h : Late cfg parent blocks) (more : List BlockInfo) :
    Late cfg parent (blocks ++ more) := by
  cases h with
  | settled start => exact .settled (start.append more)
  | behind here time => exact .behind here time

theorem Late.ne_nil (h : Late cfg parent blocks) : blocks ≠ [] := by
  cases h with
  | settled start => cases start <;> simp
  | behind _ _ => simp

theorem Aligned.origin_le (h : Aligned (Late cfg parent) s) (horigin : s.origin = some origin) :
    parent.l1Origin.number.toNat ≤ origin.number.toNat := by
  obtain ⟨stageOrigin, blocks⟩ := s
  obtain ⟨last, hs, hlast⟩ := h.last
  obtain rfl : last = origin := Option.some.inj (hs.symm.trans horigin)
  have hchain := h.chained
  cases h.start with
  | settled start =>
    cases start with
    | held here _ =>
      have hsum := BlockInfo.number_add_length hchain hlast
      rw [← here]
      exact Nat.le.intro hsum
    | ahead here _ =>
      have hsum := BlockInfo.number_add_length hchain hlast
      have hnext := here.1
      omega
  | behind here _ =>
    obtain ⟨hnext, _⟩ := List.isChain_cons_cons.mp hchain
    have hsum := BlockInfo.number_add_length hchain hlast
    rw [← here]
    have hnumber := hnext.1
    simp only [List.length_cons] at hsum
    simp only [BlockInfo.id]
    omega

/-- The origin of the previous stage: the one known, or the next L1 block. -/
def Advances (known : Option BlockInfo) (origin : BlockInfo) : Prop :=
  match known with
  | none => False
  | some block => origin = block ∨ block.Precedes origin

instance (known : Option BlockInfo) (origin : BlockInfo) : Decidable (Advances known origin) :=
  match known with
  | none => isFalse id
  | some _ => inferInstanceAs (Decidable (_ ∨ _))

theorem originBehind_eq_false (h : parent.l1Origin.number.toNat ≤ origin.number.toNat) :
    originBehind (some origin) parent = false := by
  simpa [originBehind, BitVec.le_def] using h

theorem followOrigin_aligned (h : Aligned (Late cfg parent) s) (hadv : Advances s.origin origin) :
    ∃ s', s.followOrigin (some origin) parent = (.ok (), s') ∧ s'.origin = some origin ∧
      s'.l1Blocks.head? = s.l1Blocks.head? ∧ Aligned (Late cfg parent) s' := by
  obtain ⟨last, hs, hlast⟩ := h.last
  simp only [Advances, hs] at hadv
  rcases hadv with rfl | hnext
  · exact ⟨s, by simp [followOrigin, hs], hs, rfl, h⟩
  · have hle := h.origin_le hs
    have hnumber := hnext.1
    have hne : s.origin ≠ some origin := by
      rw [hs]
      intro heq
      rw [Option.some.inj heq] at hnumber
      omega
    have hbehind : originBehind (some origin) parent = false := originBehind_eq_false (by omega)
    refine ⟨⟨some origin, s.l1Blocks ++ [origin]⟩, ?_, rfl, ?_, ?_⟩
    · simp [followOrigin, hne, hbehind]
    · exact List.head?_append_of_ne_nil _ h.start.ne_nil
    · refine ⟨?_, ⟨origin, rfl, by simp⟩, h.start.append _⟩
      refine List.isChain_append.mpr ⟨h.chained, List.isChain_singleton _, ?_⟩
      intro block hblock next hmem
      obtain rfl : last = block := Option.some.inj (hlast.symm.trans hblock)
      obtain rfl : origin = next := by simpa using hmem
      exact hnext

theorem advanceEpoch_of_start (h : Start cfg parent blocks) :
    advanceEpoch parent blocks = blocks := by
  cases h with
  | held here _ => simp [advanceEpoch, ← here, BlockInfo.id]
  | ahead here _ =>
    have hnumber := here.1
    refine if_neg ?_
    simp only [BitVec.lt_def]
    omega

theorem advanceEpoch_behind (hnext : old.Precedes epoch) (here : epoch.id = parent.l1Origin) :
    advanceEpoch parent (old :: epoch :: later) = epoch :: later := by
  have hnumber := hnext.1
  have hepoch : parent.l1Origin.number = epoch.number := by rw [← here]; rfl
  have hlt : old.number < epoch.number := by
    rw [BitVec.lt_def]
    omega
  have hne : old.number ≠ epoch.number := BitVec.ne_of_lt hlt
  simp [advanceEpoch, hepoch, hlt, List.findIdx?_cons, hne]

theorem advanceEpoch_aligned (h : Aligned (Late cfg parent) s) :
    Aligned (Start cfg parent) { s with l1Blocks := advanceEpoch parent s.l1Blocks } := by
  obtain ⟨stageOrigin, blocks⟩ := s
  have hchain := h.chained
  have hlast := h.last
  cases h.start with
  | settled start =>
    simp only [advanceEpoch_of_start start]
    exact ⟨hchain, hlast, start⟩
  | behind here time =>
    obtain ⟨hnext, htail⟩ := List.isChain_cons_cons.mp hchain
    simp only [advanceEpoch_behind hnext here]
    obtain ⟨last, hs, hlast⟩ := hlast
    exact ⟨htail, ⟨last, hs, by simpa using hlast⟩, .held here time⟩

/-- The first block of a window that starts after the parent's origin was there before. -/
theorem advanceEpoch_head (h : Aligned (Late cfg parent) s)
    (hhead : (advanceEpoch parent s.l1Blocks).head? = some epoch)
    (hnext : parent.NextOrigin epoch) : s.l1Blocks.head? = some epoch := by
  obtain ⟨stageOrigin, blocks⟩ := s
  have hchain := h.chained
  cases h.start with
  | settled start => rwa [advanceEpoch_of_start start] at hhead
  | behind here _ =>
    rw [advanceEpoch_behind (List.isChain_cons_cons.mp hchain).1 here] at hhead
    cases hhead
    have hnumber := hnext.1
    rw [← here] at hnumber
    exact absurd hnumber (by simp [BlockInfo.id])

theorem updateOrigins_aligned (h : Aligned (Late cfg parent) s) (hadv : Advances s.origin origin) :
    ∃ s', s.updateOrigins (some origin) parent = (.ok (), s') ∧ s'.origin = some origin ∧
      Aligned (Start cfg parent) s' ∧
      ∀ epoch, s'.l1Blocks.head? = some epoch → parent.NextOrigin epoch →
        s.l1Blocks.head? = some epoch := by
  obtain ⟨s', hfollow, hs, hhead, haligned⟩ := followOrigin_aligned h hadv
  refine ⟨{ s' with l1Blocks := advanceEpoch parent s'.l1Blocks }, ?_, hs,
    advanceEpoch_aligned haligned, ?_⟩
  · simp [updateOrigins, hfollow]
  · intro epoch hepoch hnext
    rw [← hhead]
    exact advanceEpoch_head haligned hepoch hnext

/-- A batch that continues the chain of its parent, in an epoch of the window. -/
structure Extends (cfg : RollupConfig) (parent : L2BlockInfo) (l1Blocks : List BlockInfo)
    (batch : SingleBatch) : Prop where
  parentHash : batch.parentHash = parent.blockInfo.hash
  timestamp : batch.timestamp.toNat = parent.blockInfo.timestamp.toNat + cfg.blockTime.toNat
  epoch : batch.epochNum.toNat = parent.l1Origin.number.toNat ∨
    batch.epochNum.toNat = parent.l1Origin.number.toNat + 1
  origin : ∃ block ∈ l1Blocks.take 2, block.id = ⟨batch.epochNum, batch.epochHash⟩ ∧
    block.timestamp ≤ batch.timestamp

/-- The stage and its answer after a call. -/
inductive Outcome (cfg : RollupConfig) (parent : L2BlockInfo) :
    PipelineResult SingleBatch → BatchValidator → Prop
  | failed {e : PipelineErrorKind} {s : BatchValidator} (mild : e.isCritical = false)
      (aligned : Aligned (Start cfg parent) s) : Outcome cfg parent (.error e) s
  | yielded {batch : SingleBatch} {s : BatchValidator} (next : Extends cfg parent s.l1Blocks batch)
      (aligned : Aligned (Start cfg parent) s) : Outcome cfg parent (.ok batch) s

/-- The window is in place for the block built from a yielded batch. -/
theorem Extends.aligned (h : Extends cfg parent s.l1Blocks batch)
    (haligned : Aligned (Start cfg parent) s) (hash : B256) :
    Aligned (Late cfg (parent.child batch hash)) s := by
  obtain ⟨stageOrigin, blocks⟩ := s
  refine ⟨haligned.chained, haligned.last, ?_⟩
  obtain ⟨block, hmem, hid, htime⟩ := h.origin
  cases blocks with
  | nil => simp at hmem
  | cons first blocks =>
    cases blocks with
    | nil =>
      obtain rfl : block = first := by simpa using hmem
      exact .settled (.held hid htime)
    | cons second blocks =>
      have hcases : block = first ∨ block = second := by simpa using hmem
      rcases hcases with rfl | rfl
      · exact .settled (.held hid htime)
      · exact .behind hid htime

theorem Aligned.two_of_ahead (h : Aligned (Start cfg parent) ⟨some origin, blocks⟩)
    (hne : parent.l1Origin.number ≠ origin.number) :
    ∃ epoch next later, blocks = epoch :: next :: later := by
  obtain ⟨last, hs, hlast⟩ := h.last
  cases hs
  cases h.start with
  | @held epoch later here _ =>
    cases later with
    | nil =>
      obtain rfl : epoch = origin := by simpa using hlast
      exact absurd (by rw [← here]; rfl) hne
    | cons next later => exact ⟨epoch, next, later, rfl⟩
  | @ahead epoch next later _ _ => exact ⟨epoch, next, later, rfl⟩

/-- The arithmetic of a call stays within its words. -/
def NoOverflow (cfg : RollupConfig) (parent : L2BlockInfo) : Prop :=
  parent.blockInfo.timestamp.toNat + cfg.blockTime.toNat < 2 ^ 64 ∧
    parent.l1Origin.number.toNat + 1 + cfg.seqWindowSize.toNat < 2 ^ 64

instance (cfg : RollupConfig) (parent : L2BlockInfo) : Decidable (NoOverflow cfg parent) :=
  inferInstanceAs (Decidable (_ ∧ _))

theorem NoOverflow.next_timestamp (h : NoOverflow cfg parent) :
    (parent.blockInfo.timestamp + cfg.blockTime).toNat =
      parent.blockInfo.timestamp.toNat + cfg.blockTime.toNat := by
  rw [BitVec.toNat_add, Nat.mod_eq_of_lt h.1]

theorem NoOverflow.next_origin (h : NoOverflow cfg parent) :
    (parent.l1Origin.number + 1).toNat = parent.l1Origin.number.toNat + 1 := by
  have hlt := h.2
  rw [BitVec.toNat_add, Nat.mod_eq_of_lt (by simp; omega)]
  rfl

theorem Start.first_number (h : Start cfg parent (epoch :: later)) :
    epoch.number.toNat = parent.l1Origin.number.toNat ∨
      epoch.number.toNat = parent.l1Origin.number.toNat + 1 := by
  cases h with
  | held here _ => exact Or.inl (by rw [← here]; rfl)
  | ahead here _ => exact Or.inr here.1

theorem Start.first_time (h : Start cfg parent (epoch :: later)) :
    epoch.timestamp.toNat ≤ parent.blockInfo.timestamp.toNat + cfg.blockTime.toNat := by
  cases h with
  | held _ time =>
    rw [BitVec.le_def] at time
    omega
  | ahead _ time => exact time

section

variable (hw : 2 ≤ cfg.seqWindowSize.toNat) (hov : NoOverflow cfg parent)
  (h : Aligned (Start cfg parent) ⟨some origin, epoch :: next :: later⟩)
include hw hov h

theorem removeFirst_aligned (hforced : epoch.number + cfg.seqWindowSize ≤ origin.number)
    (htime : next.timestamp ≤ parent.blockInfo.timestamp + cfg.blockTime)
    (hfirst : epoch.number ≠ parent.l1Origin.number + 1) :
    Aligned (Start cfg parent) ⟨some origin, next :: later⟩ := by
  obtain ⟨last, hs, hlast⟩ := h.last
  cases hs
  obtain ⟨hnext, htail⟩ := List.isChain_cons_cons.mp h.chained
  have hlast' : (next :: later).getLast? = some origin := by simpa using hlast
  refine ⟨htail, ⟨origin, rfl, hlast'⟩, ?_⟩
  cases h.start with
  | ahead here _ => exact absurd (BitVec.eq_of_toNat_eq (here.1.trans hov.next_origin.symm)) hfirst
  | held here _ =>
    have hnumber : epoch.number = parent.l1Origin.number := by rw [← here]; rfl
    have hexpiry : parent.l1Origin.number.toNat + cfg.seqWindowSize.toNat ≤
        origin.number.toNat := by
      have hlt := hov.2
      rw [hnumber, BitVec.le_def, BitVec.toNat_add, Nat.mod_eq_of_lt (by omega)] at hforced
      exact hforced
    have hsum := BlockInfo.number_add_length htail hlast'
    have hstep := hnext.1
    rw [hnumber] at hstep
    cases later with
    | nil =>
      simp only [List.length_nil] at hsum
      omega
    | cons third later =>
      refine .ahead ⟨hstep, ?_⟩ ?_
      · rw [hnext.2.1, ← here]
        rfl
      · rw [BitVec.le_def, hov.next_timestamp] at htime
        exact htime

theorem tryDeriveEmptyBatch_outcome :
    ∃ result s', tryDeriveEmptyBatch cfg parent ⟨some origin, epoch :: next :: later⟩ =
      some (result, s') ∧ Outcome cfg parent result s' := by
  unfold tryDeriveEmptyBatch
  simp only
  split
  · exact ⟨_, _, rfl, .failed rfl h⟩
  · rename_i hforced
    split
    · refine ⟨_, _, rfl, .yielded ⟨rfl, hov.next_timestamp, h.start.first_number,
        epoch, by simp, rfl, ?_⟩ h⟩
      rw [BitVec.le_def, hov.next_timestamp]
      exact h.start.first_time
    · rename_i hnot
      obtain ⟨htime, hfirst⟩ := not_or.mp hnot
      refine ⟨_, _, rfl, .failed rfl ?_⟩
      exact removeFirst_aligned hw hov h (not_not.mp hforced) (BitVec.not_lt.mp htime) hfirst

end

/-- The previous stage's batch does not skip an epoch: where the window starts after the
parent's origin already, the batch is not for the epoch after that. -/
def InOrder (parent : L2BlockInfo) (s : BatchValidator) (batch : SingleBatch) : Prop :=
  s.l1Blocks.head?.map (·.number) = some (parent.l1Origin.number + 1) →
    batch.epochNum ≠ parent.l1Origin.number + 2

theorem accepted_extends (hov : NoOverflow cfg parent) (hnext : epoch.Precedes next)
    (hstart : Start cfg parent (epoch :: next :: later))
    (hparent : batch.parentHash = parent.blockInfo.hash)
    (horder : parent.NextOrigin epoch → batch.epochNum ≠ parent.l1Origin.number + 2)
    (h : batch.checkBatch cfg (epoch :: next :: later) parent inclusion = .accept) :
    Extends cfg parent (epoch :: next :: later) batch := by
  obtain ⟨htime, _, block, hblock, hhash, hearly, _⟩ :=
    (SingleBatch.checks_ok hparent).mp ((BatchValidity.ofChecks_accept _).mp h)
  have hafter := BitVec.not_lt.mp hearly
  have htimestamp : batch.timestamp.toNat =
      parent.blockInfo.timestamp.toNat + cfg.blockTime.toNat := by rw [htime, hov.next_timestamp]
  rcases SingleBatch.batchOrigin_ok hblock with ⟨hnum, rfl⟩ | ⟨hnum, hhead⟩
  · refine ⟨hparent, htimestamp, ?_, block, by simp, ?_, hafter⟩
    · rw [hnum]
      exact hstart.first_number
    · rw [hnum, hhash]
      rfl
  · obtain rfl : next = block := Option.some.inj hhead
    refine ⟨hparent, htimestamp, Or.inr ?_, next, by simp, ?_, hafter⟩
    · cases hstart with
      | held here _ =>
        have hepoch : epoch.number = parent.l1Origin.number := by rw [← here]; rfl
        rw [hnum, hepoch, hov.next_origin]
      | ahead here _ =>
        -- the epoch two after the parent's
        have hepoch : epoch.number = parent.l1Origin.number + 1 :=
          BitVec.eq_of_toNat_eq (here.1.trans hov.next_origin.symm)
        refine absurd ?_ (horder here)
        rw [hnum, hepoch, BitVec.add_assoc]
        rfl
    · rw [hnum, ← hnext.number_eq, hhash]
      rfl

theorem forward_outcome
    (hov : NoOverflow cfg parent) (hholocene : cfg.isHoloceneActive inclusion.timestamp = true)
    (h : Aligned (Start cfg parent) ⟨some origin, epoch :: next :: later⟩)
    (hparent : batch.parentHash = parent.blockInfo.hash)
    (horder : parent.NextOrigin epoch → batch.epochNum ≠ parent.l1Origin.number + 2) :
    Outcome cfg parent (forward cfg parent (epoch :: next :: later) inclusion batch)
      ⟨some origin, epoch :: next :: later⟩ := by
  unfold forward
  cases hcheck : batch.checkBatch cfg (epoch :: next :: later) parent inclusion with
  | past => exact .failed rfl h
  | drop reason => exact .failed rfl h
  | undecided => exact .failed rfl h
  | future =>
    exact absurd ((BatchValidity.ofChecks_future _).mp hcheck)
      (SingleBatch.checks_ne_future hholocene)
  | accept =>
    have hnext := (List.isChain_cons_cons.mp h.chained).1
    exact .yielded (accepted_extends hov hnext h.start hparent horder hcheck) h

/-- The answers of a previous stage that works: single batches, and errors that do not
end derivation. -/
def Delivers : PipelineResult Batch → Bool
  | .ok (.single _) => true
  | .ok (.span _) => false
  | .error e => !e.isCritical

/-- The batch delivered, if any, is in order. -/
def Ordered (parent : L2BlockInfo) (s : BatchValidator) : PipelineResult Batch → Prop
  | .ok (.single batch) => InOrder parent s batch
  | _ => True

instance (parent : L2BlockInfo) (s : BatchValidator) (answer : PipelineResult Batch) :
    Decidable (Ordered parent s answer) :=
  match answer with
  | .ok (.single _) => inferInstanceAs (Decidable (_ → _ ≠ _))
  | .ok (.span _) => isTrue trivial
  | .error _ => isTrue trivial

theorem nextBatch_outcome (hw : 2 ≤ cfg.seqWindowSize.toNat) (hov : NoOverflow cfg parent)
    (hholocene : cfg.isHoloceneActive origin.timestamp = true) (h : Aligned (Late cfg parent) s)
    (hadv : Advances s.origin origin) (hdelivers : Delivers answer = true)
    (horder : Ordered parent s answer) :
    ∃ result s', s.nextBatch cfg parent (some origin) answer = some (result, s') ∧
      Outcome cfg parent result s' := by
  obtain ⟨⟨_, blocks⟩, hupdate, rfl, haligned, hhead⟩ := updateOrigins_aligned h hadv
  simp only [nextBatch, hupdate]
  split
  · cases answer with
    | ok batch => exact ⟨_, _, rfl, .failed rfl haligned⟩
    | error e => exact ⟨_, _, rfl, .failed (by simpa [Delivers] using hdelivers) haligned⟩
  · rename_i hnot
    obtain ⟨epoch, next, later, rfl⟩ := haligned.two_of_ahead (not_or.mp hnot).2
    have hfirst : ¬(parent.l1Origin ≠ epoch.id ∧ parent.l1Origin.number + 1 ≠ epoch.number) := by
      rintro ⟨hid, hnumber⟩
      cases haligned.start with
      | held here _ => exact hid here.symm
      | ahead here _ => exact hnumber (BitVec.eq_of_toNat_eq (hov.next_origin.trans here.1.symm))
    simp only [if_neg hfirst]
    cases answer with
    | error e =>
      simp only
      split
      · exact tryDeriveEmptyBatch_outcome hw hov haligned
      · exact ⟨_, _, rfl, .failed (by simpa [Delivers] using hdelivers) haligned⟩
    | ok batch =>
      cases batch with
      | span span => cases hdelivers
      | single batch =>
        refine ⟨_, _, rfl, forward_outcome hov hholocene haligned rfl ?_⟩
        intro hnext
        refine horder ?_
        rw [hhead epoch rfl hnext]
        exact congrArg some (BitVec.eq_of_toNat_eq (hnext.1.trans hov.next_origin.symm))

/-- A call of the stage: the origin of the previous stage and its answer, and the hash of
the block built where a batch is yielded. -/
structure Call where
  origin : BlockInfo
  answer : PipelineResult Batch
  hash : B256

/-- The stage and the block that its next batch is for. -/
structure Derivation where
  stage : BatchValidator
  parent : L2BlockInfo

namespace Derivation

/-- A batch that is yielded becomes the next parent. -/
def apply (cfg : RollupConfig) (call : Call) (d : Derivation) : Except Unit Derivation :=
  match d.stage.nextBatch cfg d.parent (some call.origin) call.answer with
  | none => .error ()
  | some (.ok batch, stage) => .ok ⟨stage, d.parent.child batch call.hash⟩
  | some (.error _, stage) => .ok ⟨stage, d.parent⟩

/-- What a call finds: a consistent L1 chain under Holocene, a previous stage that
works and delivers in order, and no overflow. -/
def Regular (cfg : RollupConfig) (call : Call) (d : Derivation) : Prop :=
  Advances d.stage.origin call.origin ∧ cfg.isHoloceneActive call.origin.timestamp = true ∧
    Delivers call.answer = true ∧ NoOverflow cfg d.parent ∧
    Ordered d.parent d.stage call.answer

instance (cfg : RollupConfig) (call : Call) (d : Derivation) : Decidable (Regular cfg call d) :=
  inferInstanceAs (Decidable (_ ∧ _ ∧ _ ∧ _ ∧ _))

/-- The stage reset at the L1 origin of the safe head. -/
def atReset (origin : BlockInfo) (safeHead : L2BlockInfo) : Derivation :=
  ⟨.reset (some origin), safeHead⟩

theorem aligned_reachable (hw : 2 ≤ cfg.seqWindowSize.toNat) (hat : origin.id = safeHead.l1Origin)
    (htime : origin.timestamp ≤ safeHead.blockInfo.timestamp)
    (h : Reachable (apply cfg) (Regular cfg) (atReset origin safeHead) d) :
    Aligned (Late cfg d.parent) d.stage := by
  refine Reachable.invariant (P := fun d => Aligned (Late cfg d.parent) d.stage) h ?_ ?_
  · exact ⟨List.isChain_singleton _, ⟨origin, rfl, rfl⟩, .settled (.held hat htime)⟩
  · intro call d d' hcall haligned happly
    obtain ⟨hadv, hholocene, hdelivers, hov, horder⟩ := hcall
    obtain ⟨result, stage, hnext, houtcome⟩ :=
      nextBatch_outcome hw hov hholocene haligned hadv hdelivers horder
    simp only [apply, hnext] at happly
    cases houtcome with
    | failed _ aligned =>
      cases happly
      exact ⟨aligned.chained, aligned.last, .settled aligned.start⟩
    | yielded next aligned =>
      cases happly
      exact next.aligned aligned call.hash

/-- Every call of a regular run after a reset at the origin of the safe head returns, is
no critical error, leaves the window of its parent in place, and yields nothing but the
next block of the chain. -/
theorem validator_output_is_chain {origin : BlockInfo} {safeHead : L2BlockInfo} {d : Derivation}
    (hw : 2 ≤ cfg.seqWindowSize.toNat) (hat : origin.id = safeHead.l1Origin)
    (htime : origin.timestamp ≤ safeHead.blockInfo.timestamp)
    (h : Reachable (apply cfg) (Regular cfg) (atReset origin safeHead) d) {call : Call}
    (hcall : Regular cfg call d) :
    ∃ result stage,
      d.stage.nextBatch cfg d.parent (some call.origin) call.answer = some (result, stage) ∧
      Window d.parent stage ∧ (∀ e, result = .error e → e.isCritical = false) ∧
      ∀ batch, result = .ok batch → Extends cfg d.parent stage.l1Blocks batch := by
  have haligned := aligned_reachable hw hat htime h
  obtain ⟨hadv, hholocene, hdelivers, hov, horder⟩ := hcall
  obtain ⟨result, stage, hnext, houtcome⟩ :=
    nextBatch_outcome hw hov hholocene haligned hadv hdelivers horder
  refine ⟨result, stage, hnext, ?_⟩
  cases houtcome with
  | failed mild aligned =>
    refine ⟨aligned.window, ?_, by simp⟩
    intro e he
    obtain rfl := Except.error.inj he
    exact mild
  | yielded next aligned =>
    refine ⟨aligned.window, by simp, ?_⟩
    intro batch hbatch
    cases hbatch
    exact next

def shortWindow : RollupConfig := { BatchStream.holoceneRollup with seqWindowSize := 2 }

def l1Block (n : Nat) : BlockInfo :=
  ⟨BitVec.ofNat 256 (n + 1), BitVec.ofNat 64 n, BitVec.ofNat 256 n, BitVec.ofNat 64 n⟩

/-- A safe head in the epoch of L1 block 0, ahead of the time of the L1 blocks. -/
def aheadOfL1 : L2BlockInfo := ⟨⟨0xab, 5, 0xaa, 10⟩, (l1Block 0).id, 5⟩

def noBatchAt (n : Nat) : Call := ⟨l1Block n, .error PipelineError.eof.temp, 0⟩

/-- The window of block 0 passes without a batch. -/
def afterWindow : Derivation :=
  run (apply shortWindow) (atReset (l1Block 0) aheadOfL1) [noBatchAt 1, noBatchAt 2]

/-- Without another batch the next block is the first of epoch 1. -/
theorem validator_output_after_window :
    ∃ stage, afterWindow.stage.nextBatch shortWindow afterWindow.parent (some (l1Block 3))
        (.error PipelineError.eof.temp) = some (.ok ⟨0xab, 1, 2, 12, []⟩, stage) ∧
      Extends shortWindow aheadOfL1 stage.l1Blocks ⟨0xab, 1, 2, 12, []⟩ := by
  have hreach : Reachable (apply shortWindow) (Regular shortWindow)
      (atReset (l1Block 0) aheadOfL1) afterWindow := Reachable.start.admissible (by decide +kernel)
  have hregular : Regular shortWindow (noBatchAt 3) afterWindow := by decide +kernel
  obtain ⟨result, stage, hnext, _, _, hbatch⟩ :=
    validator_output_is_chain (by decide) rfl (by decide) hreach hregular
  have hresult : result = .ok ⟨0xab, 1, 2, 12, []⟩ := by
    have hvalue : afterWindow.stage.nextBatch shortWindow afterWindow.parent (some (l1Block 3))
        (.error PipelineError.eof.temp) = some (.ok ⟨0xab, 1, 2, 12, []⟩,
          ⟨some (l1Block 3), [l1Block 1, l1Block 2, l1Block 3]⟩) := by decide +kernel
    have heq := hnext.symm.trans hvalue
    exact (Prod.mk.inj (Option.some.inj heq)).1
  rw [hresult] at hnext
  exact ⟨stage, hnext, hbatch _ hresult⟩

/-- But a batch for epoch 2 is accepted there, and epoch 1 is left without a block. -/
theorem validator_skips_an_epoch :
    Admissible (apply shortWindow) (Regular shortWindow) (atReset (l1Block 0) aheadOfL1)
        [noBatchAt 1, noBatchAt 2] ∧
      afterWindow.parent.l1Origin.number = 0 ∧
      afterWindow.stage.nextBatch shortWindow afterWindow.parent (some (l1Block 3))
        (.ok (.single ⟨0, 2, 3, 12, []⟩)) = some (.ok ⟨0xab, 2, 3, 12, []⟩,
          ⟨some (l1Block 3), [l1Block 1, l1Block 2, l1Block 3]⟩) := by
  decide +kernel

end Derivation
end BatchValidator
end SciChain.Derive
