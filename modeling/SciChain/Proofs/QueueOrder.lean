import SciChain.Derive.BatchQueue

namespace SciChain.Derive.BatchQueue
open Library

/-- A verdict after which the pass goes on. -/
def Passed (verdict : BatchValidity) : Prop := verdict = .future ∨ ∃ reason, verdict = .drop reason

/-- The batches examined, from position `i` on, that may fit a later parent. -/
def futures (verdicts : Verdicts) (i : Nat) (examined : List BatchWithInclusionBlock) :
    List BatchWithInclusionBlock :=
  ((examined.zipIdx i).filter fun p => verdicts p.2 p.1 = .future).map (·.1)

section Scan

variable {verdicts : Verdicts} {i : Nat} {batch : BatchWithInclusionBlock}
  {examined : List BatchWithInclusionBlock}

theorem futures_cons : futures verdicts i (batch :: examined) =
    (if verdicts i batch = .future then [batch] else []) ++ futures verdicts (i + 1) examined := by
  unfold futures
  rw [List.zipIdx_cons, List.filter_cons]
  by_cases h : verdicts i batch = .future
  · rw [if_pos (decide_eq_true h), if_pos h, List.map_cons, List.singleton_append]
  · rw [if_neg (by simpa using h), if_neg h, List.nil_append]

/-- What a pass before Holocene leaves, by where it ends. -/
inductive ScanEnds (verdicts : Verdicts) (i : Nat) (examined : List BatchWithInclusionBlock) :
    List BatchWithInclusionBlock → Scan → List BatchWithInclusionBlock → Prop
  | exhausted : ScanEnds verdicts i examined [] .exhausted (futures verdicts i examined)
  | accepted {batch rest} (h : verdicts (i + examined.length) batch = .accept) :
      ScanEnds verdicts i examined (batch :: rest) (.accepted batch.batch)
        (futures verdicts i examined ++ rest)
  | undecided {batch rest} (h : verdicts (i + examined.length) batch = .undecided) :
      ScanEnds verdicts i examined (batch :: rest) .undecided
        (futures verdicts i examined ++ batch :: rest)
  | invalid {batch rest remaining} (h : verdicts (i + examined.length) batch = .past) :
      ScanEnds verdicts i examined (batch :: rest) .invalid remaining

theorem ScanEnds.cons (h : ScanEnds verdicts (i + 1) examined suffix found remaining)
    (batch : BatchWithInclusionBlock) :
    ScanEnds verdicts i (batch :: examined) suffix found
      ((if verdicts i batch = .future then [batch] else []) ++ remaining) := by
  have hlen : i + (batch :: examined).length = i + 1 + examined.length := by
    rw [List.length_cons]
    omega
  cases h with
  | exhausted =>
    rw [← futures_cons]
    exact .exhausted
  | accepted h =>
    rw [← List.append_assoc, ← futures_cons]
    exact .accepted (by rwa [hlen])
  | undecided h =>
    rw [← List.append_assoc, ← futures_cons]
    exact .undecided (by rwa [hlen])
  | invalid h => exact .invalid (by rwa [hlen])

/-- A pass examines batches that are future or dropped until it ends. -/
theorem scan_ends (verdicts : Verdicts) (i : Nat) (queue : List BatchWithInclusionBlock) :
    ∃ examined suffix, queue = examined ++ suffix ∧
      (∀ p ∈ examined.zipIdx i, Passed (verdicts p.2 p.1)) ∧
      ScanEnds verdicts i examined suffix (scan false verdicts i queue).1
        (scan false verdicts i queue).2.1 := by
  induction queue generalizing i with
  | nil => exact ⟨[], [], rfl, by simp, .exhausted⟩
  | cons batch rest ih =>
    obtain ⟨examined, suffix, rfl, hpassed, hends⟩ := ih (i + 1)
    have hmore : Passed (verdicts i batch) →
        ∀ p ∈ (batch :: examined).zipIdx i, Passed (verdicts p.2 p.1) := by
      intro hbatch p hp
      rw [List.zipIdx_cons] at hp
      rcases List.mem_cons.mp hp with rfl | hp
      · exact hbatch
      · exact hpassed p hp
    have hends := hends.cons batch
    rw [scan]
    cases hverdict : verdicts i batch with
    | future =>
      rw [hverdict, if_pos rfl] at hends
      exact ⟨batch :: examined, suffix, rfl, hmore (Or.inl hverdict), hends⟩
    | drop reason =>
      rw [hverdict, if_neg (by simp)] at hends
      exact ⟨batch :: examined, suffix, rfl, hmore (Or.inr ⟨reason, hverdict⟩), hends⟩
    | accept => exact ⟨[], _, rfl, by simp, .accepted hverdict⟩
    | undecided => exact ⟨[], _, rfl, by simp, .undecided hverdict⟩
    | past => exact ⟨[], _, rfl, by simp, .invalid hverdict⟩

end Scan

section Derive

variable {cfg : RollupConfig} {empty : Bool} {parent : L2BlockInfo} {verdicts : Verdicts}
  {s : BatchQueue} {epoch origin : BlockInfo} {later : List BlockInfo}

/-- The sequencing window of an epoch is over at an L1 origin. -/
def WindowExpired (cfg : RollupConfig) (epoch origin : BlockInfo) : Prop :=
  epoch.number.toNat + cfg.seqWindowSize.toNat ≤ origin.number.toNat

theorem forceEmpty_eq (cfg : RollupConfig) (empty : Bool) (parent : L2BlockInfo)
    (origin epoch : BlockInfo) (later : List BlockInfo) (s : BatchQueue) :
    ∃ result s', forceEmpty cfg empty parent origin epoch later s = (result, s') ∧
      s'.batches = s.batches ∧ s'.nextSpans = s.nextSpans ∧
      (result = .error PipelineError.eof.temp ∨
        result = .ok (.single ⟨parent.blockInfo.hash, epoch.number, epoch.hash,
          parent.blockInfo.timestamp + cfg.blockTime, []⟩) ∧
        (WindowExpired cfg epoch origin ↔
          epoch.number.toNat + cfg.seqWindowSize.toNat < 2 ^ 64)) := by
  unfold forceEmpty
  dsimp only
  split
  · exact ⟨_, _, rfl, rfl, rfl, Or.inl rfl⟩
  · rename_i hforce
    have hforce := Decidable.not_not.mp hforce
    have hle : (epoch.number + cfg.seqWindowSize).toNat ≤ origin.number.toNat := by
      rcases hforce with ⟨heq, -⟩ | hlt
      · rw [heq]
      · exact Nat.le_of_lt (BitVec.lt_def.mp hlt)
    have hexpired : WindowExpired cfg epoch origin ↔
        epoch.number.toNat + cfg.seqWindowSize.toNat < 2 ^ 64 := by
      rw [BitVec.toNat_add] at hle
      unfold WindowExpired
      constructor
      · omega
      · intro hlt
        rwa [Nat.mod_eq_of_lt hlt] at hle
    cases later with
    | nil => exact ⟨_, _, rfl, rfl, rfl, Or.inl rfl⟩
    | cons nextEpoch later =>
      dsimp only
      split
      · exact ⟨_, _, rfl, rfl, rfl, Or.inr ⟨rfl, hexpired⟩⟩
      · exact ⟨_, _, rfl, rfl, rfl, Or.inl rfl⟩

/-- The result of a derivation before Holocene and the queue it leaves. The batches examined first
are future or dropped. The pass ends with them, and there may be an empty batch, or at a batch that
is accepted or undecided; what is left is what was future, the undecided batch and what was not
examined, in order. An outdated batch, which no check finds before Holocene, is a critical error. -/
def DerivedInOrder (cfg : RollupConfig) (parent : L2BlockInfo) (verdicts : Verdicts)
    (epoch origin : BlockInfo) (queue : List BatchWithInclusionBlock)
    (result : PipelineResult Batch) (left : List BatchWithInclusionBlock) : Prop :=
  ∃ examined suffix, queue = examined ++ suffix ∧
    (∀ p ∈ examined.zipIdx, Passed (verdicts p.2 p.1)) ∧
    (suffix = [] ∧ left = futures verdicts 0 examined ∧
      (result = .error PipelineError.eof.temp ∨
        result = .ok (.single ⟨parent.blockInfo.hash, epoch.number, epoch.hash,
          parent.blockInfo.timestamp + cfg.blockTime, []⟩) ∧
        (WindowExpired cfg epoch origin ↔
          epoch.number.toNat + cfg.seqWindowSize.toNat < 2 ^ 64)) ∨
    ∃ batch rest, suffix = batch :: rest ∧
      (verdicts examined.length batch = .accept ∧ result = .ok batch.batch ∧
          left = futures verdicts 0 examined ++ rest ∨
        verdicts examined.length batch = .undecided ∧ result = .error PipelineError.eof.temp ∧
          left = futures verdicts 0 examined ++ batch :: rest ∨
        verdicts examined.length batch = .past ∧
          result = .error PipelineError.invalidBatchValidity.crit ∧ left = queue))

theorem deriveNextBatch_inOrder (empty : Bool) (verdicts : Verdicts)
    (hwindow : s.l1Blocks = epoch :: later) (horigin : s.origin = some origin)
    (hparent : parentMatches parent epoch = true)
    (hholocene : cfg.isHoloceneActive origin.timestamp = false) :
    ∃ result s', s.deriveNextBatch cfg empty parent verdicts = (result, s') ∧
      DerivedInOrder cfg parent verdicts epoch origin s.batches result s'.batches := by
  obtain ⟨examined, suffix, hqueue, hpassed, hends⟩ := scan_ends verdicts 0 s.batches
  unfold deriveNextBatch
  rw [hwindow]
  dsimp only
  rw [if_neg (by simp [hparent]), horigin]
  dsimp only
  rw [hholocene]
  generalize scan false verdicts 0 s.batches = scanned at *
  obtain ⟨found, remaining, flushes⟩ := scanned
  cases hends with
  | exhausted =>
    obtain ⟨result, s', hforce, hbatches, -, hresult⟩ := forceEmpty_eq cfg empty parent origin
      epoch later ⟨some origin, epoch :: later, futures verdicts 0 examined, s.nextSpans,
        s.flushes + flushes⟩
    exact ⟨result, s', hforce, examined, [], hqueue, hpassed, Or.inl ⟨rfl, hbatches, hresult⟩⟩
  | accepted h =>
    rw [Nat.zero_add] at h
    exact ⟨_, _, rfl, examined, _, hqueue, hpassed, Or.inr ⟨_, _, rfl, Or.inl ⟨h, rfl, rfl⟩⟩⟩
  | undecided h =>
    rw [Nat.zero_add] at h
    exact ⟨_, _, rfl, examined, _, hqueue, hpassed,
      Or.inr ⟨_, _, rfl, Or.inr (Or.inl ⟨h, rfl, rfl⟩)⟩⟩
  | invalid h =>
    rw [Nat.zero_add] at h
    exact ⟨_, _, rfl, examined, _, hqueue, hpassed,
      Or.inr ⟨_, _, rfl, Or.inr (Or.inr ⟨h, rfl, rfl⟩)⟩⟩

/-- Without a window, an origin or a parent that fits, nothing happens. -/
theorem deriveNextBatch_refused (cfg : RollupConfig) (empty : Bool) (verdicts : Verdicts)
    (h : s.l1Blocks = [] ∨ s.origin = none ∨
      ∃ epoch later, s.l1Blocks = epoch :: later ∧ parentMatches parent epoch = false) :
    ∃ e, s.deriveNextBatch cfg empty parent verdicts = (.error e, s) := by
  unfold deriveNextBatch
  cases hwindow : s.l1Blocks with
  | nil => exact ⟨_, rfl⟩
  | cons epoch later =>
    dsimp only
    split
    · exact ⟨_, rfl⟩
    · rename_i hparent
      rw [hwindow] at h
      rcases h with h | h | ⟨epoch', later', h, hbad⟩
      · cases h
      · rw [h]
        exact ⟨_, rfl⟩
      · cases h
        exact absurd hbad (by simpa using hparent)

theorem deriveNextBatch_nextSpans (cfg : RollupConfig) (empty : Bool) (parent : L2BlockInfo)
    (verdicts : Verdicts) (s : BatchQueue) :
    (s.deriveNextBatch cfg empty parent verdicts).2.nextSpans = s.nextSpans := by
  unfold deriveNextBatch
  cases s.l1Blocks with
  | nil => rfl
  | cons epoch later =>
    dsimp only
    split
    · rfl
    · cases s.origin with
      | none => rfl
      | some origin =>
        dsimp only
        generalize scan (cfg.isHoloceneActive origin.timestamp) verdicts 0 s.batches = scanned
        obtain ⟨found, remaining, flushes⟩ := scanned
        cases found with
        | accepted batch => rfl
        | undecided => rfl
        | invalid => rfl
        | exhausted =>
          obtain ⟨result, s', hforce, -, hspans, -⟩ := forceEmpty_eq cfg empty parent origin epoch
            later ⟨some origin, epoch :: later, remaining, s.nextSpans, s.flushes + flushes⟩
          dsimp only
          rw [hforce]
          exact hspans

end Derive

section Cached

variable {cfg : RollupConfig} {call : QueueCall} {s s' : BatchQueue}

/-- The block of a span as it is handed out. -/
def handOut (parent : L2BlockInfo) (next : SingleBatch) : SingleBatch :=
  { next with parentHash := parent.blockInfo.hash }

theorem nextBatch_cached (hspans : s.nextSpans = next :: rest)
    (hfits : next.timestamp = call.parent.blockInfo.timestamp + cfg.blockTime) :
    s.nextBatch cfg call = some (.ok (handOut call.parent next), { s with nextSpans := rest }) := by
  unfold nextBatch popNextBatch
  rw [hspans]
  dsimp only
  rw [if_pos hfits]
  rfl

theorem nextBatch_discards (hspans : s.nextSpans = next :: rest)
    (hfits : next.timestamp ≠ call.parent.blockInfo.timestamp + cfg.blockTime) :
    s.nextBatch cfg call = { s with nextSpans := [] }.nextBatch cfg call := by
  unfold nextBatch
  rw [hspans]
  dsimp only
  rw [if_neg hfits]

theorem nextBatches_cached (hspans : s.nextSpans = handed ++ rest)
    (hfits : List.Forall₂ (fun call next =>
      next.timestamp = call.parent.blockInfo.timestamp + cfg.blockTime) calls handed) :
    s.nextBatches cfg calls = some (List.zipWith (fun call next =>
      .ok (handOut call.parent next)) calls handed, { s with nextSpans := rest }) := by
  induction hfits generalizing s with
  | nil =>
    rw [nextBatches, List.zipWith_nil_left]
    rw [List.nil_append] at hspans
    rw [← hspans]
  | cons hfirst hfits ih =>
    rw [nextBatches, nextBatch_cached hspans hfirst, Option.bind_some, ih rfl]
    rfl

/-- A derived span is handed out block by block, its first block at once. -/
def Refilled (cfg : RollupConfig) (call : QueueCall)
    (result : Except BatchQueueError SingleBatch) (s' : BatchQueue) : Prop :=
  s'.nextSpans = [] ∨ ∃ (queue : BatchQueue) (outOfData : Bool) (span : SpanBatch)
    (next : SingleBatch) (rest : List SingleBatch),
    (queue.deriveNextBatch cfg outOfData call.parent call.verdicts).1 = .ok (.span span) ∧
    span.getSingularBatches s'.l1Blocks call.parent = .ok (next :: rest) ∧
    result = .ok (handOut call.parent next) ∧ s'.nextSpans = rest

theorem derive_refilled (hspans : s.nextSpans = [])
    (h : s.derive cfg call outOfData = some (result, s')) : Refilled cfg call result s' := by
  have hkept := deriveNextBatch_nextSpans cfg outOfData call.parent call.verdicts s
  unfold derive at h
  split at h
  · obtain ⟨-, rfl⟩ := Prod.mk.inj (Option.some.inj h)
    exact Or.inl hspans
  · rcases hderive : s.deriveNextBatch cfg outOfData call.parent call.verdicts with ⟨found, s₁⟩
    rw [hderive] at h hkept
    rw [hspans] at hkept
    cases found with
    | error e =>
      dsimp only at h hkept
      split at h
      · obtain ⟨-, rfl⟩ := Prod.mk.inj (Option.some.inj h)
        exact Or.inl hkept
      · obtain ⟨-, rfl⟩ := Prod.mk.inj (Option.some.inj h)
        exact Or.inl hkept
    | ok batch =>
      cases batch with
      | single batch =>
        obtain ⟨-, rfl⟩ := Prod.mk.inj (Option.some.inj h)
        exact Or.inl hkept
      | span span =>
        dsimp only [unpack] at h hkept
        cases hsingles : span.getSingularBatches s₁.l1Blocks call.parent with
        | error e =>
          rw [hsingles] at h
          obtain ⟨-, rfl⟩ := Prod.mk.inj (Option.some.inj h)
          exact Or.inl hkept
        | ok batches =>
          rw [hsingles] at h
          cases batches with
          | nil => cases h
          | cons next rest =>
            cases h
            exact Or.inr ⟨s, outOfData, span, next, rest, by rw [hderive], hsingles, rfl, rfl⟩

theorem addBatch_nextSpans (h : s.addBatch cfg batch added = some s') :
    s'.nextSpans = s.nextSpans := by
  unfold addBatch at h
  split at h
  · cases h
  · rw [← Option.some.inj h]
  · cases added with
    | future =>
      dsimp only at h
      split at h
      · rw [← Option.some.inj h]
      · rw [← Option.some.inj h]
    | drop reason => rw [← Option.some.inj h]
    | past => rw [← Option.some.inj h]
    | accept => rw [← Option.some.inj h]
    | undecided => rw [← Option.some.inj h]

theorem nextBatch_refilled (hspans : s.nextSpans = [])
    (h : s.nextBatch cfg call = some (result, s')) : Refilled cfg call result s' := by
  have hupdated : (s.updateOrigins call).nextSpans = [] := hspans
  unfold nextBatch at h
  rw [hspans] at h
  dsimp only [loadAndDerive] at h
  cases hprev : call.prevBatch with
  | ok batch =>
    rw [hprev] at h
    dsimp only at h
    split at h
    · exact derive_refilled hupdated h
    · obtain ⟨s₁, hadd, h⟩ := Option.bind_eq_some_iff.mp h
      exact derive_refilled ((addBatch_nextSpans hadd).trans hupdated) h
  | error e =>
    rw [hprev] at h
    dsimp only at h
    split at h
    · exact derive_refilled hupdated h
    · obtain ⟨-, rfl⟩ := Prod.mk.inj (Option.some.inj h)
      exact Or.inl hupdated

end Cached
/-- The queue before Holocene keeps the order in which batches were seen. A derivation whose
window, origin and parent fit returns and keeps what `DerivedInOrder` says, and any other changes
nothing. The blocks of a cached span are handed out one by one on top of the parents they fit, all
of them are discarded at a parent that the first does not fit, and a span that is derived anew
fills the cache. -/
theorem queue_in_order (cfg : RollupConfig) (s : BatchQueue) :
    (∀ (empty : Bool) (parent : L2BlockInfo) (verdicts : Verdicts) (epoch origin : BlockInfo)
      (later : List BlockInfo), s.l1Blocks = epoch :: later → s.origin = some origin →
      parentMatches parent epoch = true → cfg.isHoloceneActive origin.timestamp = false →
      ∃ result s', s.deriveNextBatch cfg empty parent verdicts = (result, s') ∧
        DerivedInOrder cfg parent verdicts epoch origin s.batches result s'.batches) ∧
    (∀ (empty : Bool) (parent : L2BlockInfo) (verdicts : Verdicts),
      (s.l1Blocks = [] ∨ s.origin = none ∨
        ∃ epoch later, s.l1Blocks = epoch :: later ∧ parentMatches parent epoch = false) →
      ∃ e, s.deriveNextBatch cfg empty parent verdicts = (.error e, s)) ∧
    (∀ (calls : List QueueCall) (handed rest : List SingleBatch),
      s.nextSpans = handed ++ rest →
      List.Forall₂ (fun call next =>
        next.timestamp = call.parent.blockInfo.timestamp + cfg.blockTime) calls handed →
      s.nextBatches cfg calls = some (List.zipWith (fun call next =>
        .ok (handOut call.parent next)) calls handed, { s with nextSpans := rest })) ∧
    (∀ (call : QueueCall) (next : SingleBatch) (rest : List SingleBatch),
      s.nextSpans = next :: rest →
      next.timestamp ≠ call.parent.blockInfo.timestamp + cfg.blockTime →
      s.nextBatch cfg call = { s with nextSpans := [] }.nextBatch cfg call) ∧
    ∀ (call : QueueCall) (result : Except BatchQueueError SingleBatch) (s' : BatchQueue),
      s.nextSpans = [] → s.nextBatch cfg call = some (result, s') →
      Refilled cfg call result s' :=
  ⟨fun empty _ verdicts _ _ _ hwindow horigin hparent hholocene =>
      deriveNextBatch_inOrder empty verdicts hwindow horigin hparent hholocene,
    fun empty _ verdicts h => deriveNextBatch_refused cfg empty verdicts h,
    fun _ _ _ hspans hfits => nextBatches_cached hspans hfits,
    fun _ _ _ hspans hfits => nextBatch_discards hspans hfits,
    fun _ _ _ hspans h => nextBatch_refilled hspans h⟩

def plainConfig (seqWindowSize : U64) : RollupConfig :=
  { RollupConfig.withUpgrades ⟨none, none, none, none, none, none, none, none⟩ with seqWindowSize }

def l1Block (number : U64) : BlockInfo := ⟨number.setWidth 256, number, 0, number * 12⟩

/-- A safe head with the origin 100. -/
def safeHead : L2BlockInfo := ⟨⟨7, 50, 6, 1200⟩, ⟨100, 100⟩, 0⟩

def emptyBatch (timestamp : U64) : BatchWithInclusionBlock :=
  ⟨l1Block 101, .single ⟨7, 100, 100, timestamp, []⟩⟩

/-- A batch of the next block behind one of a later block, which stays in front of a third. -/
theorem queue_in_order_future_first :
    ∃ result s', deriveNextBatch (plainConfig 3600) false safeHead
      (fun i _ => if i = 0 then .future else .accept)
      ⟨some (l1Block 101), [l1Block 100, l1Block 101],
        [emptyBatch 1204, emptyBatch 1202, emptyBatch 1206], [], 0⟩ = (result, s') ∧
      DerivedInOrder (plainConfig 3600) safeHead (fun i _ => if i = 0 then .future else .accept)
        (l1Block 100) (l1Block 101) [emptyBatch 1204, emptyBatch 1202, emptyBatch 1206]
        result s'.batches ∧
      result = .ok (.single ⟨7, 100, 100, 1202, []⟩) ∧
      s'.batches = [emptyBatch 1204, emptyBatch 1206] := by
  obtain ⟨result, s', hderive, horder⟩ := (queue_in_order (plainConfig 3600)
    ⟨some (l1Block 101), [l1Block 100, l1Block 101],
      [emptyBatch 1204, emptyBatch 1202, emptyBatch 1206], [], 0⟩).1 false safeHead
    (fun i _ => if i = 0 then .future else .accept) (l1Block 100) (l1Block 101) [l1Block 101]
    rfl rfl (by decide) (by decide)
  refine ⟨result, s', hderive, horder, ?_, ?_⟩
  · exact (congrArg Prod.fst hderive).symm
  · exact (congrArg (·.2.batches) hderive).symm

/-- With a window of the largest size an empty batch is forced one L1 block after its epoch. -/
theorem empty_batch_too_early :
    (deriveNextBatch (plainConfig 0xFFFFFFFFFFFFFFFF) false safeHead (fun _ _ => .accept)
      ⟨some (l1Block 101), [l1Block 100, l1Block 101], [], [], 0⟩).1 =
        .ok (.single ⟨7, 100, 100, 1202, []⟩) ∧
    ¬WindowExpired (plainConfig 0xFFFFFFFFFFFFFFFF) (l1Block 100) (l1Block 101) := by
  refine ⟨by decide, ?_⟩
  unfold WindowExpired
  decide

end SciChain.Derive.BatchQueue
