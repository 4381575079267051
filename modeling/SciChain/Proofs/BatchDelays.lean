import SciChain.Derive.BatchStream

namespace SciChain.Derive
open Library

/-- The batches still to be delivered. -/
def ChannelReader.pending (reader : ChannelReader) : List Batch :=
  reader.nextBatches.getD [] ++ reader.channels.flatten

theorem ChannelReader.pending_nextBatch {reader : ChannelReader}
    (h : reader.nextBatch = (.ok batch, reader')) : reader.pending = batch :: reader'.pending := by
  have hread : ∀ (batches : List Batch) (channels : List (List Batch)),
      readBatch batches channels = (.ok batch, reader') →
      batches ++ channels.flatten = batch :: reader'.pending := by
    intro batches channels hb
    cases batches with
    | nil =>
      obtain ⟨he, _⟩ := Prod.mk.inj hb
      cases he
    | cons first rest =>
      obtain ⟨he, rfl⟩ := Prod.mk.inj hb
      cases he
      rfl
  obtain ⟨nextBatches, channels⟩ := reader
  cases nextBatches with
  | some batches => exact hread batches channels h
  | none =>
    cases channels with
    | cons batches channels => exact hread batches channels h
    | nil =>
      obtain ⟨he, _⟩ := Prod.mk.inj h
      cases he

namespace BatchStream

variable {cfg : RollupConfig} {s : BatchStream} {call : BatchCall}

/-- The call takes a span batch from the reader and cannot decide its check: L1 blocks
are missing, or the L2 chain does not answer. -/
def undecided (cfg : RollupConfig) (call : BatchCall) (s : BatchStream) : Bool :=
  match call.origin, s.buffer, s.prev.nextBatch with
  | some origin, [], (.ok (.span span), _) =>
    cfg.isHoloceneActive origin.timestamp &&
      span.checkBatchPrefix cfg call.l1Origins call.parent origin call.fetcher =
        .error (.verdict .undecided)
  | _, _, _ => false

/-- The stage after a call; the check of a prefix has no panic to end it. -/
def after (cfg : RollupConfig) (s : BatchStream) (call : BatchCall) : BatchStream :=
  match s.nextBatch cfg call with
  | some (_, s) => s
  | none => s

def afterAll (cfg : RollupConfig) (s : BatchStream) (calls : List BatchCall) : BatchStream :=
  calls.foldl (after cfg) s

/-- The batches that a sequence of calls yields. -/
def yields (cfg : RollupConfig) : BatchStream → List BatchCall → List Batch
  | _, [] => []
  | s, call :: calls =>
    match s.nextBatch cfg call with
    | some (.ok batch, s) => batch :: yields cfg s calls
    | some (.error _, s) => yields cfg s calls
    | none => []

/-- The calls that are left when each check is decidable the first time it is made:
without those that only wait for it. -/
def prompt (cfg : RollupConfig) : BatchStream → List BatchCall → List BatchCall
  | _, [] => []
  | s, call :: calls =>
    if undecided cfg call s then prompt cfg s calls
    else call :: prompt cfg (after cfg s call) calls

/-- What a call finds where it cannot decide. -/
theorem undecided_eq_true (h : undecided cfg call s = true) :
    ∃ origin span prev, call.origin = some origin ∧ s.buffer = [] ∧
      s.prev.nextBatch = (.ok (.span span), prev) ∧
      cfg.isHoloceneActive origin.timestamp = true ∧
      span.checkBatchPrefix cfg call.l1Origins call.parent origin call.fetcher =
        .error (.verdict .undecided) := by
  unfold undecided at h
  split at h
  · rename_i origin span prev ho hb hp
    simp only [Bool.and_eq_true, decide_eq_true_eq] at h
    exact ⟨origin, span, prev, ho, hb, hp, h⟩
  · cases h

/-- Such a call loses the span batch: nothing else changes, and nothing is yielded. -/
theorem nextBatch_undecided (h : undecided cfg call s = true) :
    ∃ span prev, s.prev.pending = .span span :: prev.pending ∧
      s.nextBatch cfg call = some (.error PipelineError.notEnoughData.temp, { s with prev }) := by
  obtain ⟨origin, span, prev, ho, hb, hp, hholocene, hcheck⟩ := undecided_eq_true h
  refine ⟨span, prev, ChannelReader.pending_nextBatch hp, ?_⟩
  simp [nextBatch, ho, hholocene, hb, hp, receiveSpan, hcheck]

theorem after_undecided (h : undecided cfg call s = true) : after cfg s call ≠ s := by
  obtain ⟨span, prev, hpending, hnext⟩ := nextBatch_undecided h
  intro heq
  simp only [after, hnext] at heq
  have hprev : prev = s.prev := congrArg BatchStream.prev heq
  rw [hprev] at hpending
  have hlen := congrArg List.length hpending
  simp at hlen

section Answers

/-- The verdict of a check that lacks data. -/
abbrev waits : SpanStop := .verdict .undecided

theorem deltaOrigin_ne_waits (h : start = epoch.number + 1 → later ≠ []) :
    SpanBatch.deltaOrigin start epoch later ≠ .error waits := by
  unfold SpanBatch.deltaOrigin
  split
  · rename_i heager
    cases later with
    | nil => exact absurd rfl (h heager)
    | cons next later => simp
  · simp

/-- The number of the block that an overlapping span extends. -/
def parentNumber (cfg : RollupConfig) (head : BlockInfo) (start : U64) : U64 :=
  head.number - (head.timestamp - start) / cfg.blockTime - 1

theorem parentOf_ne_waits (h : start < head.blockInfo.timestamp + cfg.blockTime →
      fetcher.l2BlockInfoByNumber (parentNumber cfg head.blockInfo start) ≠ none) :
    SpanBatch.parentOf cfg fetcher head start ≠ .error waits := by
  unfold SpanBatch.parentOf
  simp only
  split
  · rename_i hold
    refine bind_ne_error (reject_ne_error (by simp [spanDrop])) fun _ => ?_
    refine bind_ne_error (reject_ne_error (by simp [spanDrop])) fun _ => ?_
    split
    · rename_i hnone
      exact absurd hnone (h hold)
    · simp
  · simp

theorem checkOrigin_ne_waits {span : SpanBatch} (h : ∃ block ∈ origins, block.number = last) :
    span.checkOrigin last origins ≠ .error waits := by
  obtain ⟨block, hmem, hnumber⟩ := h
  unfold SpanBatch.checkOrigin
  split
  · rename_i hnone
    have hother := List.find?_eq_none.mp hnone block hmem
    simp [hnumber] at hother
  · exact reject_ne_error (by simp [spanDrop])

/-- The data that the check of a span may ask for: the second L1 block where the span
starts there, the L1 block of its last epoch, and the block it extends where that is not
the safe head. -/
def Answered (cfg : RollupConfig) (call : BatchCall) (span : SpanBatch) : Prop :=
  ∃ epoch later first last, call.l1Origins = epoch :: later ∧
    span.batches.head? = some first ∧ span.batches.getLast? = some last ∧
    (first.epochNum = epoch.number + 1 → later ≠ []) ∧
    (∃ block ∈ epoch :: later, block.number = last.epochNum) ∧
    (first.timestamp < call.parent.blockInfo.timestamp + cfg.blockTime →
      call.fetcher.l2BlockInfoByNumber
        (parentNumber cfg call.parent.blockInfo first.timestamp) ≠ none)

theorem Answered.decides {span : SpanBatch} (h : Answered cfg call span) (origin : BlockInfo) :
    span.checkBatchPrefix cfg call.l1Origins call.parent origin call.fetcher ≠
      .error waits := by
  obtain ⟨epoch, later, first, last, horigins, hfirst, hlast, hnext, hend, hparent⟩ := h
  simp only [SpanBatch.checkBatchPrefix, horigins, hfirst, hlast]
  refine bind_ne_error (deltaOrigin_ne_waits hnext) fun _ => ?_
  refine bind_ne_error (reject_ne_error (by simp [spanDrop])) fun _ => ?_
  refine bind_ne_error (reject_ne_error (by split <;> simp [spanDrop])) fun _ => ?_
  refine bind_ne_error (reject_ne_error (by split <;> simp [spanDrop])) fun _ => ?_
  refine bind_ne_error (parentOf_ne_waits hparent) fun parent => ?_
  refine bind_ne_error (reject_ne_error (by simp [spanDrop])) fun _ => ?_
  refine bind_ne_error (reject_ne_error (by simp [spanDrop])) fun _ => ?_
  refine bind_ne_error (reject_ne_error (by simp [spanDrop])) fun _ => ?_
  refine bind_ne_error (checkOrigin_ne_waits hend) fun _ => ?_
  exact bind_ne_error (reject_ne_error (by simp [spanDrop])) fun _ => by simp

/-- Every call of the run that takes a span finds the data that its check may ask for. -/
def AllAnswered (cfg : RollupConfig) : BatchStream → List BatchCall → Prop
  | _, [] => True
  | s, call :: calls =>
    (∀ span prev, s.buffer = [] → s.prev.nextBatch = (.ok (.span span), prev) →
      Answered cfg call span) ∧
    AllAnswered cfg (after cfg s call) calls

end Answers

/-- Every check of the run is decidable at the call that makes it. -/
def NeverWaits (cfg : RollupConfig) : BatchStream → List BatchCall → Prop
  | _, [] => True
  | s, call :: calls => undecided cfg call s = false ∧ NeverWaits cfg (after cfg s call) calls

theorem NeverWaits.prompt_eq (h : NeverWaits cfg s calls) : prompt cfg s calls = calls := by
  induction calls generalizing s with
  | nil => rfl
  | cons call calls ih => rw [prompt, if_neg (by simp [h.1]), ih h.2]

theorem NeverWaits.of_prefix (h : NeverWaits cfg s calls) (hp : before <+: calls) :
    NeverWaits cfg s before := by
  induction calls generalizing s before with
  | nil =>
    rw [List.prefix_nil.mp hp]
    trivial
  | cons call calls ih =>
    cases before with
    | nil => trivial
    | cons first rest =>
      obtain ⟨rfl, hrest⟩ := List.cons_prefix_cons.mp hp
      exact ⟨h.1, ih h.2 hrest⟩

theorem AllAnswered.neverWaits (h : AllAnswered cfg s calls) : NeverWaits cfg s calls := by
  induction calls generalizing s with
  | nil => trivial
  | cons call calls ih =>
    refine ⟨?_, ih h.2⟩
    cases hund : undecided cfg call s with
    | false => rfl
    | true =>
      obtain ⟨origin, span, prev, _, hbuffer, hprev, _, hcheck⟩ := undecided_eq_true hund
      exact absurd hcheck ((h.1 span prev hbuffer hprev).decides origin)

theorem neverWaits_of_afterAll (h : ∀ before, before <+: calls →
      afterAll cfg s before = afterAll cfg s (prompt cfg s before)) : NeverWaits cfg s calls := by
  induction calls generalizing s with
  | nil => trivial
  | cons call calls ih =>
    have hfirst : undecided cfg call s = false := by
      cases hund : undecided cfg call s with
      | false => rfl
      | true =>
        have heq := h [call] (by simp)
        simp only [prompt, hund, if_true] at heq
        exact absurd heq (after_undecided hund)
    refine ⟨hfirst, ih ?_⟩
    intro before hbefore
    have hnext := h (call :: before) ((List.prefix_cons_inj call).mpr hbefore)
    rwa [prompt, if_neg (by simp [hfirst])] at hnext

/-- Waiting changes nothing, in every state of the run and in what it yields, exactly
where there is no waiting: an undecided check loses its span. There is none where each
check finds the data it may ask for. -/
theorem waiting_changes_nothing_iff (cfg : RollupConfig) (s : BatchStream)
    (calls : List BatchCall) :
    ((∀ before, before <+: calls →
      afterAll cfg s before = afterAll cfg s (prompt cfg s before) ∧
      yields cfg s before = yields cfg s (prompt cfg s before)) ↔
    NeverWaits cfg s calls) ∧
    (AllAnswered cfg s calls → NeverWaits cfg s calls) := by
  refine ⟨⟨?_, ?_⟩, AllAnswered.neverWaits⟩
  · intro h
    exact neverWaits_of_afterAll fun before hb => (h before hb).1
  · intro h before hbefore
    rw [(h.of_prefix hbefore).prompt_eq]
    exact ⟨rfl, rfl⟩

def holoceneRollup : RollupConfig :=
  .withUpgrades ⟨some 0, some 0, some 0, some 0, some 0, some 0, none, none⟩

/-- A span of one empty block on top of the genesis block. -/
def oneBlockSpan : SpanBatch :=
  { SpanBatch.new 0 10 with batches := [⟨1, 2, []⟩] }

/-- A call for the block after genesis that knows these L1 blocks. -/
def callWith (l1Origins : List BlockInfo) : BatchCall where
  parent := ⟨default, ⟨1, 0⟩, 0⟩
  l1Origins
  origin := some ⟨0, 1, 0, 0⟩
  fetcher := ⟨fun _ => none, fun _ => none⟩

/-- The first call comes before the L1 block is known, and the span is never derived. -/
theorem waiting_loses_a_span :
    ∃ (s : BatchStream) (calls : List BatchCall),
      yields holoceneRollup s (prompt holoceneRollup s calls) =
        [.single ⟨0, 1, 0, 2, []⟩] ∧
      yields holoceneRollup s calls = [] :=
  ⟨.new ⟨none, [[.span oneBlockSpan]]⟩, [callWith [], callWith [⟨0, 1, 0, 0⟩]], by decide +kernel⟩

end BatchStream
end SciChain.Derive
