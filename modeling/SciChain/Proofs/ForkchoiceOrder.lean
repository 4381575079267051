import SciChain.Engine.Tasks
import SciChain.Library.Run

namespace SciChain.Engine
open Derive Library Procedure EngineTask

def EngineSyncState.Ordered (s : EngineSyncState) : Prop :=
  s.finalizedHead.blockInfo.number ≤ s.safeHead.blockInfo.number ∧
    s.safeHead.blockInfo.number ≤ s.unsafeHead.blockInfo.number

instance (s : EngineSyncState) : Decidable s.Ordered :=
  inferInstanceAs (Decidable (_ ∧ _))

/-- The block returned for a number has this number. -/
def Numbered : (c : Call) → c.Answer → Prop
  | .l2BlockByLabel number, r => ∀ block, r = .ok (some block) → block.header.number = number
  | .getL2Block (.number number), r => ∀ block, r = .ok (some block) → block.header.number = number
  | _, _ => True

/-- A forkchoice message is built from ordered heads. -/
def OrderedMessage : Call → Prop
  | .forkchoiceUpdated _ heads _ => heads.Ordered
  | _ => True

theorem number_of_blockInfoOf (h : blockInfoOf codecs cfg block = .ok info) :
    info.blockInfo.number = block.header.number := by
  unfold blockInfoOf L2BlockInfo.fromBlockAndGenesis at h
  split at h
  · split at h
    · cases h
    · cases h
      rfl
  · split at h
    · cases h
    · cases h
    · split at h
      · cases h
      · cases h
        rfl

/-- The severity of an error of `build_and_seal` is the one of its part. -/
def BuildAndSealError.severity (e : BuildAndSealError) : EngineTaskErrorSeverity :=
  (ConsolidateTaskError.ofBuildAndSeal e).severity

section Update

variable {allowed : (c : Call) → c.Answer → Prop} {asks : Call → Prop}

/-- A synchronization leaves the state alone, or it succeeds with the update confirmed. -/
theorem synchronize_ensures (update : EngineSyncStateUpdate) (s : EngineState)
    (hasks : ¬(s.syncState.applyUpdate update).unsafeHead.blockInfo.number <
        (s.syncState.applyUpdate update).finalizedHead.blockInfo.number →
      asks (.forkchoiceUpdated .v3 (s.syncState.applyUpdate update) none)) :
    (synchronize update).Ensures allowed asks s (fun r t => t = s ∨
      (r = .ok () ∧ t = ⟨s.syncState.applyUpdate update, true⟩ ∧
        ¬t.syncState.unsafeHead.blockInfo.number <
          t.syncState.finalizedHead.blockInfo.number)) := by
  simp only [synchronize, ensures_bind, ensures_get, Then]
  split
  · simp
  · split
    · simp
    · rename_i hbehind
      simp only [Task.forkchoiceUpdated, ensures_bind, ensures_ask, Then]
      refine ⟨hasks hbehind, ?_⟩
      intro r _
      cases r with
      | error e => simp [Then, Except.mapError]
      | ok updated =>
        simp only [mapError_value, ensures_lift, Then, ensures_bind]
        cases updated.payloadStatus with
        | valid => exact Or.inr ⟨rfl, rfl, hbehind⟩
        | invalid e => exact Or.inl rfl
        | syncing => exact Or.inl rfl
        | accepted => exact Or.inl rfl

end Update

variable {ε δ α : Type} {severity : ε → EngineTaskErrorSeverity}

/-- What an attempt at a task that finalizes nothing leaves behind: ordered heads, and the
same state if the attempt is to be repeated. -/
structure Kept (severity : ε → EngineTaskErrorSeverity) (s : EngineState) (r : Except ε α)
    (t : EngineState) : Prop where
  ordered : t.syncState.Ordered
  finalized : t.syncState.finalizedHead = s.syncState.finalizedHead
  unchanged : ∀ e, r = .error e → severity e = .temporary → t = s

namespace Kept

theorem same (hs : s.syncState.Ordered) (r : Except ε α) :
    Kept severity s r s := ⟨hs, rfl, fun _ _ _ => rfl⟩

theorem mapError (h : Kept severity s r t) (f : ε → δ) (hf : ∀ e, severity' (f e) = severity e) :
    Kept severity' s (r.mapError f) t := by
  refine ⟨h.ordered, h.finalized, ?_⟩
  intro d hd hsev
  obtain ⟨e, he, rfl⟩ := (mapError_eq_error r f d).mp hd
  exact h.unchanged e he ((hf e).symm.trans hsev)

theorem final {β : Type} {s t : EngineState} (h : Kept severity s r t) {r' : Except δ β}
    (hr : ∀ e, r' = .error e → severity' e ≠ .temporary) : Kept severity' s r' t :=
  ⟨h.ordered, h.finalized, fun e he hsev => absurd hsev (hr e he)⟩

theorem ok {β : Type} {s t : EngineState} (h : Kept severity s r t) (b : β) :
    Kept severity' s (.ok b : Except δ β) t :=
  h.final nofun

theorem error {β : Type} {s t : EngineState} (h : Kept severity s (.error e : Except ε α) t) :
    Kept severity s (.error e : Except ε β) t :=
  ⟨h.ordered, h.finalized, fun e' he' => h.unchanged e' (by cases he'; rfl)⟩

end Kept

/-- All attempts at the task from the state, each with ordered messages, leave this behind. -/
abbrev Keeps (severity : ε → EngineTaskErrorSeverity) (s : EngineState) (m : Task ε α) : Prop :=
  m.Ensures Numbered OrderedMessage s (Kept severity s)

theorem Keeps.mapError {m : Task ε α} (h : Keeps severity s m) {f : ε → δ}
    (hf : ∀ e, severity' (f e) = severity e) : Keeps severity' s (m.mapError f) := by
  rw [Keeps, ensures_mapError]
  exact h.mono fun r t h => h.mapError f hf

/-- A task that leaves the state as it is. -/
abbrev Stays (s : EngineState) (m : Task ε α) : Prop :=
  m.Ensures Numbered OrderedMessage s (fun _ t => t = s)

theorem Stays.mapError {m : Task ε α} (h : Stays s m) (f : ε → δ) : Stays s (m.mapError f) := by
  rw [Stays, ensures_mapError]
  exact h

theorem Stays.bind {β : Type} {m : Task ε α} {f : α → Task ε β}
    {post : Except ε β → EngineState → Prop} (h : Stays s m) (herror : ∀ e, post (.error e) s)
    (hf : ∀ a, (f a).Ensures Numbered OrderedMessage s post) :
    (m >>= f).Ensures Numbered OrderedMessage s post := by
  rw [ensures_bind]
  refine h.mono ?_
  rintro r t rfl
  cases r with
  | ok a => exact hf a
  | error e => exact herror e

section Steps

variable (codecs : Codecs) (cfg : EngineConfig) {s : EngineState}

theorem sealPayload_stays (id : PayloadId) (attributes : AttributesWithParent) (s : EngineState) :
    Stays s (sealPayload cfg id attributes) := by
  simp only [Stays, sealPayload, Task.getPayload, ensures_bind, ensures_ask, Then]
  refine ⟨trivial, ?_⟩
  intro r _
  cases r <;> rfl

theorem sendChannelResult_kept (hasChannel : Bool)
    {result : Except SealTaskError BaseExecutionPayloadEnvelope} {s t : EngineState}
    (h : Kept SealTaskError.severity s result t) :
    (sendChannelResultOrGetError hasChannel result).Ensures Numbered OrderedMessage t
      (Kept SealTaskError.severity s) := by
  cases hasChannel with
  | true =>
    simp only [sendChannelResultOrGetError, if_true, Task.send, ensures_bind, ensures_ask, Then]
    refine ⟨trivial, ?_⟩
    intro taken _
    cases taken with
    | true => exact h.ok ()
    | false => exact h.final (fun e he => by cases he; decide)
  | false =>
    cases result with
    | ok envelope => exact h.ok ()
    | error e => exact h.error

theorem fetchFinalized_kept (number : U64) (s : EngineState) :
    (fetchFinalized codecs cfg number).Ensures Numbered OrderedMessage s (fun r t => t = s ∧
      ∀ info, r = .ok info → info.blockInfo.number = number) := by
  simp only [fetchFinalized, Task.getL2Block, ensures_bind, ensures_ask, Then]
  refine ⟨trivial, ?_⟩
  intro r hr
  rcases r with e | _ | block
  · exact ⟨rfl, fun _ h => by cases h⟩
  · exact ⟨rfl, fun _ h => by cases h⟩
  · simp only [mapError_value, ensures_lift, Then]
    refine ⟨trivial, ?_⟩
    intro info hinfo
    rw [mapError_eq_ok] at hinfo
    exact (number_of_blockInfoOf hinfo).trans (hr block rfl)

theorem toNat_satAdd_one {a : U64} (h : a < b) : (satAdd a 1).toNat = a.toNat + 1 := by
  have hb := b.isLt
  have hlt := BitVec.lt_def.mp h
  have hone : (1 : U64).toNat = 1 := rfl
  rw [toNat_satAdd, hone]
  omega

variable (hs : s.syncState.Ordered)
include hs

theorem synchronize_kept
    (hnew : ¬(s.syncState.applyUpdate update).unsafeHead.blockInfo.number <
        (s.syncState.applyUpdate update).finalizedHead.blockInfo.number →
      (s.syncState.applyUpdate update).Ordered) (hfinalized : update.finalizedHead = none) :
    Keeps SynchronizeTaskError.severity s (synchronize update) := by
  refine (synchronize_ensures update s hnew).mono ?_
  intro r t h
  rcases h with rfl | ⟨rfl, rfl, hbehind⟩
  · exact Kept.same hs r
  · refine ⟨hnew hbehind, ?_, nofun⟩
    simp [EngineSyncState.applyUpdate, hfinalized]

theorem insert_kept (envelope : BaseExecutionPayloadEnvelope) (safety : InsertPayloadSafety) :
    Keeps InsertTaskError.severity s (insert codecs cfg envelope safety) := by
  simp only [Keeps, insert, ensures_bind, ensures_lift]
  cases href : newBlockRef codecs cfg envelope with
  | error e => exact Kept.same hs _
  | ok ref =>
    simp only [Then, ensures_bind, ensures_get]
    split
    · rename_i happlicable
      simp only [Task.newPayload, ensures_bind, ensures_ask, Then]
      refine ⟨trivial, ?_⟩
      intro r _
      cases r with
      | error e => exact Kept.same hs _
      | ok status =>
        simp only [mapError_value, ensures_lift, Then]
        split
        · refine (synchronize_kept hs ?_ rfl).mapError fun _ => rfl
          intro hbehind
          cases safety with
          | unsafePayload =>
            simp only [isUnsafePayloadApplicable, InsertPayloadSafety.advancesSafeHead,
              Bool.false_or, decide_eq_true_eq] at happlicable
            obtain ⟨_, hlater, _⟩ := happlicable
            exact ⟨hs.1, BitVec.le_trans hs.2 (BitVec.le_of_lt hlater)⟩
          | safePayload => exact ⟨BitVec.not_lt.mp hbehind, BitVec.le_refl _⟩
        · exact Kept.same hs _
    · exact Kept.same hs _

section Reattempt

variable {reattempt : Task BuildAndSealError Unit}
  {severity : BuildAndSealError → EngineTaskErrorSeverity} (hreattempt : Keeps severity s reattempt)
include hreattempt

theorem insertPayload_kept (envelope : BaseExecutionPayloadEnvelope) :
    Keeps SealTaskError.severity s
      (insertPayload codecs cfg reattempt attributes safety envelope) := by
  simp only [Keeps, insertPayload, ensures_bind, ensures_outcome]
  refine (insert_kept codecs cfg hs envelope safety).mono ?_
  intro r t h
  cases r with
  | ok u => exact h.ok ()
  | error e =>
    cases e with
    | unexpectedPayloadStatus status =>
      -- A status that is not expected is a temporary error: nothing has changed so far.
      obtain rfl : t = s := h.unchanged _ rfl rfl
      simp only [Then]
      split
      · exact Kept.same hs _
      · split
        · simp only [ensures_bind, ensures_outcome]
          refine hreattempt.mono ?_
          intro r' t' h'
          cases r' <;> exact h'.final (fun e he => by cases he; decide)
        · exact Kept.same hs _
    | _ => exact h.mapError SealTaskError.payloadInsertionFailed (fun _ => rfl)

theorem sealAndCanonicalizeBlock_kept (id : PayloadId) :
    Keeps SealTaskError.severity s
      (sealAndCanonicalizeBlock codecs cfg reattempt id attributes safety) := by
  refine (sealPayload_stays cfg id attributes s).bind (fun _ => Kept.same hs _) fun envelope => ?_
  simp only [ensures_bind, ensures_lift]
  cases payloadRef codecs cfg envelope.executionPayload
      attributes.attributes.parentBeaconBlockRoot with
  | error e => exact Kept.same hs _
  | ok ref =>
    simp only [mapError_value, Then, ensures_bind]
    refine (insertPayload_kept codecs cfg hs hreattempt envelope).mono ?_
    intro r t h
    cases r with
    | error e => exact h.error
    | ok u => exact h.ok envelope

theorem sealWith_kept (id : PayloadId) (hasChannel : Bool) :
    Keeps SealTaskError.severity s
      (sealWith codecs cfg reattempt id attributes safety hasChannel) := by
  simp only [Keeps, sealWith, ensures_bind, ensures_outcome]
  refine (sealAndCanonicalizeBlock_kept codecs cfg hs hreattempt id).mono ?_
  intro r t h
  exact sendChannelResult_kept hasChannel h

end Reattempt

theorem getPayloadTask_kept (id : PayloadId) (attributes : AttributesWithParent)
    (hasChannel : Bool) :
    Keeps SealTaskError.severity s (getPayloadTask cfg id attributes hasChannel) := by
  simp only [Keeps, getPayloadTask, ensures_bind, ensures_get, Then]
  split
  · exact sendChannelResult_kept hasChannel (Kept.same hs _)
  · simp only [ensures_bind, ensures_outcome]
    refine (sealPayload_stays cfg id attributes s).mono ?_
    rintro r t rfl
    exact sendChannelResult_kept hasChannel (Kept.same hs _)

theorem reconcileToBlock_kept (info : L2BlockInfo) :
    Keeps ConsolidateTaskError.severity s
      (reconcileUnsafeToSafe codecs cfg (.blockInfo info)) := by
  refine (synchronize_kept hs ?_ rfl).mapError fun _ => rfl
  intro hbehind
  exact ⟨BitVec.not_lt.mp hbehind, BitVec.le_refl _⟩

theorem adoptSafe_kept (input : ConsolidateInput)
    (hlow : s.syncState.finalizedHead.blockInfo.number ≤ info.blockInfo.number)
    (hhigh : info.blockInfo.number ≤ s.syncState.unsafeHead.blockInfo.number) :
    Keeps ConsolidateTaskError.severity s (adoptSafe input info) := by
  have hnew : (s.syncState.applyUpdate (safeUpdate info)).Ordered := ⟨hlow, hhigh⟩
  unfold adoptSafe
  split
  · exact (synchronize_kept hs (fun _ => hnew) rfl).mapError fun _ => rfl
  · simp only [Keeps, ensures_bind, ensures_get, Then, ensures_set]
    exact ⟨hnew, rfl, fun _ h => by cases h⟩

theorem consolidate_kept
    (hlow : s.syncState.finalizedHead.blockInfo.number ≤ input.l2BlockNumber)
    (hhigh : input.l2BlockNumber ≤ s.syncState.unsafeHead.blockInfo.number)
    (hreconcile : Keeps ConsolidateTaskError.severity s (reconcileUnsafeToSafe codecs cfg input)) :
    Keeps ConsolidateTaskError.severity s (consolidate codecs cfg input) := by
  simp only [Keeps, consolidate, fetchUnsafe, Task.l2BlockByLabel, ensures_bind, ensures_ask, Then]
  refine ⟨trivial, ?_⟩
  intro r hr
  rcases r with e | _ | block
  · exact Kept.same hs _
  · exact Kept.same hs _
  · simp only [ensures_pure, Then]
    split
    · cases hinfo : blockInfoOf codecs cfg block.intoConsensus with
      | error e => exact hreconcile
      | ok info =>
        have hnumber : info.blockInfo.number = input.l2BlockNumber :=
          (number_of_blockInfoOf hinfo).trans (hr block rfl)
        exact adoptSafe_kept hs input (hnumber ▸ hlow) (hnumber ▸ hhigh)
    · exact hreconcile

theorem consolidateTask_block_kept
    (hlow : s.syncState.finalizedHead.blockInfo.number ≤ info.blockInfo.number) :
    Keeps ConsolidateTaskError.severity s (consolidateTask codecs cfg (.blockInfo info)) := by
  have hreconcile := reconcileToBlock_kept codecs cfg hs info
  simp only [Keeps, consolidateTask, ensures_bind, ensures_get, Then]
  split
  · rename_i hbelow
    exact consolidate_kept codecs cfg hs hlow (BitVec.le_of_lt hbelow) hreconcile
  · exact hreconcile

section Attributes

variable {attributes : AttributesWithParent}
  (hparent : s.syncState.safeHead.blockInfo.number ≤ attributes.parent.blockInfo.number)
include hparent

theorem startBuild_stays : Stays s (startBuild cfg attributes) := by
  simp only [Stays, startBuild, ensures_bind, ensures_get, Then]
  split
  · simp
  · simp only [Task.forkchoiceUpdated, ensures_bind, ensures_ask, Then]
    refine ⟨⟨hs.1, hparent⟩, ?_⟩
    intro r _
    cases r with
    | error e => simp [Then, Except.mapError]
    | ok updated =>
      simp only [mapError_value, ensures_lift, Then, ensures_bind]
      cases hstatus : validateForkchoiceStatus updated.payloadStatus with
      | error e => rfl
      | ok u =>
        cases updated.payloadId <;> rfl

theorem build_stays (hasChannel : Bool) : Stays s (build cfg attributes hasChannel) := by
  refine ((startBuild_stays cfg hs hparent).mapError _).bind (fun _ => rfl) fun id => ?_
  cases hasChannel with
  | false => rfl
  | true =>
    simp only [if_true, Task.send, ensures_bind, ensures_ask]
    refine ⟨trivial, ?_⟩
    intro taken _
    cases taken <;> rfl

theorem buildAndSealWith_kept (hreattempt : Keeps BuildAndSealError.severity s reattempt) :
    Keeps BuildAndSealError.severity s
      (buildAndSealWith codecs cfg reattempt attributes safety) := by
  refine ((build_stays cfg hs hparent false).mapError _).bind (fun _ => Kept.same hs _) fun id => ?_
  exact (sealWith_kept codecs cfg hs hreattempt id false).mapError fun _ => rfl

theorem reattemptWithDeposits_kept (safety : InsertPayloadSafety) :
    Keeps BuildAndSealError.severity s (reattemptWithDeposits codecs cfg attributes safety) := by
  refine buildAndSealWith_kept codecs cfg hs ?_ ?_
  · exact hparent
  · exact Kept.same hs _

theorem reconcileToAttributes_kept :
    Keeps ConsolidateTaskError.severity s
      (reconcileUnsafeToSafe codecs cfg (.attributes attributes)) :=
  Keeps.mapError (buildAndSealWith_kept codecs cfg hs hparent
    (reattemptWithDeposits_kept codecs cfg hs hparent .safePayload)) fun _ => rfl

theorem consolidateTask_attributes_kept
    (hbelow : s.syncState.safeHead.blockInfo.number < s.syncState.unsafeHead.blockInfo.number →
      attributes.parent.blockInfo.number < s.syncState.unsafeHead.blockInfo.number) :
    Keeps ConsolidateTaskError.severity s (consolidateTask codecs cfg (.attributes attributes)) := by
  have hreconcile := reconcileToAttributes_kept codecs cfg hs hparent
  simp only [Keeps, consolidateTask, ensures_bind, ensures_get, Then]
  split
  · rename_i hsafe
    have hlt := hbelow hsafe
    have hnumber := toNat_satAdd_one hlt
    have hlow := hs.1
    refine consolidate_kept codecs cfg hs ?_ ?_ hreconcile
    · simp only [ConsolidateInput.l2BlockNumber, AttributesWithParent.blockNumber]
      bv_omega
    · simp only [ConsolidateInput.l2BlockNumber, AttributesWithParent.blockNumber]
      bv_omega
  · exact hreconcile

end Attributes
end Steps

section Tasks

variable (codecs : Codecs) (cfg : EngineConfig)

/-- What an attempt at a finalization leaves behind. -/
structure Finalized (s : EngineState) (r : Except FinalizeTaskError Unit) (t : EngineState) :
    Prop where
  ordered : t.syncState.Ordered
  finalized : s.syncState.finalizedHead.blockInfo.number ≤
    t.syncState.finalizedHead.blockInfo.number
  unchanged : ∀ e, r = .error e → t = s

theorem Finalized.same (hs : s.syncState.Ordered) (r : Except FinalizeTaskError Unit) :
    Finalized s r s :=
  ⟨hs, BitVec.le_refl _, fun _ _ => rfl⟩

theorem finalizeTask_finalized (number : U64) (hs : s.syncState.Ordered) :
    (finalizeTask codecs cfg number).Ensures Numbered OrderedMessage s (Finalized s) := by
  simp only [finalizeTask, ensures_bind, ensures_get, Then]
  split
  · exact Finalized.same hs _
  · split
    · exact Finalized.same hs _
    · rename_i hlow hhigh
      simp only [ensures_bind]
      refine (fetchFinalized_kept codecs cfg number s).mono ?_
      rintro r t ⟨rfl, hnumber⟩
      cases r with
      | error e => exact Finalized.same hs _
      | ok info =>
        have hinfo := hnumber info rfl
        have hnew : (t.syncState.applyUpdate { finalizedHead := some info }).Ordered :=
          ⟨hinfo ▸ BitVec.not_lt.mp hhigh, hs.2⟩
        simp only [Then, ensures_mapError]
        refine (synchronize_ensures { finalizedHead := some info } t (fun _ => hnew)).mono ?_
        intro r' t' h
        rcases h with rfl | ⟨rfl, rfl, _⟩
        · exact Finalized.same hs _
        · exact ⟨hnew, hinfo ▸ BitVec.not_lt.mp hlow, fun _ h => by cases h⟩

/-- Where a task may start: its attributes build on the safe head or above it and, when
they are to be found in the unsafe chain, below the unsafe head; a safe block of another
node is not below the finalized head. -/
def EngineTask.Fits (s : EngineSyncState) : EngineTask → Prop
  | .build attributes _ => s.safeHead.blockInfo.number ≤ attributes.parent.blockInfo.number
  | .sealing _ attributes _ _ => s.safeHead.blockInfo.number ≤ attributes.parent.blockInfo.number
  | .consolidate (.attributes derived) =>
    s.safeHead.blockInfo.number ≤ derived.parent.blockInfo.number ∧
      (s.safeHead.blockInfo.number < s.unsafeHead.blockInfo.number →
        derived.parent.blockInfo.number < s.unsafeHead.blockInfo.number)
  | .consolidate (.blockInfo info) => s.finalizedHead.blockInfo.number ≤ info.blockInfo.number
  | .delegatedForkchoice update =>
    s.finalizedHead.blockInfo.number ≤ update.safeL2.blockInfo.number
  | .insert _ _ => True
  | .getPayload _ _ _ => True
  | .finalize _ => True

/-- What an attempt at any task leaves behind. -/
structure Attempted (task : EngineTask) (s : EngineState) (r : Except EngineTaskErrors Unit)
    (t : EngineState) : Prop where
  ordered : t.syncState.Ordered
  finalized : s.syncState.finalizedHead.blockInfo.number ≤
    t.syncState.finalizedHead.blockInfo.number
  fits : ∀ e, r = .error e → e.severity = .temporary → task.Fits t.syncState

theorem Kept.attempted (h : Kept severity s r t) (hfits : task.Fits s.syncState)
    (f : ε → EngineTaskErrors) (hf : ∀ e, (f e).severity = severity e) :
    Attempted task s (r.mapError f) t := by
  have hmapped := h.mapError f hf
  refine ⟨h.ordered, by rw [h.finalized]; exact BitVec.le_refl _, ?_⟩
  intro e he hsev
  rw [hmapped.unchanged e he hsev]
  exact hfits

theorem Keeps.attempted {m : Task ε Unit} (h : Keeps severity s m) (hfits : task.Fits s.syncState)
    {f : ε → EngineTaskErrors} (hf : ∀ e, (f e).severity = severity e) :
    (m.mapError f).Ensures Numbered OrderedMessage s (Attempted task s) := by
  rw [ensures_mapError]
  exact h.mono fun r t h => h.attempted hfits f hf

theorem delegatedForkchoiceTask_attempted (hs : s.syncState.Ordered)
    (hfits : (EngineTask.delegatedForkchoice update).Fits s.syncState) :
    ((delegatedForkchoiceTask codecs cfg update).mapError .delegatedForkchoice).Ensures Numbered
      OrderedMessage s (Attempted (.delegatedForkchoice update) s) := by
  simp only [delegatedForkchoiceTask, ensures_bind, ensures_mapError]
  refine (consolidateTask_block_kept codecs cfg hs hfits).mono ?_
  intro r t h
  cases r with
  | error e =>
    exact h.attempted hfits (fun e => .delegatedForkchoice (.consolidate e)) (fun _ => rfl)
  | ok u =>
    -- The safe head has moved, the finalized head has not: the task fits as before.
    have hfits' : (delegatedForkchoice update).Fits t.syncState := by
      simp only [EngineTask.Fits, h.finalized]
      exact hfits
    have hsame : Attempted (.delegatedForkchoice update) s (.ok ()) t :=
      ⟨h.ordered, by rw [h.finalized]; exact BitVec.le_refl _, fun _ h => by cases h⟩
    simp only [mapError_value, Then, ensures_bind, ensures_get]
    cases update.finalizedL2Number with
    | none => exact hsame
    | some remoteFinalized =>
      simp only
      generalize (if t.syncState.safeHead.blockInfo.number < remoteFinalized then
        t.syncState.safeHead.blockInfo.number else remoteFinalized) = target
      split
      · exact hsame
      · rw [ensures_mapError]
        refine (finalizeTask_finalized codecs cfg target h.ordered).mono ?_
        intro r' t' h'
        refine ⟨h'.ordered, h.finalized ▸ h'.finalized, ?_⟩
        intro e he _
        cases r' with
        | ok u => cases he
        | error e' =>
          rw [h'.unchanged e' rfl]
          exact hfits'

theorem executeInner_attempted {task : EngineTask} (hs : s.syncState.Ordered)
    (hfits : task.Fits s.syncState) :
    (task.executeInner codecs cfg).Ensures Numbered OrderedMessage s (Attempted task s) := by
  cases task with
  | insert envelope safety =>
    exact (insert_kept codecs cfg hs envelope safety).attempted hfits fun _ => rfl
  | build attributes hasChannel =>
    exact ((build_stays cfg hs hfits hasChannel).mapError _).bind
      (fun _ => ⟨hs, BitVec.le_refl _, fun _ _ _ => hfits⟩)
      fun _ => ⟨hs, BitVec.le_refl _, nofun⟩
  | sealing id attributes safety hasChannel =>
    exact (sealWith_kept codecs cfg hs (reattemptWithDeposits_kept codecs cfg hs hfits safety) id
      hasChannel).attempted hfits fun _ => rfl
  | getPayload id attributes hasChannel =>
    exact (getPayloadTask_kept cfg hs id attributes hasChannel).attempted hfits fun _ => rfl
  | consolidate input =>
    cases input with
    | attributes derived =>
      exact (consolidateTask_attributes_kept codecs cfg hs hfits.1 hfits.2).attempted hfits
        fun _ => rfl
    | blockInfo info =>
      exact (consolidateTask_block_kept codecs cfg hs hfits).attempted hfits fun _ => rfl
  | delegatedForkchoice update => exact delegatedForkchoiceTask_attempted codecs cfg hs hfits
  | finalize number =>
    simp only [executeInner, ensures_mapError]
    refine (finalizeTask_finalized codecs cfg number hs).mono ?_
    intro r t h
    exact ⟨h.ordered, h.finalized, fun _ _ _ => trivial⟩

/-- Every repetition of an attempt starts where the task fits. -/
theorem execute_keeps (n : ℕ) {task : EngineTask} (hs : s.syncState.Ordered)
    (hfits : task.Fits s.syncState) :
    (task.execute codecs cfg n).Ensures Numbered OrderedMessage s (fun _ t =>
      t.syncState.Ordered ∧ s.syncState.finalizedHead.blockInfo.number ≤
        t.syncState.finalizedHead.blockInfo.number) := by
  induction n generalizing s with
  | zero => exact ⟨hs, BitVec.le_refl _⟩
  | succ n ih =>
    simp only [execute, ensures_bind, ensures_outcome]
    refine (executeInner_attempted codecs cfg hs hfits).mono ?_
    intro r t h
    cases r with
    | ok u => exact ⟨h.ordered, h.finalized⟩
    | error e =>
      simp only [Then]
      split
      · rename_i hsev
        refine (ih h.ordered (h.fits e rfl hsev)).mono ?_
        intro r' t' h'
        exact ⟨h'.1, BitVec.le_trans h.finalized h'.2⟩
      · exact ⟨h.ordered, h.finalized⟩

variable {answers : ℕ → (c : Call) → c.Answer}

theorem Session.perform_keeps (hnumbered : ∀ n c, Numbered c (answers n c)) {s : Session}
    (hfits : job.1.Fits s.state.syncState) (hordered : s.state.syncState.Ordered)
    (hlog : ∀ x ∈ s.log, OrderedMessage x.question)
    (h : Session.perform codecs cfg answers job s = .ok t) :
    t.state.syncState.Ordered ∧ (∀ x ∈ t.log, OrderedMessage x.question) ∧
      s.state.syncState.finalizedHead.blockInfo.number ≤
        t.state.syncState.finalizedHead.blockInfo.number := by
  cases h
  obtain ⟨⟨hnext, hfinalized⟩, hasked⟩ :=
    (execute_keeps codecs cfg job.2 hordered hfits).sound
      (fun x hx => Dialogue.exchanges_answered hnumbered hx)
  exact ⟨hnext, List.forall_mem_append.mpr ⟨hlog, hasked⟩, hfinalized⟩

theorem Session.run_keeps (hnumbered : ∀ n c, Numbered c (answers n c))
    (hfits : Admissible (Session.perform codecs cfg answers)
      (fun job s => job.1.Fits s.state.syncState) s jobs) (hordered : s.state.syncState.Ordered)
    (hlog : ∀ x ∈ s.log, OrderedMessage x.question) :
    (Library.run (Session.perform codecs cfg answers) s jobs).state.syncState.Ordered ∧
      (∀ x ∈ (Library.run (Session.perform codecs cfg answers) s jobs).log,
        OrderedMessage x.question) ∧
      s.state.syncState.finalizedHead.blockInfo.number ≤
        (Library.run (Session.perform codecs cfg answers) s
          jobs).state.syncState.finalizedHead.blockInfo.number := by
  induction jobs generalizing s with
  | nil => exact ⟨hordered, hlog, BitVec.le_refl _⟩
  | cons job jobs ih =>
    obtain ⟨hnext, hlog', hfinalized⟩ := Session.perform_keeps codecs cfg hnumbered hfits.1 hordered
      hlog (apply_eq_attempt rfl)
    obtain ⟨hlast, hlast', hfinalized'⟩ := ih hfits.2 hnext hlog'
    exact ⟨hlast, hlast', BitVec.le_trans hfinalized hfinalized'⟩

/-- The heads stay in order after every task, every forkchoice message is built from heads
in order, and the finalized head never goes back, if every task fits where it starts. -/
theorem forkchoice_stays_ordered (hnumbered : ∀ n c, Numbered c (answers n c))
    (start : EngineState) (hstart : start.syncState.Ordered) (jobs : List (EngineTask × ℕ))
    (hfits : Admissible (Session.perform codecs cfg answers)
      (fun job s => job.1.Fits s.state.syncState) ⟨start, []⟩ jobs)
    (before after : List (EngineTask × ℕ)) (hjobs : jobs = before ++ after) :
    (Library.run (Session.perform codecs cfg answers) ⟨start, []⟩ before).state.syncState.Ordered ∧
      (∀ x ∈ (Library.run (Session.perform codecs cfg answers) ⟨start, []⟩ before).log,
        OrderedMessage x.question) ∧
      (Library.run (Session.perform codecs cfg answers) ⟨start, []⟩
          before).state.syncState.finalizedHead.blockInfo.number ≤
        (Library.run (Session.perform codecs cfg answers) ⟨start, []⟩
          jobs).state.syncState.finalizedHead.blockInfo.number := by
  subst hjobs
  obtain ⟨hfirst, hrest⟩ := admissible_append.mp hfits
  obtain ⟨hordered, hlog, _⟩ := Session.run_keeps codecs cfg hnumbered hfirst hstart
    (fun x hx => by cases hx)
  obtain ⟨_, _, hfinalized⟩ := Session.run_keeps codecs cfg hnumbered hrest hordered hlog
  rw [run_append]
  exact ⟨hordered, hlog, hfinalized⟩

end Tasks

/-- An execution layer whose answers depend on the call alone. -/
structure Replies where
  newPayload : BaseExecutionPayload → Except RpcError PayloadStatusEnum
  forkchoice : EngineSyncState → Option BasePayloadAttributes → Except RpcError ForkchoiceUpdated
  payload : PayloadId → Except RpcError PayloadResponse
  block : U64 → Except RpcError (Option RpcBlock)

def Replies.answer (replies : Replies) : (c : Call) → c.Answer
  | .newPayload payload _ => replies.newPayload payload
  | .forkchoiceUpdated _ heads attributes => replies.forkchoice heads attributes
  | .getPayload _ id => replies.payload id
  | .l2BlockByLabel number => replies.block number
  | .getL2Block (.number number) => replies.block number
  | .getL2Block _ => .ok none
  | .getL1Block _ => .ok none
  | .send _ => true

/-- A chain before all upgrades but those given. -/
def plainConfig (holocene : Option U64) : EngineConfig where
  rollup :=
    { RollupConfig.withUpgrades ⟨none, none, none, none, none, holocene, none, none⟩ with
      blockTime := 1 }
  azulTime := none
  postCanyonParams := ⟨250, 6⟩

/-- Every payload is a block with one deposit. -/
def plainCodecs : Codecs where
  decodeTx bytes := some (.deposit [] bytes)
  txHash _ := 0
  decodeCalldata _ := some ⟨0, 0, 0⟩
  tryIntoBlock payload _ := .ok
    ⟨⟨payload.blockHash, payload.parentHash, payload.blockNumber, payload.timestamp⟩,
      [.deposit [] [0x7e]]⟩

/-- The block of a number in a chain in which hashes and times are the numbers. -/
def plainRef (number : ℕ) : L2BlockInfo :=
  ⟨⟨BitVec.ofNat 256 number, BitVec.ofNat 64 number, BitVec.ofNat 256 (number - 1),
    BitVec.ofNat 64 number⟩, ⟨0, 0⟩, 0⟩

def plainBlock (number : U64) : RpcBlock where
  reportedHash := number.setWidth 256
  header := ⟨number.setWidth 256, (number - 1).setWidth 256, number, number⟩
  mixHash := 0
  gasLimit := 0
  beneficiary := 0
  withdrawalsRoot := none
  parentBeaconBlockRoot := none
  extraData := []
  transactions := .full [.deposit [] [0x7e]]
  withdrawals := none

/-- Attributes for the block after a block of the chain, with transactions after the
deposit. -/
def plainAttributes (parent : ℕ) (txs : List Bytes) : AttributesWithParent where
  attributes :=
    { timestamp := BitVec.ofNat 64 (parent + 1)
      prevRandao := 0
      suggestedFeeRecipient := 0
      withdrawals := none
      parentBeaconBlockRoot := none
      transactions := some ([0x7e] :: txs)
      noTxPool := some true
      gasLimit := some 0
      eip1559Params := none
      minBaseFee := none }
  parent := plainRef parent
  derivedFrom := none
  isLastInSpan := false

/-- The payload that is built on a block. -/
def plainPayload (number : ℕ) : PayloadBody where
  blockHash := BitVec.ofNat 256 number
  parentHash := BitVec.ofNat 256 (number - 1)
  blockNumber := BitVec.ofNat 64 number
  timestamp := BitVec.ofNat 64 number
  rest := []

/-- An execution layer that accepts everything and builds the given block. -/
def obliging (built : ℕ) : Replies where
  newPayload _ := .ok .valid
  forkchoice _ _ := .ok ⟨.valid, some 1⟩
  payload _ := .ok ⟨plainPayload built, false, 0⟩
  block number := .ok (some (plainBlock number))

theorem numbered_obliging (built n : ℕ) (c : Call) :
    Numbered c ((fun _ => (obliging built).answer : ℕ → (c : Call) → c.Answer) n c) := by
  cases c with
  | l2BlockByLabel number =>
    intro block h
    cases h
    rfl
  | getL2Block id =>
    cases id with
    | number number =>
      intro block h
      cases h
      rfl
    | _ => trivial
  | _ => trivial

def plainState (finalized safe unsafeNumber : ℕ) : EngineState where
  syncState := ⟨plainRef unsafeNumber, plainRef safe, plainRef safe, plainRef finalized⟩
  elSyncFinished := true

/-- Attributes for the block after the fifth one, which is then finalized. -/
def derivedJobs : List (EngineTask × ℕ) :=
  [(.consolidate (.attributes (plainAttributes 5 [])), 1), (.finalize 6, 1)]

theorem forkchoice_stays_ordered_derived :
    (Library.run (Session.perform plainCodecs (plainConfig none) (fun _ => (obliging 7).answer))
        ⟨plainState 5 5 10, []⟩ derivedJobs).state = plainState 6 6 10 ∧
      (Library.run (Session.perform plainCodecs (plainConfig none) (fun _ => (obliging 7).answer))
        ⟨plainState 5 5 10, []⟩ derivedJobs).state.syncState.Ordered := by
  refine ⟨by decide +kernel, ?_⟩
  have hfits : Admissible (Session.perform plainCodecs (plainConfig none)
      (fun _ => (obliging 7).answer)) (fun job s => job.1.Fits s.state.syncState)
      ⟨plainState 5 5 10, []⟩ derivedJobs :=
    ⟨⟨by decide +kernel, by decide +kernel⟩, trivial, trivial⟩
  exact (forkchoice_stays_ordered plainCodecs (plainConfig none) (numbered_obliging 7)
    (plainState 5 5 10) (by decide +kernel) derivedJobs hfits derivedJobs []
    (List.append_nil _).symm).1

/-- Attributes on a block below the finalized head, such as those of a pipeline that was
reset meanwhile, move the safe head below it if the chain has their block. -/
theorem stale_attributes_break_order :
    (plainState 5 5 10).syncState.Ordered ∧
      ¬(Library.run (Session.perform plainCodecs (plainConfig none)
        (fun _ => (obliging 7).answer)) ⟨plainState 5 5 10, []⟩
        [(.consolidate (.attributes (plainAttributes 2 [])), 1)]).state.syncState.Ordered := by
  decide +kernel

end SciChain.Engine
