import SciChain.Engine.Queue
import SciChain.Proofs.ForkchoiceOrder

namespace SciChain.Engine
open Derive Library Procedure SynchronizeTaskError

section Attempts

variable {codecs : Codecs} {cfg : EngineConfig} {answer : (c : Call) → c.Answer}
  {task : EngineTask} {s t : EngineState}

theorem execute_of_ok (h : (task.executeInner codecs cfg).reply answer s = (.ok (), t)) (n : ℕ) :
    (task.execute codecs cfg (n + 1)).reply answer s = (.ok (some (.ok ())), t) := by
  rw [EngineTask.execute, reply_bind_ok ((reply_outcome _).trans (by rw [h]))]
  rfl

theorem execute_of_error (he : e.severity ≠ .temporary)
    (h : (task.executeInner codecs cfg).reply answer s = (.error e, t)) (n : ℕ) :
    (task.execute codecs cfg (n + 1)).reply answer s = (.ok (some (.error e)), t) := by
  rw [EngineTask.execute, reply_bind_ok ((reply_outcome _).trans (by rw [h]))]
  simp only [if_neg he]
  rfl

theorem execute_of_temporary (he : e.severity = .temporary)
    (h : (task.executeInner codecs cfg).reply answer s = (.error e, t)) (n : ℕ) :
    (task.execute codecs cfg (n + 1)).reply answer s = (task.execute codecs cfg n).reply answer t := by
  rw [EngineTask.execute, reply_bind_ok ((reply_outcome _).trans (by rw [h]))]
  simp [if_pos he]

/-- An attempt that fails for now and changes nothing is repeated without end. -/
theorem execute_stuck (he : e.severity = .temporary)
    (h : (task.executeInner codecs cfg).reply answer s = (.error e, s)) (n : ℕ) :
    (task.execute codecs cfg n).reply answer s = (.ok none, s) := by
  induction n with
  | zero => rfl
  | succ n ih => rw [execute_of_temporary he h, ih]

theorem execute_succ (h : (task.execute codecs cfg n).reply answer s = (.ok (some r), t)) :
    (task.execute codecs cfg (n + 1)).reply answer s = (.ok (some r), t) := by
  induction n generalizing s with
  | zero => cases h
  | succ n ih =>
    rcases hr : (task.executeInner codecs cfg).reply answer s with ⟨result, u⟩
    cases result with
    | ok x =>
      rw [execute_of_ok hr] at h ⊢
      exact h
    | error e =>
      by_cases he : e.severity = .temporary
      · rw [execute_of_temporary he hr] at h ⊢
        exact ih h
      · rw [execute_of_error he hr] at h ⊢
        exact h

end Attempts

section Payload

variable (codecs : Codecs) (cfg : EngineConfig) (answer : (c : Call) → c.Answer)

/-- The execution layer has no objection to the payload. -/
def TakesPayload (envelope : BaseExecutionPayloadEnvelope) : Prop :=
  ∃ status, answer (.newPayload envelope.executionPayload
    (envelope.executionPayload.version.sidecar envelope.parentBeaconBlockRoot)) = .ok status ∧
      checkNewPayloadStatus status = true

/-- The heads with an unsafe payload as the unsafe head. -/
def headsWith (s : EngineState) (ref : L2BlockInfo) : EngineSyncState :=
  s.syncState.applyUpdate (insertUpdate .unsafePayload ref)

/-- Nor to the payload as the head of the chain. -/
def TakesHead (s : EngineState) (ref : L2BlockInfo) : Prop :=
  ∃ updated, answer (.forkchoiceUpdated .v3 (headsWith s ref) none) = .ok updated ∧
    checkNewPayloadStatus updated.payloadStatus = true

/-- The insertion of an unsafe payload succeeds: it is a block, and it is passed over or the
execution layer takes it. -/
def Passes (envelope : BaseExecutionPayloadEnvelope) (s : EngineState) : Prop :=
  ∃ ref, newBlockRef codecs cfg envelope = .ok ref ∧
    (isUnsafePayloadApplicable .unsafePayload s ref = true →
      TakesPayload answer envelope ∧
        ¬(headsWith s ref).unsafeHead.blockInfo.number <
          (headsWith s ref).finalizedHead.blockInfo.number ∧
        TakesHead answer s ref)

/-- The insertion of an unsafe payload is tried for ever: the execution layer rejects the
payload, or it rejects it as the head with anything but the one error that asks for a reset. -/
def Wedges (envelope : BaseExecutionPayloadEnvelope) (s : EngineState) : Prop :=
  ∃ ref, newBlockRef codecs cfg envelope = .ok ref ∧
    isUnsafePayloadApplicable .unsafePayload s ref = true ∧
    (¬TakesPayload answer envelope ∨
      (¬(headsWith s ref).unsafeHead.blockInfo.number <
          (headsWith s ref).finalizedHead.blockInfo.number ∧
        ¬TakesHead answer s ref ∧
        ∀ e, answer (.forkchoiceUpdated .v3 (headsWith s ref) none) = .error e →
          e.isInvalidForkchoiceState = false))

end Payload

section Outcome

variable {codecs : Codecs} {cfg : EngineConfig} {answer : (c : Call) → c.Answer} {s : EngineState}

/-- What a forkchoice update comes to. -/
def confirmed (new : EngineSyncState) (s : EngineState) :
    Except RpcError ForkchoiceUpdated → Except SynchronizeTaskError Unit × EngineState
  | .error e => (.error (.ofRpc e), s)
  | .ok ⟨.valid, _⟩ => (.ok (), ⟨new, true⟩)
  | .ok ⟨.syncing, _⟩ => (.ok (), s)
  | .ok ⟨status, _⟩ => (.error (.unexpectedPayloadStatus status), s)

section

variable (hmoves : ¬(s.syncState ≠ default ∧ s.syncState = s.syncState.applyUpdate update))
include hmoves

theorem synchronize_reply (hbehind : ¬(s.syncState.applyUpdate update).unsafeHead.blockInfo.number <
      (s.syncState.applyUpdate update).finalizedHead.blockInfo.number) :
    (synchronize update).reply answer s = confirmed (s.syncState.applyUpdate update) s
      (answer (.forkchoiceUpdated .v3 (s.syncState.applyUpdate update) none)) := by
  rw [synchronize, reply_bind_ok (reply_get answer s)]
  simp only [if_neg hmoves, if_neg hbehind]
  rw [reply_bind_ok (m := Task.forkchoiceUpdated .v3 _ none) rfl]
  rcases answer (.forkchoiceUpdated .v3 (s.syncState.applyUpdate update) none) with e | ⟨status, id⟩
  · rfl
  · cases status <;> rfl

theorem synchronize_behind (hbehind : (s.syncState.applyUpdate update).unsafeHead.blockInfo.number <
      (s.syncState.applyUpdate update).finalizedHead.blockInfo.number) :
    (synchronize update).reply answer s = (.error (.finalizedAheadOfUnsafe
      (s.syncState.applyUpdate update).unsafeHead.blockInfo.number
      (s.syncState.applyUpdate update).finalizedHead.blockInfo.number), s) := by
  rw [synchronize, reply_bind_ok (reply_get answer s)]
  simp only [if_neg hmoves, if_pos hbehind]
  rfl

end

theorem synchronize_same
    (h : s.syncState ≠ default ∧ s.syncState = s.syncState.applyUpdate update) :
    (synchronize update).reply answer s = (.ok (), s) := by
  rw [synchronize, reply_bind_ok (reply_get answer s)]
  simp only [if_pos h]
  rfl

theorem synchronize_valid {update : EngineSyncStateUpdate}
    {id : Option PayloadId} (hnew : s.syncState.applyUpdate update = new)
    (hmoves : ¬(s.syncState ≠ default ∧ s.syncState = new))
    (hbehind : ¬new.unsafeHead.blockInfo.number < new.finalizedHead.blockInfo.number)
    (hanswer : answer (.forkchoiceUpdated .v3 new none) = .ok ⟨.valid, id⟩) :
    (synchronize update).reply answer s = (.ok (), ⟨new, true⟩) := by
  subst hnew
  rw [synchronize_reply hmoves hbehind, hanswer]
  rfl

theorem applicable_moves (h : isUnsafePayloadApplicable .unsafePayload s ref = true) :
    ¬(s.syncState ≠ default ∧ s.syncState = headsWith s ref) := by
  rintro ⟨_, heq⟩
  simp only [isUnsafePayloadApplicable, InsertPayloadSafety.advancesSafeHead, Bool.false_or,
    decide_eq_true_eq] at h
  have hhead : s.syncState.unsafeHead = ref := congrArg EngineSyncState.unsafeHead heq
  exact h.1 (by rw [hhead])

/-- The part of an insertion after its payload was found to be a block that is new. -/
theorem insert_reply_new (href : newBlockRef codecs cfg envelope = .ok ref)
    (happlicable : isUnsafePayloadApplicable .unsafePayload s ref = true)
    (hr : answer (.newPayload envelope.executionPayload
      (envelope.executionPayload.version.sidecar envelope.parentBeaconBlockRoot)) = r) :
    (insert codecs cfg envelope .unsafePayload).reply answer s =
      ((lift (r.mapError .insertFailed) : Task InsertTaskError _) >>= fun status =>
        if checkNewPayloadStatus status then
          (synchronize (insertUpdate .unsafePayload ref)).mapError .forkchoiceUpdateFailed
        else fail (.unexpectedPayloadStatus status)).reply answer s := by
  subst hr
  rw [insert, reply_bind_ok (m := lift _) (by rw [href]; rfl), reply_bind_ok (reply_get answer s)]
  simp only [if_pos happlicable]
  rw [reply_bind_ok (m := Task.newPayload _ _) rfl]

theorem insert_passes (h : Passes codecs cfg answer envelope s) :
    ∃ t, (insert codecs cfg envelope .unsafePayload).reply answer s = (.ok (), t) := by
  obtain ⟨ref, href, htakes⟩ := h
  by_cases happlicable : isUnsafePayloadApplicable .unsafePayload s ref = true
  · obtain ⟨⟨status, hstatus, haccepted⟩, hbehind, updated, hupdated, hhead⟩ := htakes happlicable
    rw [insert_reply_new href happlicable hstatus, mapError_value,
      reply_bind_ok (reply_lift answer s _)]
    simp only [if_pos haccepted]
    rw [reply_mapError, synchronize_reply (applicable_moves happlicable) hbehind]
    rw [headsWith] at hupdated
    rw [hupdated]
    obtain ⟨payloadStatus, id⟩ := updated
    cases payloadStatus with
    | valid => exact ⟨_, rfl⟩
    | syncing => exact ⟨_, rfl⟩
    | invalid e => cases hhead
    | accepted => cases hhead
  · refine ⟨s, ?_⟩
    rw [insert, reply_bind_ok (m := lift _) (by rw [href]; rfl), reply_bind_ok (reply_get answer s)]
    simp only [if_neg happlicable]
    rfl

theorem insert_wedges (h : Wedges codecs cfg answer envelope s) :
    ∃ e, (insert codecs cfg envelope .unsafePayload).reply answer s = (.error e, s) ∧
      e.severity = .temporary := by
  obtain ⟨ref, href, happlicable, hrejects⟩ := h
  rcases hstatus : answer (.newPayload envelope.executionPayload
    (envelope.executionPayload.version.sidecar envelope.parentBeaconBlockRoot)) with e | status
  · rw [insert_reply_new href happlicable hstatus]
    exact ⟨_, rfl, rfl⟩
  · rw [insert_reply_new href happlicable hstatus, mapError_value,
      reply_bind_ok (reply_lift answer s _)]
    cases haccepted : checkNewPayloadStatus status with
    | false => exact ⟨_, rfl, rfl⟩
    | true =>
      obtain ⟨hbehind, hhead, herror⟩ := hrejects.resolve_left
        (fun h => h ⟨status, hstatus, haccepted⟩)
      simp only [if_true]
      rw [reply_mapError, synchronize_reply (applicable_moves happlicable) hbehind]
      simp only [TakesHead, headsWith] at hhead herror
      rcases hupdated : answer (.forkchoiceUpdated .v3
        (s.syncState.applyUpdate (insertUpdate .unsafePayload ref)) none) with e | ⟨status', id⟩
      · have he := herror e hupdated
        refine ⟨.forkchoiceUpdateFailed (.ofRpc e), rfl, ?_⟩
        simp [InsertTaskError.severity, ofRpc, he,
          severity]
      · cases status' with
        | valid => exact absurd ⟨_, hupdated, rfl⟩ hhead
        | syncing => exact absurd ⟨_, hupdated, rfl⟩ hhead
        | invalid e => exact ⟨_, rfl, rfl⟩
        | accepted => exact ⟨_, rfl, rfl⟩

theorem insert_fails (hpasses : ¬Passes codecs cfg answer envelope s)
    (hwedges : ¬Wedges codecs cfg answer envelope s) :
    ∃ e t, (insert codecs cfg envelope .unsafePayload).reply answer s = (.error e, t) ∧
      e.severity ≠ .temporary := by
  rcases href : newBlockRef codecs cfg envelope with e | ref
  · refine ⟨e, s, ?_, ?_⟩
    · rw [insert, reply_bind_error (m := lift _) (by rw [href]; rfl)]
    · unfold newBlockRef at href
      rw [bind_error] at href
      rcases href with hblock | ⟨block, _, hinfo⟩
      · obtain ⟨e', _, rfl⟩ := (mapError_eq_error _ _ _).mp hblock
        simp [InsertTaskError.severity]
      · obtain ⟨e', _, rfl⟩ := (mapError_eq_error _ _ _).mp hinfo
        simp [InsertTaskError.severity]
  · by_cases happlicable : isUnsafePayloadApplicable .unsafePayload s ref = true
    · have htakes : TakesPayload answer envelope := by
        by_contra hno
        exact hwedges ⟨ref, href, happlicable, Or.inl hno⟩
      obtain ⟨status, hstatus, haccepted⟩ := htakes
      rw [insert_reply_new href happlicable hstatus, mapError_value,
        reply_bind_ok (reply_lift answer s _)]
      simp only [if_pos haccepted]
      rw [reply_mapError]
      by_cases hbehind : (headsWith s ref).unsafeHead.blockInfo.number <
          (headsWith s ref).finalizedHead.blockInfo.number
      · rw [synchronize_behind (applicable_moves happlicable) hbehind]
        exact ⟨_, _, rfl, fun h => by cases h⟩
      · have hhead : ¬TakesHead answer s ref := by
          intro h
          exact hpasses ⟨ref, href, fun _ => ⟨⟨status, hstatus, haccepted⟩, hbehind, h⟩⟩
        have hreset : ∃ e, answer (.forkchoiceUpdated .v3 (headsWith s ref) none) = .error e ∧
            e.isInvalidForkchoiceState = true := by
          by_contra hno
          refine hwedges ⟨ref, href, happlicable, Or.inr ⟨hbehind, hhead, ?_⟩⟩
          intro e he
          by_contra hinvalid
          exact hno ⟨e, he, by simpa using hinvalid⟩
        obtain ⟨e, he, hinvalid⟩ := hreset
        rw [synchronize_reply (applicable_moves happlicable) hbehind]
        rw [headsWith] at he
        rw [he]
        refine ⟨_, _, rfl, ?_⟩
        simp [InsertTaskError.severity, ofRpc, hinvalid,
          severity]
    · exact absurd ⟨ref, href, fun h => absurd h happlicable⟩ hpasses

end Outcome

section Drain

variable {codecs : Codecs} {cfg : EngineConfig} {answer : (c : Call) → c.Answer} {e : Engine}

theorem round_reply (attempts : ℕ) (task : EngineTask) :
    (e.round codecs cfg attempts task).reply answer =
      e.settle ((task.execute codecs cfg attempts).reply answer e.state) :=
  Dialogue.reply_bind answer _ _

theorem drainLoop_of_ok (hnext : e.peek = some (task, seq))
    (h : (task.execute codecs cfg attempts).reply answer e.state = (.ok (some (.ok ())), t)) :
    (e.drainLoop codecs cfg attempts (n + 1)).reply answer =
      (({ e with state := t } : Engine).pop.drainLoop codecs cfg attempts n).reply answer := by
  rw [drainLoop]
  simp only [hnext]
  rw [Dialogue.reply_bind, round_reply, h]
  rfl

theorem drainLoop_of_error (hnext : e.peek = some (task, seq))
    (h : (task.execute codecs cfg attempts).reply answer e.state = (.ok (some (.error err)), t)) :
    (e.drainLoop codecs cfg attempts (n + 1)).reply answer =
      e.settle (.ok (some (.error err)), t) := by
  rw [drainLoop]
  simp only [hnext]
  rw [Dialogue.reply_bind, round_reply, h]
  rfl

theorem drainLoop_of_open (hnext : e.peek = some (task, seq))
    (h : (task.execute codecs cfg attempts).reply answer e.state = (.ok none, t)) :
    (e.drainLoop codecs cfg attempts (n + 1)).reply answer = (none, { e with state := t }) := by
  rw [drainLoop]
  simp only [hnext]
  rw [Dialogue.reply_bind, round_reply, h]
  rfl

theorem mem_of_peek (h : e.peek = some next) : next ∈ e.tasks :=
  List.mem_of_find?_eq_some h

theorem length_pop (h : e.peek = some next) : e.tasks.length = e.pop.tasks.length + 1 := by
  have hmem := mem_of_peek h
  simp only [pop, h, List.length_erase_of_mem hmem]
  have := List.length_pos_of_mem hmem
  omega

theorem drain_of_ok (hnext : e.peek = some (task, seq))
    (h : (task.execute codecs cfg attempts).reply answer e.state = (.ok (some (.ok ())), t)) :
    (e.drain codecs cfg attempts).reply answer =
      (({ e with state := t } : Engine).pop.drain codecs cfg attempts).reply answer := by
  have hlength := length_pop (e := { e with state := t }) hnext
  rw [drain, drain, show e.tasks.length = _ from hlength]
  exact drainLoop_of_ok hnext h

theorem drainLoop_succ (h : ((e.drainLoop codecs cfg attempts n).reply answer).1.isSome = true) :
    ((e.drainLoop codecs cfg (attempts + 1) n).reply answer).1.isSome = true := by
  induction n generalizing e with
  | zero => rfl
  | succ n ih =>
    cases hnext : e.peek with
    | none =>
      rw [drainLoop]
      simp only [hnext]
      rfl
    | some next =>
      obtain ⟨task, seq⟩ := next
      rcases hr : (task.execute codecs cfg attempts).reply answer e.state with ⟨result, t⟩
      cases result with
      | error x => exact x.elim
      | ok result =>
        cases result with
        | none => simp [drainLoop_of_open hnext hr] at h
        | some result =>
          cases result with
          | ok u =>
            rw [drainLoop_of_ok hnext hr] at h
            rw [drainLoop_of_ok hnext (execute_succ hr)]
            exact ih h
          | error err =>
            rw [drainLoop_of_error hnext (execute_succ hr)]
            rfl

variable {envelope : BaseExecutionPayloadEnvelope} {s : EngineState}

theorem payload_passes (h : Passes codecs cfg answer envelope s) :
    ∃ t, ∀ n, ((EngineTask.insert envelope .unsafePayload).execute codecs cfg (n + 1)).reply
      answer s = (.ok (some (.ok ())), t) := by
  obtain ⟨t, ht⟩ := insert_passes h
  refine ⟨t, fun n => execute_of_ok ?_ n⟩
  rw [EngineTask.executeInner, reply_mapError, ht]
  rfl

theorem payload_wedges (h : Wedges codecs cfg answer envelope s) (n : ℕ) :
    ((EngineTask.insert envelope .unsafePayload).execute codecs cfg n).reply answer s =
      (.ok none, s) := by
  obtain ⟨e, he, hsev⟩ := insert_wedges h
  refine execute_stuck (e := .insert e) hsev ?_ n
  rw [EngineTask.executeInner, reply_mapError, he]
  rfl

theorem payload_fails (hpasses : ¬Passes codecs cfg answer envelope s)
    (hwedges : ¬Wedges codecs cfg answer envelope s) :
    ∃ e t, ∀ n, ((EngineTask.insert envelope .unsafePayload).execute codecs cfg (n + 1)).reply
      answer s = (.ok (some (.error e)), t) := by
  obtain ⟨e, t, he, hsev⟩ := insert_fails hpasses hwedges
  refine ⟨.insert e, t, fun n => execute_of_error (e := .insert e) hsev ?_ n⟩
  rw [EngineTask.executeInner, reply_mapError, he]
  rfl

/-- With an unsafe payload next in the queue, and nothing behind it that is tried for ever
once the payload has passed, draining the queue ends exactly if the payload is not tried
for ever; and it gets to the tasks behind the payload exactly if the payload passes. -/
theorem drain_past_payload_iff (codecs : Codecs) (cfg : EngineConfig)
    (answer : (c : Call) → c.Answer) (e : Engine) (envelope : BaseExecutionPayloadEnvelope)
    (seq : ℕ) (hnext : e.peek = some (.insert envelope .unsafePayload, seq))
    (hrest : ∀ t, ((EngineTask.insert envelope .unsafePayload).execute codecs cfg 1).reply answer
        e.state = (.ok (some (.ok ())), t) → ∃ attempts,
      ((({ e with state := t } : Engine).pop.drain codecs cfg attempts).reply answer).1.isSome =
        true) :
    ((∃ attempts, ((e.drain codecs cfg attempts).reply answer).1.isSome = true) ↔
        ¬Wedges codecs cfg answer envelope e.state) ∧
      ((∃ attempts, ((e.round codecs cfg attempts (.insert envelope .unsafePayload)).reply
          answer).1 = some (.ok ())) ↔ Passes codecs cfg answer envelope e.state) := by
  have hlength : e.tasks.length = e.pop.tasks.length + 1 := length_pop hnext
  constructor
  · constructor
    · rintro ⟨attempts, hends⟩ hwedges
      rw [drain, hlength, drainLoop_of_open hnext (payload_wedges hwedges attempts)] at hends
      cases hends
    · intro hwedges
      by_cases hpasses : Passes codecs cfg answer envelope e.state
      · obtain ⟨t, ht⟩ := payload_passes hpasses
        obtain ⟨attempts, hends⟩ := hrest t (ht 0)
        refine ⟨attempts + 1, ?_⟩
        rw [drain_of_ok hnext (ht attempts)]
        exact drainLoop_succ hends
      · obtain ⟨err, t, ht⟩ := payload_fails hpasses hwedges
        refine ⟨1, ?_⟩
        rw [drain, hlength, drainLoop_of_error hnext (ht 0)]
        rfl
  · constructor
    · rintro ⟨attempts, hround⟩
      by_contra hpasses
      rw [round_reply] at hround
      by_cases hwedges : Wedges codecs cfg answer envelope e.state
      · rw [payload_wedges hwedges attempts] at hround
        cases hround
      · cases attempts with
        | zero => cases hround
        | succ attempts =>
          obtain ⟨err, t, ht⟩ := payload_fails hpasses hwedges
          rw [ht attempts] at hround
          cases hround
    · intro hpasses
      obtain ⟨t, ht⟩ := payload_passes hpasses
      refine ⟨1, ?_⟩
      rw [round_reply, ht 0]
      rfl

end Drain

/-- The block after the tenth one, from the network. -/
def gossiped : BaseExecutionPayloadEnvelope := ⟨none, ⟨plainPayload 11, .v1⟩⟩

/-- The payload, and a block to finalize behind it. -/
def payloadQueue : Engine :=
  ⟨plainState 5 5 10, [(.insert gossiped .unsafePayload, 0), (.finalize 5, 1)], 2⟩

theorem payloadQueue_peek : payloadQueue.peek = some (.insert gossiped .unsafePayload, 0) := by
  decide +kernel

theorem obliging_passes :
    Passes plainCodecs (plainConfig none) (obliging 11).answer gossiped (plainState 5 5 10) :=
  ⟨plainRef 11, by decide +kernel,
    fun _ => ⟨⟨.valid, rfl, rfl⟩, by decide +kernel, ⟨.valid, some 1⟩, rfl, rfl⟩⟩

/-- An execution layer that takes the payload. -/
theorem drain_past_payload_obliging :
    ((∃ attempts, ((payloadQueue.drain plainCodecs (plainConfig none) attempts).reply
        (obliging 11).answer).1.isSome = true) ↔
      ¬Wedges plainCodecs (plainConfig none) (obliging 11).answer gossiped (plainState 5 5 10)) ∧
    ∃ attempts, ((payloadQueue.round plainCodecs (plainConfig none) attempts
      (.insert gossiped .unsafePayload)).reply (obliging 11).answer).1 = some (.ok ()) := by
  have h := drain_past_payload_iff plainCodecs (plainConfig none) (obliging 11).answer payloadQueue
    gossiped 0 payloadQueue_peek fun t ht => ⟨1, by
      obtain rfl := congrArg Prod.snd ht
      decide +kernel⟩
  exact ⟨h.1, h.2.mpr obliging_passes⟩

/-- The same payload is invalid for this one. -/
def rejecting : Replies := { obliging 11 with newPayload := fun _ => .ok (.invalid "") }

/-- An invalid payload is inserted again and again, and the task behind it waits for ever. -/
theorem invalid_payload_wedges_queue :
    payloadQueue.peek = some (.insert gossiped .unsafePayload, 0) ∧
      ∀ attempts, (payloadQueue.drain plainCodecs (plainConfig none) attempts).reply
        rejecting.answer = (none, payloadQueue) := by
  refine ⟨payloadQueue_peek, fun attempts =>
    drainLoop_of_open payloadQueue_peek (payload_wedges ?_ attempts)⟩
  refine ⟨plainRef 11, by decide +kernel, by decide +kernel, Or.inl ?_⟩
  rintro ⟨status, hstatus, haccepted⟩
  cases hstatus
  cases haccepted

/-- An execution layer that rejects the block with the transaction of the attributes and
takes the one with the deposits only. -/
def choosy : Replies where
  newPayload payload := .ok (if payload.blockHash = 66 then .invalid "" else .valid)
  forkchoice _ attributes := .ok ⟨.valid, some
    (if attributes.bind (·.transactions) = some [[0x7e]] then 6 else 66)⟩
  payload id := .ok ⟨{ plainPayload 6 with blockHash := id.setWidth 256 }, false, 0⟩
  block number := .ok (some (plainBlock number))

end SciChain.Engine
