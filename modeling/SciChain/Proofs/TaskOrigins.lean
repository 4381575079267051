import SciChain.Node.Processor
import SciChain.Proofs.EngineProgress

namespace SciChain.Node
open Derive Engine Library Procedure

/-- All that the processor has exchanged with the world up to some point. -/
abbrev Log := List (Exchange NodeCall NodeCall.Answer)

/-- The call and its answer are in the log. -/
def Logged (log : Log) (c : Call) (r : c.Answer) : Prop := ⟨.engine c, r⟩ ∈ log

/-- The execution layer has begun to build from the attributes. -/
def Started (log : Log) (attributes : AttributesWithParent) (id : PayloadId) : Prop :=
  ∃ version heads status, Logged log (.forkchoiceUpdated version heads (some attributes.attributes))
    (.ok ⟨status, some id⟩)

/-- The execution layer has answered INVALID to the attributes. -/
def Refused (log : Log) (attributes : AttributesWithParent) : Prop :=
  ∃ version heads error id, Logged log
    (.forkchoiceUpdated version heads (some attributes.attributes)) (.ok ⟨.invalid error, id⟩)

/-- The execution layer has rejected the payload that it has built under the id. -/
def RejectedBuilt (log : Log) (attributes : AttributesWithParent) (id : PayloadId) : Prop :=
  ∃ version response root status, Logged log (.getPayload version id) (.ok response) ∧
    Logged log (.newPayload (envelopeOf version attributes response).executionPayload root)
      (.ok status) ∧ checkNewPayloadStatus status = false

/-- The execution layer has rejected the attributes or the payload built from them. -/
def Rejected (log : Log) (attributes : AttributesWithParent) : Prop :=
  Refused log attributes ∨ ∃ id, Started log attributes id ∧ RejectedBuilt log attributes id

section Severity

theorem SynchronizeTaskError.severity_ne_flush (e : SynchronizeTaskError) :
    e.severity ≠ .flush := by
  cases e <;> exact nofun

theorem InsertTaskError.severity_ne_flush (e : InsertTaskError) : e.severity ≠ .flush := by
  cases e with
  | forkchoiceUpdateFailed e => exact SynchronizeTaskError.severity_ne_flush e
  | _ => exact nofun

theorem FinalizeTaskError.severity_ne_flush (e : FinalizeTaskError) : e.severity ≠ .flush := by
  cases e with
  | forkchoiceUpdateFailed e => exact SynchronizeTaskError.severity_ne_flush e
  | _ => exact nofun

end Severity

section Explained

variable {ε δ α β : Type} {severity : ε → EngineTaskErrorSeverity} {started : α → Prop}
  {blamed : Prop} {log : Log}

/-- A result with its origin: what a value goes back to, and what a flush is to be blamed on. -/
def Explained (severity : ε → EngineTaskErrorSeverity) (started : α → Prop) (blamed : Prop) :
    Except ε α → Prop
  | .ok a => started a
  | .error e => severity e = .flush → blamed

/-- The results of a task whose exchanges are in the log. -/
def Explains (log : Log) (severity : ε → EngineTaskErrorSeverity) (started : α → Prop)
    (blamed : Prop) (m : Task ε α) : Prop :=
  ∀ s, m.Ensures (Logged log) (fun _ => True) s fun r _ => Explained severity started blamed r

theorem Explains.bind {m : Task ε α} {f : α → Task ε β} {ends : β → Prop}
    (h : Explains log severity started blamed m)
    (hf : ∀ a, started a → Explains log severity ends blamed (f a)) :
    Explains log severity ends blamed (m >>= f) := by
  intro s
  rw [ensures_bind]
  refine (h s).mono fun r t hr => ?_
  cases r with
  | ok a => exact hf a hr t
  | error e => exact hr

theorem Explains.mapError {m : Task δ α} {inner : δ → EngineTaskErrorSeverity}
    (h : Explains log inner started blamed m) {f : δ → ε} (hf : ∀ e, severity (f e) = inner e) :
    Explains log severity started blamed (m.mapError f) := by
  intro s
  rw [ensures_mapError]
  refine (h s).mono fun r t hr => ?_
  cases r with
  | ok a => exact hr
  | error e => exact fun hsev => hr ((hf e).symm.trans hsev)

theorem Explains.imp {m : Task ε α} (h : Explains log severity started blamed m)
    (hblamed : blamed → blamed') : Explains log severity started blamed' m := by
  refine fun s => (h s).mono fun r t hr => ?_
  cases r with
  | ok a => exact hr
  | error e => exact fun hsev => hblamed (hr hsev)

theorem Explains.outcome {m : Task ε α} (h : Explains log severity started blamed m)
    {severity' : δ → EngineTaskErrorSeverity} :
    Explains log severity' (Explained severity started blamed) blamed' m.outcome := by
  intro s
  rw [ensures_outcome]
  exact h s

theorem explains_ask (q : Call) :
    Explains log severity (Logged log q) blamed (ask q : Task ε q.Answer) :=
  fun _ => ⟨trivial, fun _ hr => hr⟩

theorem explains_get :
    Explains log severity (fun _ => True) blamed (Procedure.get : Task ε EngineState) :=
  fun _ => trivial

theorem explains_ite [Decidable p] {m n : Task ε α} (hm : Explains log severity started blamed m)
    (hn : Explains log severity started blamed n) :
    Explains log severity started blamed (if p then m else n) := by
  split_ifs
  · exact hm
  · exact hn

/-- A task without an error that flushes. -/
theorem explains_of_never (hnever : ∀ e, severity e ≠ .flush) (m : Task ε α) :
    Explains log severity (fun _ => True) blamed m := by
  refine fun s => ensures_of_forall (fun r t => ?_) m
  cases r with
  | ok a => trivial
  | error e => exact fun hsev => absurd hsev (hnever e)

end Explained

section Tasks

variable (codecs : Codecs) (cfg : EngineConfig) (log : Log)

theorem startBuild_origin (attributes : AttributesWithParent) :
    Explains log (fun e => (BuildTaskError.engineBuildError e).severity) (Started log attributes)
      (Refused log attributes) (startBuild cfg attributes) := by
  refine explains_get.bind fun s _ => ?_
  dsimp only
  split
  · exact fun _ => nofun
  · refine (explains_ask _).bind fun r hr t => ?_
    cases r with
    | error e =>
      intro hsev
      simp only [EngineBuildError.ofRpc] at hsev
      split at hsev <;> cases hsev
    | ok updated =>
      obtain ⟨status, payloadId⟩ := updated
      cases status with
      | invalid error => exact fun _ => ⟨_, _, error, payloadId, hr⟩
      | valid =>
        cases payloadId with
        | none => exact nofun
        | some id => exact ⟨_, _, _, hr⟩
      | _ => exact nofun

theorem build_origin (attributes : AttributesWithParent) (hasChannel : Bool) :
    Explains log BuildTaskError.severity (Started log attributes) (Refused log attributes)
      (build cfg attributes hasChannel) := by
  refine ((startBuild_origin cfg log attributes).mapError fun _ => rfl).bind fun id hid => ?_
  cases hasChannel with
  | false => exact fun _ => hid
  | true =>
    refine (explains_ask _).bind fun taken _ => ?_
    cases taken with
    | true => exact fun _ => hid
    | false => exact fun _ => nofun

theorem sealPayload_origin (id : PayloadId) (attributes : AttributesWithParent) :
    Explains log SealTaskError.severity (fun envelope => ∃ version response,
      Logged log (.getPayload version id) (.ok response) ∧
        envelope = envelopeOf version attributes response) blamed
      (sealPayload cfg id attributes) := by
  refine (explains_ask _).bind fun r hr => ?_
  cases r with
  | error e => exact fun _ => nofun
  | ok response => exact fun _ => ⟨_, response, hr, rfl⟩

theorem newBlockRef_error (envelope : BaseExecutionPayloadEnvelope) (status : PayloadStatusEnum) :
    newBlockRef codecs cfg envelope ≠ .error (.unexpectedPayloadStatus status) := by
  intro h
  rw [newBlockRef, bind_error] at h
  rcases h with h | ⟨block, _, h⟩
  · obtain ⟨e, _, he⟩ := (mapError_eq_error _ _ _).mp h
    cases he
  · obtain ⟨e, _, he⟩ := (mapError_eq_error _ _ _).mp h
    cases he

theorem insert_origin (envelope : BaseExecutionPayloadEnvelope) (safety : InsertPayloadSafety)
    (s : EngineState) :
    (insert codecs cfg envelope safety).Ensures (Logged log) (fun _ => True) s (fun r _ =>
      ∀ status, r = .error (.unexpectedPayloadStatus status) → ∃ root,
        Logged log (.newPayload envelope.executionPayload root) (.ok status) ∧
          checkNewPayloadStatus status = false) := by
  simp only [Engine.insert, ensures_bind, ensures_lift]
  cases href : newBlockRef codecs cfg envelope with
  | error e =>
    intro status h
    cases h
    exact absurd href (newBlockRef_error codecs cfg envelope status)
  | ok ref =>
    simp only [Then, ensures_bind, ensures_get]
    split
    · simp only [Task.newPayload, ensures_bind, ensures_ask, Then]
      refine ⟨trivial, ?_⟩
      intro r hr
      cases r with
      | error e => exact fun _ h => by cases h
      | ok status =>
        simp only [mapError_value, ensures_lift, Then]
        split
        · rw [ensures_mapError]
          refine ensures_of_forall (fun x t status' h => ?_) _
          obtain ⟨e, _, he⟩ := (mapError_eq_error x _ _).mp h
          cases he
        · rename_i hstatus
          intro status' h
          cases h
          exact ⟨_, hr, by simpa using hstatus⟩
    · exact fun _ h => by cases h

theorem insertPayload_origin (attributes : AttributesWithParent) (safety : InsertPayloadSafety)
    (envelope : BaseExecutionPayloadEnvelope) :
    Explains log SealTaskError.severity (fun _ => True) (∃ root status,
      Logged log (.newPayload envelope.executionPayload root) (.ok status) ∧
        checkNewPayloadStatus status = false)
      (insertPayload codecs cfg reattempt attributes safety envelope) := by
  intro s
  simp only [insertPayload, ensures_bind, ensures_outcome]
  refine (insert_origin codecs cfg log envelope safety s).mono fun r t h => ?_
  cases r with
  | ok u => trivial
  | error e =>
    cases e with
    | unexpectedPayloadStatus status =>
      obtain ⟨root, hrejected⟩ := h status rfl
      simp only [Then]
      split
      · exact fun h => by cases h
      · split
        · simp only [ensures_bind, ensures_outcome]
          refine ensures_of_forall (fun x u => ?_) _
          cases x <;> exact fun _ => ⟨root, status, hrejected⟩
        · exact fun _ => ⟨root, status, hrejected⟩
    | forkchoiceUpdateFailed e =>
      exact fun hsev => absurd hsev (SynchronizeTaskError.severity_ne_flush e)
    | _ => exact fun h => by cases h

theorem sealWith_origin (id : PayloadId) (attributes : AttributesWithParent)
    (safety : InsertPayloadSafety) :
    Explains log SealTaskError.severity (fun _ => True) (RejectedBuilt log attributes id)
      (sealWith codecs cfg reattempt id attributes safety false) := by
  have hsealed : Explains log SealTaskError.severity (fun _ => True)
      (RejectedBuilt log attributes id)
      (sealAndCanonicalizeBlock codecs cfg reattempt id attributes safety) := by
    refine (sealPayload_origin cfg log id attributes).bind ?_
    rintro _ ⟨version, response, hresponse, rfl⟩
    cases payloadRef codecs cfg (envelopeOf version attributes response).executionPayload
        attributes.attributes.parentBeaconBlockRoot with
    | error e => exact fun _ => nofun
    | ok ref =>
      refine ((insertPayload_origin codecs cfg log attributes safety _).imp ?_).bind
        fun _ _ _ => trivial
      rintro ⟨root, status, hstatus, hcheck⟩
      exact ⟨version, response, root, status, hresponse, hstatus, hcheck⟩
  refine hsealed.outcome.bind fun result hresult => ?_
  cases result with
  | ok envelope => exact fun _ => trivial
  | error e => exact fun _ => hresult

theorem buildAndSeal_origin (attributes : AttributesWithParent) (safety : InsertPayloadSafety) :
    Explains log BuildAndSealError.severity (fun _ => True) (Rejected log attributes)
      (buildAndSeal codecs cfg attributes safety) := by
  refine Explains.bind (((build_origin cfg log attributes false).imp .inl).mapError fun _ => rfl)
    fun id hid => ?_
  exact ((sealWith_origin codecs cfg log id attributes safety).imp
    fun h => Or.inr ⟨id, hid, h⟩).mapError fun _ => rfl

/-- The attributes of a safe signal, if it has some, were rejected. -/
def InputRejected (input : ConsolidateInput) : Prop :=
  ∃ attributes, input = .attributes attributes ∧ Rejected log attributes

theorem reconcileUnsafeToSafe_origin (input : ConsolidateInput) :
    Explains log ConsolidateTaskError.severity (fun _ => True) (InputRejected log input)
      (reconcileUnsafeToSafe codecs cfg input) := by
  cases input with
  | attributes derived =>
    exact Explains.mapError ((buildAndSeal_origin codecs cfg log derived .safePayload).imp
      fun h => ⟨derived, rfl, h⟩) fun _ => rfl
  | blockInfo info =>
    exact (explains_of_never SynchronizeTaskError.severity_ne_flush _).mapError fun _ => rfl

theorem adoptSafe_origin (input : ConsolidateInput) (info : L2BlockInfo) :
    Explains log ConsolidateTaskError.severity (fun _ => True) blamed (adoptSafe input info) := by
  exact explains_ite
    ((explains_of_never SynchronizeTaskError.severity_ne_flush _).mapError fun _ => rfl)
    fun _ => trivial

theorem consolidateTask_origin (input : ConsolidateInput) :
    Explains log ConsolidateTaskError.severity (fun _ => True) (InputRejected log input)
      (consolidateTask codecs cfg input) := by
  have hreconcile := reconcileUnsafeToSafe_origin codecs cfg log input
  have hfetch : Explains log ConsolidateTaskError.severity (fun _ => True)
      (InputRejected log input) (fetchUnsafe input.l2BlockNumber) := by
    refine (explains_ask _).bind fun r _ => ?_
    rcases r with e | _ | block
    · exact fun _ => nofun
    · exact fun _ => nofun
    · exact fun _ => trivial
  refine explains_get.bind fun s _ => ?_
  refine explains_ite (hfetch.bind fun block _ => explains_ite ?_ hreconcile) hreconcile
  split
  · exact adoptSafe_origin log input _
  · exact hreconcile

theorem sendChannelResult_origin (result : Except SealTaskError BaseExecutionPayloadEnvelope)
    (blamed : Prop) : Explains log SealTaskError.severity (fun _ => True) blamed
      (sendChannelResultOrGetError true result) := by
  refine (explains_ask _).bind fun taken _ => ?_
  cases taken with
  | true => exact fun _ => trivial
  | false => exact fun _ => nofun

theorem delegatedForkchoiceTask_origin (update : DelegatedForkchoiceUpdate) :
    Explains log DelegatedForkchoiceTaskError.severity (fun _ => True) False
      (delegatedForkchoiceTask codecs cfg update) := by
  refine Explains.bind (((consolidateTask_origin codecs cfg log (.blockInfo update.safeL2)).imp
    ?_).mapError fun _ => rfl) fun _ _ => explains_get.bind fun s _ => ?_
  · rintro ⟨_, hinput, _⟩
    cases hinput
  · dsimp only
    split
    · exact fun _ => trivial
    · exact explains_ite (fun _ => trivial)
        ((explains_of_never FinalizeTaskError.severity_ne_flush _).mapError fun _ => rfl)

end Tasks

/-- The task of a request. -/
def EngineProcessingRequest.task? : EngineProcessingRequest → Option EngineTask
  | .build attributes => some (.build attributes true)
  | .getPayload id attributes => some (.getPayload id attributes true)
  | .processSafeL2Signal input => some (.consolidate input)
  | .processDelegatedForkchoiceUpdate update => some (.delegatedForkchoice update)
  | .processFinalizedL2BlockNumber number => some (.finalize number)
  | .processUnsafeL2Block envelope => some (.insert envelope .unsafePayload)
  | .processLocalUnsafeL2Block envelope => some (.insert envelope .unsafePayload)
  | .reset _ => none
  | .sealing id attributes => some (.sealing id attributes .unsafePayload true)

/-- The execution layer has rejected what the request is about. -/
def EngineProcessingRequest.Rejected (log : Log) : EngineProcessingRequest → Prop
  | .build attributes => Refused log attributes
  | .processSafeL2Signal input => InputRejected log input
  | _ => False

section Execution

variable (codecs : Codecs) (cfg : EngineConfig) (log : Log)

theorem executeInner_origin {request : EngineProcessingRequest}
    (htask : request.task? = some task) :
    Explains log EngineTaskErrors.severity (fun _ => True) (request.Rejected log)
      (task.executeInner codecs cfg) := by
  cases request with
  | reset requester => cases htask
  | build attributes =>
    cases htask
    exact Explains.bind ((build_origin cfg log attributes true).mapError fun _ => rfl)
      fun _ _ _ => trivial
  | getPayload id attributes =>
    cases htask
    refine Explains.mapError (explains_get.bind fun s _ => ?_) fun _ => rfl
    dsimp only
    split
    · exact sendChannelResult_origin log _ _
    · exact (@sealPayload_origin cfg log True id attributes).outcome.bind
        fun result _ => sendChannelResult_origin log result _
  | processSafeL2Signal input =>
    cases htask
    exact (consolidateTask_origin codecs cfg log input).mapError fun _ => rfl
  | processDelegatedForkchoiceUpdate update =>
    cases htask
    exact ((delegatedForkchoiceTask_origin codecs cfg log update).imp False.elim).mapError
      fun _ => rfl
  | processFinalizedL2BlockNumber number =>
    cases htask
    exact (explains_of_never FinalizeTaskError.severity_ne_flush _).mapError fun _ => rfl
  | processUnsafeL2Block envelope =>
    cases htask
    exact (explains_of_never InsertTaskError.severity_ne_flush _).mapError fun _ => rfl
  | processLocalUnsafeL2Block envelope =>
    cases htask
    exact (explains_of_never InsertTaskError.severity_ne_flush _).mapError fun _ => rfl
  | sealing id attributes =>
    cases htask
    refine Explains.mapError (fun s => ?_) fun _ => rfl
    simp only [sealTask, sealWith, ensures_bind, ensures_outcome]
    exact ensures_of_forall (fun x t => sendChannelResult_origin log x _ t) _

/-- A task that ends with a flush was rejected in its last attempt. -/
theorem execute_origin (n : ℕ) {request : EngineProcessingRequest}
    (htask : request.task? = some task) (s : EngineState) :
    (task.execute codecs cfg n).Ensures (Logged log) (fun _ => True) s
      (fun r _ => ∀ e, r = .ok (some (.error e)) → e.severity = .flush →
        request.Rejected log) := by
  induction n generalizing s with
  | zero => exact nofun
  | succ n ih =>
    simp only [EngineTask.execute, ensures_bind, ensures_outcome]
    refine (executeInner_origin codecs cfg log htask s).mono fun r t h => ?_
    cases r with
    | ok u => exact nofun
    | error e =>
      simp only [Then]
      split
      · exact ih t
      · intro e' he' hsev
        cases he'
        exact h hsev

/-- Every task in the queue is that of a request that was received. -/
def QueueRequested (seen : List EngineProcessingRequest) (e : SciChain.Engine) : Prop :=
  ∀ next ∈ e.tasks, ∃ request ∈ seen, request.task? = some next.1

/-- What some request that was received is about was rejected. -/
def SomeRejected (seen : List EngineProcessingRequest) : Prop :=
  ∃ request ∈ seen, request.Rejected log

variable {log}

theorem QueueRequested.pop (h : QueueRequested seen e) : QueueRequested seen e.pop := by
  intro next hnext
  unfold Engine.pop at hnext
  split at hnext
  · exact h next hnext
  · exact h next (List.mem_of_mem_erase hnext)

theorem drainLoop_origin (attempts n : ℕ) {e : SciChain.Engine} (h : QueueRequested seen e) :
    (e.drainLoop codecs cfg attempts n).Every (Logged log) (fun _ => True) (fun o =>
      QueueRequested seen o.2 ∧
        ∀ err, o.1 = some (.error err) → err.severity = .flush → SomeRejected log seen) := by
  induction n generalizing e with
  | zero => exact ⟨h, fun _ h => by cases h⟩
  | succ n ih =>
    unfold Engine.drainLoop
    cases hpeek : e.peek with
    | none => exact ⟨h, fun _ h => by cases h⟩
    | some next =>
      obtain ⟨request, hreceived, htask⟩ := h _ (mem_of_peek hpeek)
      simp only [Engine.round, Dialogue.every_bind, Dialogue.every_done]
      refine Dialogue.Every.mono (execute_origin codecs cfg log attempts htask e.state) ?_
      rintro ⟨r, t⟩ horigin
      have hqueue : QueueRequested seen { e with state := t } := h
      cases r with
      | error absurdity => cases absurdity
      | ok result =>
        cases result with
        | none => exact ⟨hqueue, fun _ h => by cases h⟩
        | some result =>
          cases result with
          | ok u => exact ih hqueue.pop
          | error err =>
            refine ⟨?_, fun err' he hsev => ?_⟩
            · simp only
              split
              · exact hqueue.pop
              · exact hqueue
            · cases he
              exact ⟨request, hreceived, horigin err rfl hsev⟩

end Execution

end SciChain.Node
