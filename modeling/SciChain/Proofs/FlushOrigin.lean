import SciChain.Proofs.TaskOrigins

namespace SciChain.Node
open Derive Engine Library Procedure

namespace EngineProcessor

section Parts

variable {allowed : (c : NodeCall) → c.Answer → Prop} {asks : NodeCall → Prop}
  {p : EngineProcessor}

theorem ensures_onEngine {α : Type}
    (op : SciChain.Engine → Dialogue Call Call.Answer (α × SciChain.Engine))
    (post : Except ProcessorEnd α → EngineProcessor → Prop) :
    (onEngine op).Ensures allowed asks p post ↔
      (op p.engine).Every (fun c => allowed (.engine c)) (fun c => asks (.engine c))
        (fun o => post (.ok o.1) { p with engine := o.2 }) := by
  refine (Dialogue.every_bind _ _ _).trans (Dialogue.every_embed _ _)

theorem tell_engine (hasks : asks (.tell request)) :
    (tell request).Ensures allowed asks p (fun _ t => t.engine = p.engine) := by
  simp only [tell, ensures_bind, ensures_ask, Then]
  refine ⟨hasks, ?_⟩
  intro taken _
  cases taken <;> rfl

theorem respond_engine (hasks : asks (.respond requester result)) :
    (respond requester result).Ensures allowed asks p (fun _ t => t.engine = p.engine) := by
  simp only [respond, ensures_bind, ensures_ask, Then]
  refine ⟨hasks, ?_⟩
  intro taken _
  cases taken <;> rfl

theorem sendSafeHeadIfUpdated_engine
    (hasks : ∀ safeHead, asks (.tell (.processEngineSafeHeadUpdate safeHead))) :
    sendSafeHeadIfUpdated.Ensures allowed asks p (fun _ t => t.engine = p.engine) := by
  simp only [sendSafeHeadIfUpdated, ensures_bind, ensures_get, Then]
  split
  · rfl
  · simp only [ensures_bind]
    refine (tell_engine (hasks _)).mono ?_
    intro r t ht
    cases r with
    | error e => exact ht
    | ok u => exact ht

end Parts

section Origin

variable (codecs : Codecs) (cfg : EngineConfig) (patience : Patience) {log : Log}
  {seen : List EngineProcessingRequest} {p : EngineProcessor}

/-- The exchange is in the log. -/
def Known (log : Log) (c : NodeCall) (r : c.Answer) : Prop := ⟨c, r⟩ ∈ log

/-- No request is received, and a flush is asked for only when something that was requested
has been rejected. -/
def Justified (seen : List EngineProcessingRequest) (log : Log) : NodeCall → Prop
  | .receive => False
  | .tell (.processEngineSignal .flushChannel) => SomeRejected log seen
  | _ => True

theorem reset_empties (e : SciChain.Engine) (blocks rounds : ℕ) (hasks : ∀ c, asks c) :
    (e.reset codecs cfg blocks rounds).Every allowed asks (fun o => o.2.tasks = []) := by
  simp only [Engine.reset, Dialogue.every_bind]
  exact Dialogue.every_of_forall hasks (fun _ => rfl) _

theorem reset_origin :
    (reset codecs cfg patience).Ensures (Known log) (Justified seen log) p
      (fun _ t => QueueRequested seen t.engine) := by
  simp only [reset, ensures_bind, ensures_onEngine]
  refine (reset_empties codecs cfg p.engine patience.blocks patience.rounds
    (fun _ => trivial)).mono ?_
  rintro ⟨result, e⟩ htasks
  have hqueue : QueueRequested seen e := by
    intro next hnext
    rw [htasks] at hnext
    cases hnext
  cases result with
  | error err => exact hqueue
  | ok found =>
    cases found with
    | none => exact hqueue
    | some l2SafeHead =>
      simp only [Then, ensures_bind]
      refine (tell_engine trivial).mono ?_
      intro r t ht
      have hqueue' : QueueRequested seen t.engine := ht ▸ hqueue
      cases r with
      | error err => exact hqueue'
      | ok u =>
        simp only [Then]
        refine (sendSafeHeadIfUpdated_engine (fun _ => trivial)).mono ?_
        intro r' t' ht'
        exact ht' ▸ hqueue'

theorem markElSyncComplete_origin (hqueue : QueueRequested seen p.engine) :
    (markElSyncComplete codecs cfg patience).Ensures (Known log) (Justified seen log) p
      (fun _ t => QueueRequested seen t.engine) := by
  have hnotify (p' : EngineProcessor) (h : QueueRequested seen p'.engine) :
      (tell (.processEngineSyncCompletion p'.safeHead)).Ensures (Known log) (Justified seen log) p'
        (fun _ t => QueueRequested seen t.engine) :=
    (tell_engine trivial).mono (fun r t ht => ht ▸ h)
  simp only [markElSyncComplete, ensures_bind, ensures_get, ensures_set, Then]
  split
  · simp only [ensures_bind]
    refine (reset_origin codecs cfg patience).mono ?_
    intro r t h
    cases r with
    | error e => exact h
    | ok u => exact hnotify t h
  · exact hnotify _ hqueue

theorem handleTaskError_origin (hflush : e.severity = .flush → SomeRejected log seen)
    (hqueue : QueueRequested seen p.engine) :
    (handleTaskError codecs cfg patience e).Ensures (Known log) (Justified seen log) p
      (fun _ t => QueueRequested seen t.engine) := by
  unfold handleTaskError
  split
  · exact hqueue
  · exact reset_origin codecs cfg patience
  · rename_i hsev
    exact (tell_engine (hflush hsev)).mono (fun r t ht => ht ▸ hqueue)
  · exact hqueue

theorem drain_origin (hqueue : QueueRequested seen p.engine) :
    (drain codecs cfg patience).Ensures (Known log) (Justified seen log) p
      (fun _ t => QueueRequested seen t.engine) := by
  have hrest (p' : EngineProcessor) (h : QueueRequested seen p'.engine) :
      (do sendSafeHeadIfUpdated
          let p ← Procedure.get
          if !p.elSyncComplete && p.engine.state.elSyncFinished then
            markElSyncComplete codecs cfg patience : Processor Unit).Ensures (Known log)
        (Justified seen log) p' (fun _ t => QueueRequested seen t.engine) := by
    simp only [ensures_bind]
    refine (sendSafeHeadIfUpdated_engine (fun _ => trivial)).mono ?_
    intro r t ht
    have hqueue' : QueueRequested seen t.engine := ht ▸ h
    cases r with
    | error e => exact hqueue'
    | ok u =>
      simp only [Then, ensures_get, ensures_bind]
      split
      · exact markElSyncComplete_origin codecs cfg patience hqueue'
      · exact hqueue'
  simp only [drain, ensures_bind, ensures_onEngine]
  refine ((drainLoop_origin codecs cfg patience.attempts p.engine.tasks.length
    hqueue).asks_mono (fun _ _ => trivial)).mono ?_
  rintro ⟨result, e⟩ ⟨htasks, hrejected⟩
  cases result with
  | none => exact htasks
  | some result =>
    cases result with
    | ok u => exact hrest { p with engine := e } htasks
    | error err =>
      simp only [Then, ensures_bind]
      refine (handleTaskError_origin codecs cfg patience (hrejected err rfl) htasks).mono ?_
      intro r t h
      cases r with
      | error e => exact h
      | ok u => exact hrest t h

theorem QueueRequested.enqueue (h : QueueRequested seen e)
    (hreceived : request ∈ seen) (htask : request.task? = some task) :
    QueueRequested seen (e.enqueue task) :=
  List.forall_mem_append.mpr ⟨h, List.forall_mem_singleton.mpr ⟨request, hreceived, htask⟩⟩

theorem handleReset_origin (requester : Requester) (hqueue : QueueRequested seen p.engine) :
    (handleReset codecs cfg patience requester).Ensures (Known log) (Justified seen log) p
      (fun _ t => QueueRequested seen t.engine) := by
  have hrespond (p' : EngineProcessor) (result : Except EngineClientError Unit)
      (h : QueueRequested seen p'.engine) : (respond requester result).Ensures (Known log)
        (Justified seen log) p' (fun _ t => QueueRequested seen t.engine) :=
    (respond_engine trivial).mono (fun r t ht => ht ▸ h)
  simp only [handleReset, ensures_bind, ensures_get, Then]
  split
  · simp only [ensures_bind, ensures_outcome]
    refine (reset_origin codecs cfg patience).mono ?_
    intro r t h
    cases r with
    | ok u =>
      simp only [Then, ensures_bind]
      refine (hrespond t _ h).mono ?_
      intro r' t' h'
      cases r' <;> exact h'
    | error e =>
      cases e with
      | unfinished => exact h
      | error e =>
        simp only [Then, ensures_bind]
        refine (hrespond t _ h).mono ?_
        intro r' t' h'
        cases r' with
        | error e' => exact h'
        | ok taken => cases taken <;> exact h'
  · simp only [ensures_bind]
    refine (hrespond p _ hqueue).mono ?_
    intro r' t' h'
    cases r' <;> exact h'

theorem handle_origin (hreceived : request ∈ seen)
    (hqueue : QueueRequested seen p.engine) :
    (handle codecs cfg patience request).Ensures (Known log) (Justified seen log) p
      (fun _ t => QueueRequested seen t.engine) := by
  have henqueue {task : EngineTask} (htask : request.task? = some task) :
      (enqueue task).Ensures (Known log) (Justified seen log) p
        (fun _ t => QueueRequested seen t.engine) := QueueRequested.enqueue hqueue hreceived htask
  cases request with
  | build attributes => exact henqueue rfl
  | getPayload id attributes => exact henqueue rfl
  | processSafeL2Signal input => exact henqueue rfl
  | processDelegatedForkchoiceUpdate update => exact henqueue rfl
  | processFinalizedL2BlockNumber number => exact henqueue rfl
  | processLocalUnsafeL2Block envelope => exact henqueue rfl
  | sealing id attributes => exact henqueue rfl
  | reset requester => exact handleReset_origin codecs cfg patience requester hqueue
  | processUnsafeL2Block envelope =>
    simp only [handle, handleExternalUnsafeL2Block, ensures_bind, ensures_get, Then]
    split
    · exact henqueue rfl
    · split
      · exact henqueue rfl
      · exact hqueue

end Origin

section Runs

variable (codecs : Codecs) (cfg : EngineConfig) (patience : Patience)
  {seen : List EngineProcessingRequest} {answers : ℕ → (c : NodeCall) → c.Answer}

/-- A flush is preceded by a request, of those seen or received before, and a rejection of it
since the last request was received. -/
def Guarded (seen : List EngineProcessingRequest) (answers : ℕ → (c : NodeCall) → c.Answer)
    {α : Type} (d : Dialogue NodeCall NodeCall.Answer α) (first : ℕ) : Prop :=
  ∀ before x after, d.exchanges answers first = before ++ x :: after →
    x.question = .tell (.processEngineSignal .flushChannel) →
    ∃ earlier drained request, before = earlier ++ drained ∧
      (∀ y ∈ drained, y.question ≠ .receive) ∧
      (request ∈ seen ∨ ⟨.receive, some request⟩ ∈ earlier) ∧ request.Rejected drained

/-- A part that receives nothing and is justified by its own exchanges, before the rest. -/
theorem guarded_bind {α β : Type} {m : Processor α} {f : α → Processor β} {p : EngineProcessor}
    (hm : ∀ log, m.Ensures (Known log) (Justified seen log) p
      (fun _ t => QueueRequested seen t.engine))
    (hf : ∀ a t n, QueueRequested seen t.engine → Guarded seen answers (f a t) n) (first : ℕ) :
    Guarded seen answers ((m >>= f) p) first := by
  intro before x after hsplit hflush
  rcases Dialogue.split_bind hsplit with ⟨after', hfirst⟩ | ⟨before', rfl, hrest⟩
  · have hasks := (hm before).sound_before hfirst (fun y hy => hy)
    rw [hflush] at hasks
    obtain ⟨request, hseen, hrejected⟩ := hasks
    refine ⟨[], before, request, rfl, fun y hy hreceive => ?_, .inl hseen, hrejected⟩
    obtain ⟨earlier, later, rfl⟩ := List.append_of_mem hy
    rw [List.append_assoc, List.cons_append] at hfirst
    have hasks := (hm earlier).sound_before hfirst (fun z hz => hz)
    rwa [hreceive] at hasks
  · have hqueue := ((hm ((m p).exchanges answers first)).sound fun y hy => hy).1
    rcases hvalue : (m p).value answers first with ⟨result, t⟩
    rw [hvalue] at hqueue hrest
    cases result with
    | error e => simp [resume, Dialogue.exchanges] at hrest
    | ok a =>
      obtain ⟨earlier, drained, request, rfl, hquiet, hseen, hrejected⟩ :=
        hf a t _ hqueue before' x after hrest hflush
      refine ⟨(m p).exchanges answers first ++ earlier, drained, request,
        (List.append_assoc ..).symm, hquiet, ?_, hrejected⟩
      exact hseen.imp_right (List.mem_append_right _)

theorem loop_guarded (n : ℕ) {p : EngineProcessor} (hqueue : QueueRequested seen p.engine)
    (first : ℕ) : Guarded seen answers (loop codecs cfg patience n p) first := by
  induction n generalizing seen p first with
  | zero =>
    intro before x after hsplit
    simp [loop, Dialogue.exchanges, pure] at hsplit
  | succ n ih =>
    intro before x after hsplit hflush
    cases before with
    | nil =>
      obtain ⟨rfl, -⟩ := List.cons.inj hsplit
      cases hflush
    | cons y before =>
      obtain ⟨rfl, hrest⟩ := List.cons.inj hsplit
      cases hreceived : answers first .receive with
      | none =>
        rw [hreceived] at hrest
        exact absurd (congrArg List.length hrest) (by simp [fail, lift, resume, Dialogue.exchanges])
      | some request =>
        rw [hreceived] at hrest
        have hguarded : Guarded (request :: seen) answers _ (first + 1) :=
          guarded_bind (fun log => handle_origin codecs cfg patience List.mem_cons_self
              fun next hnext => (hqueue next hnext).imp fun _ h => ⟨List.mem_cons_of_mem _ h.1, h.2⟩)
            (fun _ t m ht => guarded_bind (fun log => drain_origin codecs cfg patience ht)
              (fun _ u k hu => ih hu k) m) (first + 1)
        obtain ⟨earlier, drained, request', rfl, hquiet, hseen, hrejected⟩ :=
          hguarded before x after hrest hflush
        refine ⟨⟨.receive, some request⟩ :: earlier, drained, request', rfl, hquiet, ?_, hrejected⟩
        rcases hseen with hseen | hseen
        · rcases List.mem_cons.mp hseen with rfl | hseen
          · exact .inr List.mem_cons_self
          · exact .inl hseen
        · exact .inr (List.mem_cons_of_mem _ hseen)

end Runs

/-- In a run in which the execution layer never answers INVALID to attributes that the
sequencer wants a block built from, the channel is flushed only after derived attributes or
the payload built from them were rejected, by the answers since the last request. -/
theorem flush_only_after_derived_rejected (codecs : Codecs) (cfg : EngineConfig)
    (patience : Patience) (p : EngineProcessor) (hqueue : p.engine.tasks = []) (n first : ℕ)
    (answers : ℕ → (c : NodeCall) → c.Answer)
    (hbuilds : ∀ attributes, ⟨.receive, some (.build attributes)⟩ ∈
      (start codecs cfg patience n p).exchanges answers first →
        ¬Refused ((start codecs cfg patience n p).exchanges answers first) attributes)
    (before after : Log) (x : Exchange NodeCall NodeCall.Answer)
    (hsplit : (start codecs cfg patience n p).exchanges answers first = before ++ x :: after)
    (hflush : x.question = .tell (.processEngineSignal .flushChannel)) :
    ∃ earlier drained attributes, before = earlier ++ drained ∧
      (∀ y ∈ drained, y.question ≠ .receive) ∧
      ⟨.receive, some (.processSafeL2Signal (.attributes attributes))⟩ ∈ earlier ∧
      Rejected drained attributes := by
  have hnone : QueueRequested [] p.engine := by
    intro next hnext
    rw [hqueue] at hnext
    cases hnext
  have hguarded : Guarded [] answers (start codecs cfg patience n p) first :=
    guarded_bind (fun log => drain_origin codecs cfg patience hnone)
      (fun _ _ m ht => loop_guarded codecs cfg patience n ht m) first
  obtain ⟨earlier, drained, request, rfl, hquiet, hreceived, hrejected⟩ :=
    hguarded before x after hsplit hflush
  have hreceived := hreceived.resolve_left List.not_mem_nil
  cases request with
  | processSafeL2Signal input =>
    obtain ⟨attributes, rfl, h⟩ := hrejected
    exact ⟨earlier, drained, attributes, rfl, hquiet, hreceived, h⟩
  | build attributes =>
    obtain ⟨version, heads, error, id, h⟩ := hrejected
    rw [hsplit] at hbuilds
    exact absurd ⟨version, heads, error, id, List.mem_append_left _ (List.mem_append_right _ h)⟩
      (hbuilds attributes (List.mem_append_left _ (List.mem_append_left _ hreceived)))
  | _ => cases hrejected

/-- A processor whose heads are at the fifth block, with the messages sent so far. -/
def plainProcessor : EngineProcessor where
  engine := ⟨plainState 5 5 5, [], 0⟩
  elSyncComplete := true
  nodeMode := .sequencer
  lastSafeHeadSent := plainRef 5
  sent := []

/-- A world in which the same request comes over and over. -/
def requesting (replies : Replies) (request : EngineProcessingRequest) (_ : ℕ) :
    (c : NodeCall) → c.Answer
  | .engine c => replies.answer c
  | .tell _ => true
  | .receive => some request
  | .respond _ _ => true

def isFlush : NodeCall → Bool
  | .tell (.processEngineSignal .flushChannel) => true
  | _ => false

theorem eq_of_isFlush (h : isFlush c = true) : c = .tell (.processEngineSignal .flushChannel) := by
  unfold isFlush at h
  split at h
  · rfl
  · cases h

theorem flush_at (log : Log) (i : ℕ)
    (h : log[i]?.map (fun x => isFlush x.question) = some true) :
    ∃ x after, log = log.take i ++ x :: after ∧
      x.question = .tell (.processEngineSignal .flushChannel) := by
  obtain ⟨x, hx, hflush⟩ := Option.map_eq_some_iff.mp h
  obtain ⟨hi, rfl⟩ := List.getElem?_eq_some_iff.mp hx
  refine ⟨log[i], log.drop (i + 1), ?_, eq_of_isFlush hflush⟩
  rw [← List.drop_eq_getElem_cons hi, List.take_append_drop]

theorem received_requesting
    {p : Dialogue NodeCall NodeCall.Answer (Except ProcessorEnd Unit × EngineProcessor)}
    (h : ⟨.receive, some request'⟩ ∈ p.exchanges (requesting replies request) 0) :
    request' = request := by
  have hanswer := Dialogue.exchanges_answered
    (P := fun c r => c = .receive → HEq r (some request)) (fun _ c hc => by subst hc; rfl) h rfl
  cases hanswer
  rfl

/-- The exchanges of a run at the end of which derived attributes were rejected and replaced by
their deposits. -/
def derivedRun : Log :=
  (start plainCodecs (plainConfig (some 0)) ⟨1, 1, 1⟩ 1 plainProcessor).exchanges
    (requesting choosy (.processSafeL2Signal (.attributes (plainAttributes 5 [[2]])))) 0

theorem flush_only_after_derived_rejected_choosy :
    ∃ earlier drained attributes, derivedRun.take 8 = earlier ++ drained ∧
      (∀ y ∈ drained, y.question ≠ .receive) ∧
      ⟨.receive, some (.processSafeL2Signal (.attributes attributes))⟩ ∈ earlier ∧
      Rejected drained attributes := by
  obtain ⟨x, after, hsplit, hflush⟩ := flush_at derivedRun 8 (by decide +kernel)
  refine flush_only_after_derived_rejected plainCodecs (plainConfig (some 0)) ⟨1, 1, 1⟩
    plainProcessor rfl 1 0
    (requesting choosy (.processSafeL2Signal (.attributes (plainAttributes 5 [[2]])))) ?_
    (derivedRun.take 8) after x hsplit hflush
  intro attributes hreceived
  cases received_requesting hreceived

/-- An execution layer that answers INVALID to attributes. -/
def refusing : Replies :=
  { obliging 6 with
    forkchoice := fun _ attributes =>
      .ok ⟨if attributes.isSome then .invalid "" else .valid, none⟩ }

def sequencerRun : Log :=
  (start plainCodecs (plainConfig (some 0)) ⟨1, 1, 1⟩ 1 plainProcessor).exchanges
    (requesting refusing (.build (plainAttributes 5 []))) 0

/-- A block of the sequencer that the execution layer does not want to build flushes the
channel, though no derived attributes were ever received. -/
theorem sequencer_build_flushes_channel :
    (∃ x ∈ sequencerRun, x.question = .tell (.processEngineSignal .flushChannel)) ∧
      ∀ input, ⟨.receive, some (.processSafeL2Signal input)⟩ ∉ sequencerRun := by
  obtain ⟨x, after, hsplit, hflush⟩ := flush_at sequencerRun 2 (by decide +kernel)
  refine ⟨⟨x, by rw [hsplit]; exact List.mem_append_right _ List.mem_cons_self, hflush⟩, ?_⟩
  intro input hreceived
  cases received_requesting hreceived

end EngineProcessor
end SciChain.Node
