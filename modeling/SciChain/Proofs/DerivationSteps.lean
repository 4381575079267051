import SciChain.Node.Derivation

namespace SciChain.Node
open Derive Engine Library Procedure

/-! What the derivation actor does with a request, for all answers of the world. -/

/-- An end that is not a transition that the state machine does not have. -/
def DerivationEnd.Regular (e : DerivationEnd) : Prop := ∀ err, e ≠ .error (.stateTransition err)

theorem regular_unfinished : DerivationEnd.Regular .unfinished := fun _ h => by cases h

theorem regular_yield : DerivationEnd.Regular (.error .yield) := fun _ h => by cases h

theorem regular_notDerived : DerivationEnd.Regular (.error .notDerived) := fun _ h => by cases h

theorem regular_pipeline (e : StepError) : DerivationEnd.Regular (.error (.pipeline e)) :=
  fun _ h => by cases h

theorem regular_sender (e : EngineClientError) : DerivationEnd.Regular (.error (.sender e)) :=
  fun _ h => by cases h

namespace DerivationActor

variable {allowed : (c : DerivationCall) → c.Answer → Prop} {s : DerivationActor}

/-- The actor in another state of its machine. -/
def withState (s : DerivationActor) (state : DerivationState) : DerivationActor :=
  { s with machine := { s.machine with state } }

@[simp] theorem withState_sent (s : DerivationActor) (state : DerivationState) :
    (s.withState state).sent = s.sent := rfl

theorem send_ensures (request : EngineProcessingRequest) :
    (send request).Ensures allowed (fun _ => True) s (fun r t =>
      (r = .ok () ∧ t = { s with sent := s.sent ++ [request] }) ∨
      ∃ e, r = .error (.error (.sender e)) ∧ t = s) := by
  simp only [send, ensures_bind, ensures_ask, Then]
  refine ⟨trivial, ?_⟩
  intro result _
  cases result with
  | error e => exact .inr ⟨e, rfl, rfl⟩
  | ok u => exact .inl ⟨rfl, rfl⟩

/-- The end of an attempt to find attributes: nothing has changed, or a reset was asked for
and is waited for. -/
inductive Sought {α : Type} (s : DerivationActor) : Except DerivationEnd α → DerivationActor → Prop
  | found (a : α) : Sought s (.ok a) s
  | failed (e : DerivationEnd) (h : e.Regular) : Sought s (.error e) s
  | reset : Sought s (.error (.error .yield))
      { s.withState .awaitingSignal with sent := s.sent ++ [.reset .derivation] }

theorem Sought.bind {α β : Type} {m : Derivation α} {f : α → Derivation β}
    (hm : m.Ensures allowed (fun _ => True) s (Sought s))
    (hf : ∀ a, (f a).Ensures allowed (fun _ => True) s (Sought s)) :
    (m >>= f).Ensures allowed (fun _ => True) s (Sought s) := by
  refine (ensures_bind _ _ _).mpr (hm.mono ?_)
  intro r t h
  cases h with
  | found a => exact hf a
  | failed e h => exact .failed e h
  | reset => exact .reset

theorem sought_ask (c : DerivationCall) :
    (Procedure.ask c : Derivation c.Answer).Ensures allowed (fun _ => True) s (Sought s) :=
  ⟨trivial, fun r _ => .found r⟩

section

variable (hstate : s.machine.state = .deriving)
include hstate

/-- The engine is asked for a reset, and the machine waits for it. -/
theorem seekReset_sought :
    (do send (.reset .derivation); update .signalNeeded
        Procedure.fail (.error .yield) : Derivation Bool).Ensures allowed (fun _ => True) s
      (Sought s) := by
  simp only [ensures_bind]
  refine (send_ensures (.reset .derivation)).mono ?_
  rintro r t (⟨rfl, rfl⟩ | ⟨e, rfl, rfl⟩)
  · simp only [Then, update, ensures_bind, ensures_get, ensures_lift,
      DerivationStateMachine.update, hstate, transition]
    exact .reset
  · exact .failed _ (regular_sender e)

theorem handleStepError_sought (safeHead : L2BlockInfo) (e : StepError) :
    (handleStepError safeHead e).Ensures allowed (fun _ => True) s (Sought s) := by
  unfold handleStepError
  split
  · exact .found _
  · exact .failed _ regular_yield
  · refine Sought.bind (sought_ask _) (fun result => ?_)
    cases result with
    | error e => exact .failed _ (regular_pipeline e)
    | ok u => exact .found _
  · exact seekReset_sought hstate
  · exact .failed _ (regular_pipeline _)

theorem handleStepResult_sought (safeHead : L2BlockInfo) (result : StepResult) :
    (handleStepResult safeHead result).Ensures allowed (fun _ => True) s (Sought s) := by
  cases result with
  | preparedAttributes => exact .found _
  | advancedOrigin =>
    refine Sought.bind (sought_ask _) (fun origin => ?_)
    cases origin with
    | none => exact .failed _ (regular_pipeline _)
    | some block => exact .found _
  | originAdvanceErr e => exact handleStepError_sought hstate _ e
  | stepFailed e => exact handleStepError_sought hstate _ e

theorem stepPipeline_sought : stepPipeline.Ensures allowed (fun _ => True) s (Sought s) := by
  unfold stepPipeline
  refine Sought.bind (m := Procedure.get) (.found _) (fun actor =>
    Sought.bind (sought_ask _) (fun result =>
      Sought.bind (handleStepResult_sought hstate _ result) (fun looks => ?_)))
  cases looks with
  | true => exact sought_ask _
  | false => exact .found _

theorem produceNextAttributes_sought (n : ℕ) :
    (produceNextAttributes n).Ensures allowed (fun _ => True) s (Sought s) := by
  induction n with
  | zero => exact .failed _ regular_unfinished
  | succ n ih =>
    refine Sought.bind (stepPipeline_sought hstate) (fun found => ?_)
    cases found with
    | some attributes => exact .found _
    | none => exact ih

end

/-- The end of an attempt to derive: attributes are on their way and their confirmation is
waited for, more data is waited for, a reset is waited for, or the actor has ended. -/
inductive Attempt (s : DerivationActor) : Except DerivationEnd Unit → DerivationActor → Prop
  | derived (a : AttributesWithParent) (finalizer : L2Finalizer)
      (h : s.finalizer.enqueueForFinalization a = some finalizer) :
      Attempt s (.ok ()) { s.withState .awaitingSafeHeadConfirmation with
        finalizer
        pendingDerivedFrom := a.derivedFrom
        sent := s.sent ++ [.processSafeL2Signal (.attributes a)] }
  | waiting : Attempt s (.ok ()) (s.withState .awaitingL1Data)
  | reset : Attempt s (.ok ())
      { s.withState .awaitingSignal with sent := s.sent ++ [.reset .derivation] }
  | failed (e : DerivationEnd) (t : DerivationActor) (h : e.Regular) (hsent : t.sent = s.sent) :
      Attempt s (.error e) t

theorem dispatch_attempt (hstate : s.machine.state = .deriving) (a : AttributesWithParent) :
    (dispatch a).Ensures allowed (fun _ => True) s (Attempt s) := by
  have hupdate : s.machine.update (.newAttributesDerived a) =
      .ok { s.machine with state := .awaitingSafeHeadConfirmation } := by
    simp only [DerivationStateMachine.update, hstate]
    rfl
  simp only [dispatch, update, ensures_bind, ensures_get, ensures_lift, ensures_set, Then, hupdate,
    mapError_value]
  cases henqueue : s.finalizer.enqueueForFinalization a with
  | none => exact .failed _ _ regular_notDerived rfl
  | some finalizer =>
    simp only [ensures_bind, ensures_set, Then]
    refine (send_ensures _).mono ?_
    rintro r t (⟨rfl, rfl⟩ | ⟨e, rfl, rfl⟩)
    · exact .derived a finalizer henqueue
    · exact .failed _ _ (regular_sender e) rfl

theorem attemptDerivation_attempt (hstate : s.machine.state = .deriving) (steps : ℕ) :
    (attemptDerivation steps).Ensures allowed (fun _ => True) s (Attempt s) := by
  simp only [attemptDerivation, ensures_bind, ensures_get, Then, if_pos hstate, ensures_outcome]
  refine (produceNextAttributes_sought hstate steps).mono ?_
  intro r t h
  cases h with
  | found a => exact dispatch_attempt hstate a
  | failed e h =>
    cases e with
    | unfinished => exact .failed _ _ h rfl
    | error e =>
      cases e with
      | yield =>
        simp only [update, ensures_bind, ensures_get, ensures_lift, Then,
          DerivationStateMachine.update, hstate, transition]
        exact .waiting
      | pipeline e => exact .failed _ _ h rfl
      | sender e => exact .failed _ _ h rfl
      | requestReceiveFailed => exact .failed _ _ h rfl
      | stateTransition e => exact .failed _ _ h rfl
      | notDerived => exact .failed _ _ h rfl
  | reset => exact .reset

theorem attemptDerivation_skips (hstate : s.machine.state ≠ .deriving) (steps : ℕ) :
    (attemptDerivation steps).Ensures allowed (fun _ => True) s
      (fun r t => r = .ok () ∧ t = s) := by
  simp only [attemptDerivation, ensures_bind, ensures_get, Then, if_neg hstate]
  exact ⟨rfl, rfl⟩

/-- An update of the state machine, which has the transition or not. -/
inductive Updated (s : DerivationActor) (u : DerivationStateUpdate) :
    Except DerivationEnd Unit → DerivationActor → Prop
  | valid (machine : DerivationStateMachine) (h : s.machine.update u = .ok machine) :
      Updated s u (.ok ()) { s with machine }
  | invalid (e : DerivationStateTransitionError) (h : s.machine.update u = .error e) :
      Updated s u (.error (.error (.stateTransition e))) s

theorem update_updated (u : DerivationStateUpdate) :
    (update u).Ensures allowed (fun _ => True) s (Updated s u) := by
  simp only [update, ensures_bind, ensures_get, ensures_lift, Then]
  cases h : s.machine.update u with
  | error e => exact .invalid e h
  | ok machine => exact .valid machine h

/-- An update of the state machine with the attempt to derive that follows it. -/
inductive Advanced (s : DerivationActor) (u : DerivationStateUpdate) :
    Except DerivationEnd Unit → DerivationActor → Prop
  | invalid (e : DerivationStateTransitionError) (h : s.machine.update u = .error e) :
      Advanced s u (.error (.error (.stateTransition e))) s
  | skipped (machine : DerivationStateMachine) (h : s.machine.update u = .ok machine)
      (hstate : machine.state ≠ .deriving) : Advanced s u (.ok ()) { s with machine }
  | attempted (machine : DerivationStateMachine) (h : s.machine.update u = .ok machine)
      (hstate : machine.state = .deriving) (r : Except DerivationEnd Unit) (t : DerivationActor)
      (ha : Attempt { s with machine } r t) : Advanced s u r t

theorem update_advanced (u : DerivationStateUpdate) (steps : ℕ) :
    (do update u; attemptDerivation steps : Derivation Unit).Ensures allowed (fun _ => True) s
      (Advanced s u) := by
  simp only [ensures_bind]
  refine (update_updated u).mono ?_
  intro r t h
  cases h with
  | invalid e h => exact .invalid e h
  | valid machine h =>
    by_cases hstate : machine.state = .deriving
    · exact (attemptDerivation_attempt hstate steps).mono
        (fun r t ha => .attempted machine h hstate r t ha)
    · refine (attemptDerivation_skips hstate steps).mono ?_
      rintro r t ⟨rfl, rfl⟩
      exact .skipped machine h hstate

/-- What a signal does to the actor, apart from the state machine. -/
def afterSignal (s : DerivationActor) : Signal → DerivationActor
  | .reset _ => { s with finalizer := .clear, pendingDerivedFrom := none }
  | _ => s

section Requests

variable (steps : ℕ)

theorem handle_signal (sig : Signal) :
    (handle steps (.processEngineSignal sig)).Ensures allowed (fun _ => True) s
      (Updated (s.afterSignal sig) .signalProcessed) := by
  simp only [handle, signal, ensures_bind]
  cases sig with
  | reset safeHead =>
    simp only [ensures_bind, ensures_get, ensures_set, ensures_ask, Then]
    exact ⟨trivial, fun _ _ => ⟨trivial, fun _ _ => update_updated _⟩⟩
  | activation safeHead => exact ⟨trivial, fun _ _ => update_updated _⟩
  | flushChannel => exact ⟨trivial, fun _ _ => update_updated _⟩

theorem handle_l1Head (l1Head : BlockInfo) :
    (handle steps (.processL1HeadUpdate l1Head)).Ensures allowed (fun _ => True) s
      (Advanced s .l1DataReceived) := update_advanced _ steps

theorem handle_safeHead (safeHead : L2BlockInfo) :
    (handle steps (.processEngineSafeHeadUpdate safeHead)).Ensures allowed (fun _ => True) s
      (Advanced { s with pendingDerivedFrom := none } (.newAttributesConfirmed safeHead)) := by
  simp only [handle, ensures_bind, ensures_get, ensures_set, ensures_ask, Then]
  refine ⟨trivial, fun _ _ => ?_⟩
  exact (ensures_bind _ _ _).mp (update_advanced _ steps)

theorem handle_syncCompletion (safeHead : L2BlockInfo) :
    (handle steps (.processEngineSyncCompletion safeHead)).Ensures allowed (fun _ => True) s
      (Advanced s (.elSyncCompleted safeHead)) := by
  simp only [handle, ensures_bind, ensures_ask, Then]
  refine ⟨trivial, fun _ _ => ?_⟩
  exact (ensures_bind _ _ _).mp (update_advanced _ steps)

/-- A finalized L1 block: the finalizer has a block for it, which the engine is asked to
finalize, or it has none. -/
inductive Finalized (s : DerivationActor) (l1 : BlockInfo) :
    Except DerivationEnd Unit → DerivationActor → Prop
  | nothing (h : (s.finalizer.tryFinalizeNext l1).1 = none) : Finalized s l1 (.ok ())
      { s with finalizer := (s.finalizer.tryFinalizeNext l1).2 }
  | requested (n : U64) (h : (s.finalizer.tryFinalizeNext l1).1 = some n) : Finalized s l1 (.ok ())
      { s with
        finalizer := (s.finalizer.tryFinalizeNext l1).2
        sent := s.sent ++ [.processFinalizedL2BlockNumber n] }
  | failed (e : EngineClientError) : Finalized s l1 (.error (.error (.sender e)))
      { s with finalizer := (s.finalizer.tryFinalizeNext l1).2 }

theorem handle_finalized (l1 : BlockInfo) :
    (handle steps (.processFinalizedL1Block l1)).Ensures allowed (fun _ => True) s
      (Finalized s l1) := by
  simp only [handle, ensures_bind, ensures_get, ensures_set, Then]
  cases h : (s.finalizer.tryFinalizeNext l1).1 with
  | none => exact .nothing h
  | some n =>
    refine (send_ensures _).mono ?_
    rintro r t (⟨rfl, rfl⟩ | ⟨e, rfl, rfl⟩)
    · exact .requested n h
    · exact .failed e

end Requests

end DerivationActor
end SciChain.Node
