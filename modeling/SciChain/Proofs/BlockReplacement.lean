import SciChain.Node.Processor
import SciChain.Proofs.EngineProgress
import SciChain.Prover.Driver

namespace SciChain.Node
open Derive Engine Library Procedure Prover EngineProcessor

/-! Attributes that are not executed: what the node builds in their place, and what the proof
program does. -/

/-- The call at which the execution layer decides about attributes, with its answer. -/
inductive Verdict where
  | forkchoiceError (error : RpcError)
  | forkchoiceInvalid (validationError : String)
  | getPayloadError (error : RpcError)
  | newPayload (status : PayloadStatusEnum)
  deriving DecidableEq, Repr

def Verdict.rejects : Verdict → Bool
  | .forkchoiceError _ => true
  | .forkchoiceInvalid _ => true
  | .getPayloadError _ => true
  | .newPayload (.invalid _) => true
  | .newPayload _ => false

/-- The answers that make the node insert the deposits alone. -/
def Verdict.falls : Verdict → Bool
  | .newPayload status => !checkNewPayloadStatus status
  | _ => false

theorem Verdict.falls_iff (verdict : Verdict) : verdict.falls = true ↔
    (∃ e, verdict = .newPayload (.invalid e)) ∨ verdict = .newPayload .accepted := by
  cases verdict with
  | newPayload status => cases status <;> simp [falls, checkNewPayloadStatus]
  | forkchoiceError e => simp [falls]
  | forkchoiceInvalid e => simp [falls]
  | getPayloadError e => simp [falls]

/-- A payload that the execution layer builds. -/
structure Offer where
  id : PayloadId
  response : PayloadResponse

def Offer.envelope (cfg : EngineConfig) (a : AttributesWithParent) (offer : Offer) :
    BaseExecutionPayloadEnvelope :=
  envelopeOf (.fromCfg cfg a.attributes.timestamp) a offer.response

section ExecutionLayer

variable (codecs : Codecs) (cfg : EngineConfig) (answer : (c : Call) → c.Answer)

/-- The execution layer builds a payload from the attributes, which is the block `ref`, and gives
it a status. -/
structure Builds (a : AttributesWithParent) (offer : Offer) (status : PayloadStatusEnum)
    (ref : L2BlockInfo) : Prop where
  started : ∀ version heads,
    answer (.forkchoiceUpdated version heads (some a.attributes)) = .ok ⟨.valid, some offer.id⟩
  built : ∀ version, answer (.getPayload version offer.id) = .ok offer.response
  described : payloadRef codecs cfg (offer.envelope cfg a).executionPayload
    a.attributes.parentBeaconBlockRoot = .ok ref
  inserted : newBlockRef codecs cfg (offer.envelope cfg a) = .ok ref
  judged : ∀ root, answer (.newPayload (offer.envelope cfg a).executionPayload root) = .ok status

/-- The answers about the attributes. An error that is about the heads of the message is none
about its attributes. -/
def Rules (a : AttributesWithParent) (ref : L2BlockInfo) : Verdict → Prop
  | .forkchoiceError e => e.isInvalidForkchoiceState = false ∧ ∀ version heads,
      answer (.forkchoiceUpdated version heads (some a.attributes)) = .error e
  | .forkchoiceInvalid e => ∀ version heads, ∃ id,
      answer (.forkchoiceUpdated version heads (some a.attributes)) = .ok ⟨.invalid e, id⟩
  | .getPayloadError e => ∃ id, (∀ version heads,
      answer (.forkchoiceUpdated version heads (some a.attributes)) = .ok ⟨.valid, some id⟩) ∧
        ∀ version, answer (.getPayload version id) = .error e
  | .newPayload status => ∃ offer, Builds codecs cfg answer a offer status ref

/-- The execution layer has the block of the attributes already. -/
def Holds (heads : EngineSyncState) (a : AttributesWithParent) : Prop :=
  heads.safeHead.blockInfo.number < heads.unsafeHead.blockInfo.number ∧ ∃ block info,
    answer (.l2BlockByLabel a.blockNumber) = .ok (some block) ∧
      (ConsolidateInput.attributes a).isConsistentWithBlock codecs cfg block = true ∧
        blockInfoOf codecs cfg block.intoConsensus = .ok info

/-- An execution layer that decides so about the attributes and takes the block of their
deposits. It has all blocks up to its head, and none that it rejects. -/
structure Layer (heads : EngineSyncState) (a : AttributesWithParent) (verdict : Verdict)
    (ref replacement : L2BlockInfo) : Prop where
  rules : Rules codecs cfg answer a ref verdict
  replaces : ∃ offer, Builds codecs cfg answer a.asDepositsOnly offer .valid replacement
  moves : ∀ heads, ∃ id, answer (.forkchoiceUpdated .v3 heads none) = .ok ⟨.valid, id⟩
  found : heads.safeHead.blockInfo.number < heads.unsafeHead.blockInfo.number →
    ∃ block, answer (.l2BlockByLabel a.blockNumber) = .ok (some block)
  honest : verdict.rejects = true → ¬Holds codecs cfg answer heads a

end ExecutionLayer

/-- Heads in order, below the blocks that may come next. -/
structure Below (heads : EngineSyncState) (ref replacement : L2BlockInfo) : Prop where
  ordered : heads.Ordered
  ref_above : heads.safeHead.blockInfo.number < ref.blockInfo.number
  replacement_above : heads.safeHead.blockInfo.number < replacement.blockInfo.number

section Attempts

variable {codecs : Codecs} {cfg : EngineConfig} {answer : (c : Call) → c.Answer}
  {a : AttributesWithParent} {s : EngineState} {ref replacement : L2BlockInfo}

theorem startBuild_reply (hbehind : ¬s.syncState.unsafeHead.blockInfo.number <
      s.syncState.finalizedHead.blockInfo.number) :
    (startBuild cfg a).reply answer s = (do
      let updated ← (answer (.forkchoiceUpdated (.fromCfg cfg a.attributes.timestamp)
        (buildHeads s a) (some a.attributes))).mapError .ofRpc
      validateForkchoiceStatus updated.payloadStatus
      updated.payloadId.elim (.error .missingPayloadId) .ok, s) := by
  rw [startBuild, reply_bind_ok (reply_get answer s)]
  simp only [if_neg hbehind]
  rw [reply_bind_ok (m := Task.forkchoiceUpdated _ _ _) rfl]
  rcases answer (.forkchoiceUpdated (.fromCfg cfg a.attributes.timestamp)
    (buildHeads s a) (some a.attributes)) with e | ⟨status, id⟩
  · rfl
  · cases status with
    | valid => cases id <;> rfl
    | invalid e => rfl
    | syncing => rfl
    | accepted => rfl

theorem build_reply (h : (startBuild cfg a).reply answer s = (r, s)) :
    (build cfg a false).reply answer s = (r.mapError .engineBuildError, s) := by
  have hinner : ((startBuild cfg a).mapError BuildTaskError.engineBuildError).reply answer s =
      (r.mapError .engineBuildError, s) := by rw [reply_mapError, h]
  cases r with
  | error e => exact reply_bind_error hinner
  | ok id => exact reply_bind_ok hinner

theorem buildAndSealWith_reply {id : PayloadId}
    (hstart : (startBuild cfg a).reply answer s = (.ok id, s))
    (hseal : (sealAndCanonicalizeBlock codecs cfg reattempt id a safety).reply answer s = (r, t)) :
    (buildAndSealWith codecs cfg reattempt a safety).reply answer s =
      ((r.map fun _ => ()).mapError .sealing, t) := by
  have hbuild : ((build cfg a false).mapError BuildAndSealError.build).reply answer s =
      (.ok id, s) := by
    rw [reply_mapError, build_reply hstart]
    rfl
  rw [buildAndSealWith, reply_bind_ok hbuild, reply_mapError, sealWith,
    reply_bind_ok ((reply_outcome _).trans (by rw [hseal]))]
  cases r <;> rfl

section Insert

variable {offer : Offer} {status : PayloadStatusEnum}

theorem Builds.insert_reply (h : Builds codecs cfg answer a offer status ref) :
    (Engine.insert codecs cfg (offer.envelope cfg a) .safePayload).reply answer s =
      if checkNewPayloadStatus status then
        ((synchronize (insertUpdate .safePayload ref)).mapError
          InsertTaskError.forkchoiceUpdateFailed).reply answer s
      else (.error (.unexpectedPayloadStatus status), s) := by
  have hjudged : (Task.newPayload (ε := InsertTaskError) (offer.envelope cfg a).executionPayload
      ((offer.envelope cfg a).executionPayload.version.sidecar
        (offer.envelope cfg a).parentBeaconBlockRoot)).reply answer s = (.ok (.ok status), s) :=
    reply_ask_eq (h.judged _)
  rw [Engine.insert, reply_bind_ok (m := lift _) (by rw [h.inserted]; rfl),
    reply_bind_ok (reply_get answer s),
    if_pos (show isUnsafePayloadApplicable .safePayload s ref = true from rfl),
    reply_bind_ok hjudged]
  cases status <;> rfl

theorem Builds.sealed (h : Builds codecs cfg answer a offer status ref)
    (hbehind : ¬s.syncState.unsafeHead.blockInfo.number <
      s.syncState.finalizedHead.blockInfo.number)
    (hinsert : (insertPayload codecs cfg reattempt a .safePayload
      (offer.envelope cfg a)).reply answer s = (r, t)) :
    (buildAndSealWith codecs cfg reattempt a .safePayload).reply answer s =
      (r.mapError .sealing, t) := by
  have hstart : (startBuild cfg a).reply answer s = (.ok offer.id, s) := by
    rw [startBuild_reply hbehind, h.started]
    rfl
  have hseal : (sealPayload cfg offer.id a).reply answer s = (.ok (offer.envelope cfg a), s) := by
    rw [sealPayload, reply_bind_ok (m := Task.getPayload _ _) (reply_ask_eq (h.built _))]
    rfl
  have hcanonicalize : (sealAndCanonicalizeBlock codecs cfg reattempt offer.id a
      .safePayload).reply answer s = (r.map (fun _ => offer.envelope cfg a), t) := by
    rw [sealAndCanonicalizeBlock, reply_bind_ok hseal,
      reply_bind_ok (m := lift _) (by rw [h.described]; rfl)]
    cases r with
    | error e => exact reply_bind_error hinsert
    | ok u => exact reply_bind_ok hinsert
  rw [buildAndSealWith_reply hstart hcanonicalize]
  cases r <;> rfl

end Insert

theorem not_behind (h : s.syncState.Ordered) : ¬s.syncState.unsafeHead.blockInfo.number <
    s.syncState.finalizedHead.blockInfo.number := by
  unfold EngineSyncState.Ordered at h
  bv_omega

variable {offer : Offer} {status : PayloadStatusEnum}

section

variable (h : Builds codecs cfg answer a offer status ref)
include h

section

variable (hordered : s.syncState.Ordered) (hstatus : checkNewPayloadStatus status = false)
  (hmixed : a.isDepositsOnly = false)
include hordered hstatus hmixed

theorem Builds.refused (hholocene : cfg.rollup.isHoloceneActive a.attributes.timestamp = false)
    (reattempt : Task BuildAndSealError Unit) :
    (buildAndSealWith codecs cfg reattempt a .safePayload).reply answer s =
      (.error (.sealing (.payloadInsertionFailed (.unexpectedPayloadStatus status))), s) := by
  refine h.sealed (r := .error (.payloadInsertionFailed (.unexpectedPayloadStatus status)))
    (not_behind hordered) ?_
  rw [insertPayload, reply_bind_ok (a := .error (.unexpectedPayloadStatus status)) (u := s)
    ((reply_outcome _).trans (by simp [h.insert_reply, hstatus]))]
  simp [hmixed, hholocene]

/-- With Holocene the block of the deposits comes in its place. -/
theorem Builds.fallen (hholocene : cfg.rollup.isHoloceneActive a.attributes.timestamp = true)
    (hreattempt : reattempt.reply answer s = (.ok (), t)) :
    (buildAndSealWith codecs cfg reattempt a .safePayload).reply answer s =
      (.error (.sealing .holoceneInvalidFlush), t) := by
  refine h.sealed (r := .error .holoceneInvalidFlush) (not_behind hordered) ?_
  rw [insertPayload, reply_bind_ok (a := .error (.unexpectedPayloadStatus status)) (u := s)
    ((reply_outcome _).trans (by simp [h.insert_reply, hstatus]))]
  simp only [hmixed, hholocene, Bool.false_eq_true, if_false, if_true]
  rw [reply_bind_ok (a := .ok ()) ((reply_outcome _).trans (by rw [hreattempt]))]
  rfl

end

end

theorem asDepositsOnly_eq (h : a.isDepositsOnly = true) : a.asDepositsOnly = a := by
  have htxs : a.attributes.transactions.map (·.filter isDepositTx) = a.attributes.transactions := by
    unfold AttributesWithParent.isDepositsOnly at h
    cases htxs : a.attributes.transactions with
    | none => rfl
    | some txs =>
      rw [htxs, Option.getD_some, List.all_eq_true] at h
      rw [Option.map_some, List.filter_eq_self.mpr h]
  rw [AttributesWithParent.asDepositsOnly, htxs]

theorem Builds.status_eq (h : Builds codecs cfg answer a offer status ref)
    (h' : Builds codecs cfg answer a offer' status' ref') : status = status' := by
  have hid : offer.id = offer'.id := by
    have hstarted := (h.started .v3 default).symm.trans (h'.started .v3 default)
    injection hstarted with hupdated
    injection hupdated with _ hid
    exact Option.some.inj hid
  have hresponse : offer.response = offer'.response := by
    have hbuilt := h.built .v5
    rw [hid, h'.built .v5] at hbuilt
    exact (Except.ok.inj hbuilt).symm
  have henvelope : offer.envelope cfg a = offer'.envelope cfg a := by
    rw [Offer.envelope, Offer.envelope, hresponse]
  have hjudged := h.judged none
  rw [henvelope, h'.judged none] at hjudged
  exact (Except.ok.inj hjudged).symm

theorem Builds.mixed (h : Builds codecs cfg answer a offer status ref)
    (h' : Builds codecs cfg answer a.asDepositsOnly offer' .valid replacement)
    (hstatus : checkNewPayloadStatus status = false) : a.isDepositsOnly = false := by
  cases honly : a.isDepositsOnly with
  | false => rfl
  | true =>
    rw [asDepositsOnly_eq honly] at h'
    rw [h.status_eq h'] at hstatus
    cases hstatus

/-- What the task makes of the block in the place of the safe one. -/
def fetched (number : U64) :
    Except RpcError (Option RpcBlock) → Except ConsolidateTaskError RpcBlock
  | .ok (some block) => .ok block
  | .ok none => .error (.missingUnsafeL2Block number)
  | .error _ => .error .failedToFetchUnsafeL2Block

theorem fetchUnsafe_reply (number : U64) :
    (fetchUnsafe number).reply answer s =
      (fetched number (answer (.l2BlockByLabel number)), s) := by
  rw [fetchUnsafe, reply_bind_ok (m := Task.l2BlockByLabel number) rfl]
  rcases answer (.l2BlockByLabel number) with e | found
  · rfl
  · cases found <;> rfl

theorem fetchUnsafe_found (h : answer (.l2BlockByLabel a.blockNumber) = .ok (some block)) :
    (fetchUnsafe (ConsolidateInput.attributes a).l2BlockNumber).reply answer s =
      (.ok block, s) := by
  rw [fetchUnsafe_reply, ConsolidateInput.l2BlockNumber, h]
  rfl

theorem consolidateTask_builds (hfound : s.syncState.safeHead.blockInfo.number <
      s.syncState.unsafeHead.blockInfo.number →
        ∃ block, answer (.l2BlockByLabel a.blockNumber) = .ok (some block))
    (h : ¬Holds codecs cfg answer s.syncState a) :
    (consolidateTask codecs cfg (.attributes a)).reply answer s =
      ((buildAndSeal codecs cfg a .safePayload).mapError
        ConsolidateTaskError.ofBuildAndSeal).reply answer s := by
  rw [consolidateTask, reply_bind_ok (reply_get answer s)]
  dsimp only
  split
  next hahead =>
    obtain ⟨block, hblock⟩ := hfound hahead
    rw [consolidate, reply_bind_ok (fetchUnsafe_found hblock)]
    split
    next hconsistent =>
      cases hinfo : blockInfoOf codecs cfg block.intoConsensus with
      | error e => rfl
      | ok info => exact absurd ⟨hahead, block, info, hblock, hconsistent, hinfo⟩ h
    next => rfl
  next => rfl

section Moves

variable (hmoves : ∀ heads, ∃ id, answer (.forkchoiceUpdated .v3 heads none) = .ok ⟨.valid, id⟩)
include hmoves

/-- Heads that the execution layer confirms. -/
theorem synchronize_moves (update : EngineSyncStateUpdate)
    (hbehind : ¬(s.syncState.applyUpdate update).unsafeHead.blockInfo.number <
      (s.syncState.applyUpdate update).finalizedHead.blockInfo.number) :
    ∃ t, (synchronize update).reply answer s = (.ok (), t) ∧
      t.syncState = s.syncState.applyUpdate update := by
  by_cases hsame : s.syncState ≠ default ∧ s.syncState = s.syncState.applyUpdate update
  · exact ⟨s, synchronize_same hsame, hsame.2⟩
  · obtain ⟨id, hid⟩ := hmoves (s.syncState.applyUpdate update)
    exact ⟨_, synchronize_valid rfl hsame hbehind hid, rfl⟩

theorem insert_moves (hordered : s.syncState.Ordered)
    (habove : s.syncState.safeHead.blockInfo.number < ref.blockInfo.number) :
    ∃ t, ((synchronize (insertUpdate .safePayload ref)).mapError
      InsertTaskError.forkchoiceUpdateFailed).reply answer s = (.ok (), t) ∧
        t.syncState.safeHead = ref := by
  have hbehind : ¬ref.blockInfo.number < s.syncState.finalizedHead.blockInfo.number := by
    unfold EngineSyncState.Ordered at hordered
    bv_omega
  obtain ⟨t, ht, hheads⟩ := synchronize_moves (s := s) hmoves (insertUpdate .safePayload ref)
    hbehind
  refine ⟨t, ?_, by rw [hheads]; rfl⟩
  rw [reply_mapError, ht]
  rfl

theorem Builds.taken (h : Builds codecs cfg answer a offer status ref)
    (hordered : s.syncState.Ordered)
    (habove : s.syncState.safeHead.blockInfo.number < ref.blockInfo.number)
    (hstatus : checkNewPayloadStatus status = true) (reattempt : Task BuildAndSealError Unit) :
    ∃ t, (buildAndSealWith codecs cfg reattempt a .safePayload).reply answer s = (.ok (), t) ∧
      t.syncState.safeHead = ref := by
  obtain ⟨t, ht, href⟩ := insert_moves hmoves hordered habove
  refine ⟨t, h.sealed (r := .ok ()) (not_behind hordered) ?_, href⟩
  rw [insertPayload, reply_bind_ok (a := .ok ()) ((reply_outcome _).trans
    (by rw [h.insert_reply, if_pos hstatus, ht]))]
  rfl

theorem consolidateTask_adopts (hordered : s.syncState.Ordered)
    (h : Holds codecs cfg answer s.syncState a) :
    ∃ t, (consolidateTask codecs cfg (.attributes a)).reply answer s = (.ok (), t) := by
  obtain ⟨hahead, block, info, hblock, hconsistent, hinfo⟩ := h
  rw [consolidateTask, reply_bind_ok (reply_get answer s)]
  rw [if_pos hahead, consolidate,
    reply_bind_ok (fetchUnsafe_found hblock), if_pos hconsistent, hinfo]
  dsimp only
  rw [adoptSafe]
  split
  next =>
    obtain ⟨t, ht, -⟩ := synchronize_moves (s := s) hmoves (safeUpdate info)
      (not_behind hordered)
    refine ⟨t, ?_⟩
    rw [reply_mapError, ht]
    rfl
  next => exact ⟨_, rfl⟩

end Moves
end Attempts

section Node

variable {codecs : Codecs} {cfg : EngineConfig} {answer : (c : Call) → c.Answer}
  {a : AttributesWithParent} {ref replacement : L2BlockInfo} {verdict : Verdict}

/-- The node builds the block of the deposits. -/
def FallsBack (codecs : Codecs) (cfg : EngineConfig) (answer : (c : Call) → c.Answer)
    (heads : EngineSyncState) (a : AttributesWithParent) (verdict : Verdict) : Prop :=
  cfg.rollup.isHoloceneActive a.attributes.timestamp = true ∧ verdict.falls = true ∧
    ¬Holds codecs cfg answer heads a

/-- The error of a task that has inserted the block of the deposits. -/
def flushError : EngineTaskErrors := .consolidate (.sealTaskFailed .holoceneInvalidFlush)

/-- Everything that an attempt at the attributes can end with. -/
inductive Attempt (codecs : Codecs) (cfg : EngineConfig) (answer : (c : Call) → c.Answer)
    (a : AttributesWithParent) (verdict : Verdict) (replacement : L2BlockInfo) (s : EngineState) :
    Except EngineTaskErrors Unit × EngineState → Prop
  | fallen {t : EngineState} (h : FallsBack codecs cfg answer s.syncState a verdict)
      (hsafe : t.syncState.safeHead = replacement) :
      Attempt codecs cfg answer a verdict replacement s (.error flushError, t)
  | taken {t : EngineState} (h : ¬FallsBack codecs cfg answer s.syncState a verdict) :
      Attempt codecs cfg answer a verdict replacement s (.ok (), t)
  | failed {e : EngineTaskErrors} (h : ¬FallsBack codecs cfg answer s.syncState a verdict)
      (he : e.severity = .temporary ∨ e.severity = .flush) :
      Attempt codecs cfg answer a verdict replacement s (.error e, s)

theorem attempt_of_error (h : ¬FallsBack codecs cfg answer s.syncState a verdict)
    (hbuild : (buildAndSeal codecs cfg a .safePayload).reply answer s = (.error e, s))
    (hconsolidate : (consolidateTask codecs cfg (.attributes a)).reply answer s =
      ((buildAndSeal codecs cfg a .safePayload).mapError
        ConsolidateTaskError.ofBuildAndSeal).reply answer s)
    (he : e.severity = .temporary ∨ e.severity = .flush) :
    Attempt codecs cfg answer a verdict replacement s
      (((EngineTask.consolidate (.attributes a)).executeInner codecs cfg).reply answer s) := by
  rw [EngineTask.executeInner, reply_mapError, hconsolidate, reply_mapError, hbuild]
  apply Attempt.failed h
  cases e with
  | build e => exact he
  | sealing e => exact he

theorem attempt_of_ok (h : ¬FallsBack codecs cfg answer s.syncState a verdict)
    (hconsolidate : (consolidateTask codecs cfg (.attributes a)).reply answer s = (.ok (), t)) :
    Attempt codecs cfg answer a verdict replacement s
      (((EngineTask.consolidate (.attributes a)).executeInner codecs cfg).reply answer s) := by
  rw [EngineTask.executeInner, reply_mapError, hconsolidate]
  exact .taken h

theorem buildAndSeal_of_startBuild (h : (startBuild cfg a).reply answer s = (.error e, s)) :
    (buildAndSeal codecs cfg a .safePayload).reply answer s =
      (.error (.build (.engineBuildError e)), s) := by
  refine reply_bind_error ?_
  rw [reply_mapError, build_reply h]
  rfl

theorem buildAndSeal_of_getPayload {s : EngineState} {id : PayloadId} {e : RpcError}
    (hstart : (startBuild cfg a).reply answer s = (.ok id, s))
    (h : ∀ version, answer (.getPayload version id) = .error e) :
    (buildAndSeal codecs cfg a .safePayload).reply answer s =
      (.error (.sealing (.getPayloadFailed e)), s) := by
  have hseal : (sealPayload cfg id a).reply answer s = (.error (.getPayloadFailed e), s) := by
    rw [sealPayload, reply_bind_ok (m := Task.getPayload _ _) (reply_ask_eq (h _))]
    rfl
  exact buildAndSealWith_reply hstart (reply_bind_error hseal)

theorem attempt_sound {s : EngineState}
    (hlayer : Layer codecs cfg answer s.syncState a verdict ref replacement)
    (hbelow : Below s.syncState ref replacement) :
    Attempt codecs cfg answer a verdict replacement s
      (((EngineTask.consolidate (.attributes a)).executeInner codecs cfg).reply answer s) := by
  by_cases hholds : Holds codecs cfg answer s.syncState a
  · obtain ⟨t, ht⟩ := consolidateTask_adopts hlayer.moves hbelow.ordered hholds
    exact attempt_of_ok (fun h => h.2.2 hholds) ht
  have hconsolidate := consolidateTask_builds hlayer.found hholds
  have hbehind := not_behind hbelow.ordered
  have hrules := hlayer.rules
  cases verdict with
  | forkchoiceError e =>
    refine attempt_of_error (fun h => by cases h.2.1) (buildAndSeal_of_startBuild
      (e := .attributesInsertionFailed e) ?_) hconsolidate (.inl rfl)
    have hof : EngineBuildError.ofRpc e = .attributesInsertionFailed e := by
      simp [EngineBuildError.ofRpc, hrules.1]
    rw [startBuild_reply hbehind, hrules.2, ← hof]
    rfl
  | forkchoiceInvalid e =>
    refine attempt_of_error (fun h => by cases h.2.1) (buildAndSeal_of_startBuild
      (e := .invalidPayload e) ?_) hconsolidate (.inr rfl)
    obtain ⟨id, hid⟩ := hrules (.fromCfg cfg a.attributes.timestamp) (buildHeads s a)
    rw [startBuild_reply hbehind, hid]
    rfl
  | getPayloadError e =>
    obtain ⟨id, hstarted, hfailed⟩ := hrules
    refine attempt_of_error (fun h => by cases h.2.1) (buildAndSeal_of_getPayload ?_
      hfailed) hconsolidate (.inl rfl)
    rw [startBuild_reply hbehind, hstarted]
    rfl
  | newPayload status =>
    obtain ⟨offer, hbuilds⟩ := hrules
    obtain ⟨offer', hdeposits⟩ := hlayer.replaces
    cases hstatus : checkNewPayloadStatus status with
    | true =>
      obtain ⟨t, ht, -⟩ := Builds.taken hlayer.moves hbuilds hbelow.ordered hbelow.ref_above hstatus
        (reattemptWithDeposits codecs cfg a .safePayload)
      refine attempt_of_ok (t := t) (fun h => ?_) ?_
      · simp [FallsBack, Verdict.falls, hstatus] at h
      · rw [hconsolidate, reply_mapError, buildAndSeal, ht]
        rfl
    | false =>
      have hmixed := hbuilds.mixed hdeposits hstatus
      cases hholocene : cfg.rollup.isHoloceneActive a.attributes.timestamp with
      | false =>
        exact attempt_of_error (fun h => by simp [FallsBack, hholocene] at h)
          (hbuilds.refused hbelow.ordered hstatus hmixed hholocene _) hconsolidate (.inl rfl)
      | true =>
        obtain ⟨t, ht, hsafe⟩ := Builds.taken hlayer.moves hdeposits hbelow.ordered
          hbelow.replacement_above rfl (fail (.sealing .depositOnlyPayloadFailed))
        have hreattempt : (reattemptWithDeposits codecs cfg a .safePayload).reply answer s =
            (.ok (), t) := ht
        have hfallen := hbuilds.fallen hbelow.ordered hstatus hmixed hholocene hreattempt
        rw [EngineTask.executeInner, reply_mapError, hconsolidate, reply_mapError, buildAndSeal,
          hfallen]
        exact .fallen ⟨hholocene, by simp [Verdict.falls, hstatus], hholds⟩ hsafe

theorem drain_single {e : SciChain.Engine} (hidle : e.tasks = []) (task : EngineTask) (n : ℕ) :
    ((e.enqueue task).drain codecs cfg n).reply answer =
      (e.enqueue task).settle ((task.execute codecs cfg n).reply answer e.state) := by
  have htasks : (e.enqueue task).tasks = [(task, e.nextTaskSequence)] := by
    rw [Engine.enqueue, hidle, List.nil_append]
  have hpeek : (e.enqueue task).peek = some (task, e.nextTaskSequence) := by
    simp [Engine.peek, htasks, precedes]
  have hround : ((e.enqueue task).round codecs cfg n task).reply answer =
      (e.enqueue task).settle ((task.execute codecs cfg n).reply answer e.state) :=
    Dialogue.reply_bind answer _ _
  rw [Engine.drain, htasks, List.length_singleton, Engine.drainLoop, hpeek]
  rw [Dialogue.reply_bind, hround]
  rcases (e.enqueue task).settle ((task.execute codecs cfg n).reply answer e.state) with ⟨r, e'⟩
  rcases r with _ | (err | ⟨⟩) <;> rfl

/-- The world of the processor while derivation has these attributes for it. -/
def world (a : AttributesWithParent) (answer : (c : Call) → c.Answer) : (c : NodeCall) → c.Answer
  | .engine call => answer call
  | .tell _ => true
  | .receive => some (.processSafeL2Signal (.attributes a))
  | .respond _ _ => true

def Outgoing.isFlush : Outgoing → Bool
  | .request (.processEngineSignal .flushChannel) => true
  | _ => false

namespace EngineProcessor

/-- How often the processor has asked derivation to flush its channel. -/
def flushes (p : EngineProcessor) : ℕ := p.sent.countP Outgoing.isFlush

variable {p : EngineProcessor} {patience : Patience}

theorem tell_reply (request : DerivationActorRequest) : (tell request).reply (world a answer) p =
    (.ok (), { p with sent := p.sent ++ [.request request] }) := rfl

theorem sendSafeHeadIfUpdated_reply (a : AttributesWithParent) (answer : (c : Call) → c.Answer)
    (p : EngineProcessor) : ∃ q,
    sendSafeHeadIfUpdated.reply (world a answer) p = (.ok (), q) ∧ q.engine = p.engine ∧
      q.elSyncComplete = p.elSyncComplete ∧ q.flushes = p.flushes := by
  rw [sendSafeHeadIfUpdated, reply_bind_ok (reply_get _ p)]
  split
  next => exact ⟨p, rfl, rfl, rfl, rfl⟩
  next =>
    rw [reply_bind_ok (tell_reply _)]
    refine ⟨_, rfl, rfl, rfl, ?_⟩
    simp [flushes, List.countP_append, Outgoing.isFlush]

section Closing

variable (codecs : Codecs) (cfg : EngineConfig) (answer : (c : Call) → c.Answer)
  (a : AttributesWithParent) (patience : Patience)

/-- The end of a drain, when the execution layer has finished its sync. -/
theorem closing_reply (hsynced : p.elSyncComplete = true) : ∃ q,
    (do sendSafeHeadIfUpdated
        let p ← Procedure.get
        if !p.elSyncComplete && p.engine.state.elSyncFinished then
          markElSyncComplete codecs cfg patience : Processor Unit).reply (world a answer) p =
      (.ok (), q) ∧ q.engine = p.engine ∧ q.flushes = p.flushes := by
  obtain ⟨q, hq, hengine, hsync, hflushes⟩ :=
    sendSafeHeadIfUpdated_reply a answer p
  refine ⟨q, ?_, hengine, hflushes⟩
  rw [reply_bind_ok hq, reply_bind_ok (reply_get _ q)]
  simp [hsync, hsynced]

end Closing

/-- The processor with the task of the attributes in its queue. -/
def given (a : AttributesWithParent) (p : EngineProcessor) : EngineProcessor :=
  { p with engine := p.engine.enqueue (.consolidate (.attributes a)) }

/-- The processor serves the attributes by a drain of the queue with their task. -/
theorem loop_reply : (loop codecs cfg patience 1).reply (world a answer) p =
    (drain codecs cfg patience).reply (world a answer) (p.given a) := by
  have hhandle : (handle codecs cfg patience (.processSafeL2Signal (.attributes a))).reply
      (world a answer) p = (.ok (), p.given a) := rfl
  have hreceive : receive.reply (world a answer) p =
      (.ok (.processSafeL2Signal (.attributes a)), p) := rfl
  rw [loop, reply_bind_ok hreceive, reply_bind_ok hhandle]
  rcases hdrain : (drain codecs cfg patience).reply (world a answer) (p.given a) with ⟨x, q⟩
  cases x with
  | error e => exact reply_bind_error hdrain
  | ok u => exact reply_bind_ok hdrain

theorem state_pop (e : SciChain.Engine) : e.pop.state = e.state := by
  unfold Engine.pop
  split <;> rfl

section Serving

variable {t : EngineState} (hidle : p.engine.tasks = [])
include hidle

theorem drain_reply {x : Except Empty (Option (Except EngineTaskErrors Unit)) × EngineState}
    (h : ((EngineTask.consolidate (.attributes a)).execute codecs cfg patience.attempts).reply
      answer p.engine.state = x) :
    (onEngine (Engine.drain codecs cfg patience.attempts)).reply (world a answer) (p.given a) =
      (.ok ((p.given a).engine.settle x).1,
        { p with engine := ((p.given a).engine.settle x).2 }) := by
  rw [Procedure.reply, onEngine, Dialogue.reply_bind, Dialogue.reply_embed]
  have hsame : (fun c => world a answer (.engine c)) = answer := rfl
  rw [hsame, given, drain_single hidle, h]
  rfl

theorem loop_unfinished
    (h : ((EngineTask.consolidate (.attributes a)).execute codecs cfg patience.attempts).reply
      answer p.engine.state = (.ok none, t)) :
    ((loop codecs cfg patience 1).reply (world a answer) p).1 = .error .unfinished := by
  rw [loop_reply, drain, reply_bind_ok (drain_reply hidle h)]
  rfl

theorem loop_done (hsynced : p.elSyncComplete = true)
    (h : ((EngineTask.consolidate (.attributes a)).execute codecs cfg patience.attempts).reply
      answer p.engine.state = (.ok (some (.ok ())), t)) :
    ∃ q, (loop codecs cfg patience 1).reply (world a answer) p = (.ok (), q) ∧
      q.engine.state = t ∧ q.flushes = p.flushes := by
  rw [loop_reply, drain, reply_bind_ok (drain_reply hidle h)]
  obtain ⟨q, hq, hengine, hflushes⟩ := closing_reply codecs cfg answer a patience (p := { p with
    engine := ((p.given a).engine.settle (.ok (some (.ok ())), t)).2 }) hsynced
  exact ⟨q, hq, by rw [hengine]; exact state_pop _, hflushes⟩

theorem loop_flushed (hsynced : p.elSyncComplete = true) {err : EngineTaskErrors}
    (herr : err.severity = .flush)
    (h : ((EngineTask.consolidate (.attributes a)).execute codecs cfg patience.attempts).reply
      answer p.engine.state = (.ok (some (.error err)), t)) :
    ∃ q, (loop codecs cfg patience 1).reply (world a answer) p = (.ok (), q) ∧
      q.engine.state = t ∧ q.flushes = p.flushes + 1 := by
  have htold (e : SciChain.Engine) :
      (handleTaskError codecs cfg patience err).reply (world a answer) { p with engine := e } =
        (.ok (), { p with
          engine := e, sent := p.sent ++ [.request (.processEngineSignal .flushChannel)] }) := by
    rw [handleTaskError, herr]
    rfl
  rw [loop_reply, drain, reply_bind_ok (drain_reply hidle h), Engine.settle, if_pos herr]
  rw [reply_bind_ok (htold _)]
  obtain ⟨q, hq, hengine, hflushes⟩ := closing_reply codecs cfg answer a patience (p := { p with
    engine := ({ (p.given a).engine with state := t } : SciChain.Engine).pop
    sent := p.sent ++ [.request (.processEngineSignal .flushChannel)] }) hsynced
  refine ⟨q, hq, by rw [hengine]; exact state_pop _, hflushes.trans ?_⟩
  simp [flushes, List.countP_append, Outgoing.isFlush]

theorem attempts_of_ok (h : (loop codecs cfg patience 1).reply (world a answer) p = (.ok (), q)) :
    ∃ n, patience.attempts = n + 1 := by
  cases hn : patience.attempts with
  | succ n => exact ⟨n, rfl⟩
  | zero =>
    have hnone : ((EngineTask.consolidate (.attributes a)).execute codecs cfg
        patience.attempts).reply answer p.engine.state = (.ok none, p.engine.state) := by
      rw [hn]
      rfl
    have hend := loop_unfinished hidle hnone
    rw [h] at hend
    cases hend

end Serving
end EngineProcessor

/-- The node has the block of the deposits as its safe head and has asked for one flush. -/
def Replaces (codecs : Codecs) (cfg : EngineConfig) (answer : (c : Call) → c.Answer)
    (p : EngineProcessor) (a : AttributesWithParent) (replacement : L2BlockInfo) : Prop :=
  ∃ patience q, (EngineProcessor.loop codecs cfg patience 1).reply (world a answer) p =
    (.ok (), q) ∧ q.safeHead = replacement ∧ q.flushes = p.flushes + 1

/-- A processor that waits for the next safe block. -/
structure AwaitsNext (p : EngineProcessor) (ref replacement : L2BlockInfo) : Prop where
  idle : p.engine.tasks = []
  synced : p.elSyncComplete = true
  below : Below p.engine.state.syncState ref replacement

theorem replaces_iff (hready : AwaitsNext p ref replacement)
    (hlayer : Layer codecs cfg answer p.engine.state.syncState a verdict ref replacement) :
    Replaces codecs cfg answer p a replacement ↔
      FallsBack codecs cfg answer p.engine.state.syncState a verdict := by
  have hattempt := attempt_sound hlayer hready.below
  generalize hr : ((EngineTask.consolidate (.attributes a)).executeInner codecs cfg).reply answer
    p.engine.state = r at hattempt
  cases hattempt with
  | fallen hfalls hsafe =>
    refine ⟨fun _ => hfalls, fun _ => ?_⟩
    have hexecute : ((EngineTask.consolidate (.attributes a)).execute codecs cfg
        (Patience.attempts ⟨1, 0, 0⟩)).reply answer p.engine.state =
          (.ok (some (.error flushError)), _) := execute_of_error (by decide) hr 0
    obtain ⟨q, hq, hstate, hflushes⟩ :=
      loop_flushed hready.idle hready.synced rfl hexecute
    exact ⟨⟨1, 0, 0⟩, q, hq, by rw [safeHead, hstate, hsafe], hflushes⟩
  | taken hfalls =>
    refine ⟨?_, fun h => absurd h hfalls⟩
    rintro ⟨patience, q, hq, -, hflushes⟩
    obtain ⟨n, hn⟩ := attempts_of_ok hready.idle hq
    have hexecute := execute_of_ok hr n
    rw [← hn] at hexecute
    obtain ⟨q', hq', -, hsame⟩ := loop_done hready.idle hready.synced hexecute
    rw [hq] at hq'
    cases hq'
    omega
  | @failed e hfalls he =>
    refine ⟨?_, fun h => absurd h hfalls⟩
    rintro ⟨patience, q, hq, hsafe, -⟩
    obtain ⟨n, hn⟩ := attempts_of_ok hready.idle hq
    rcases he with htemporary | hflush
    · have hend := loop_unfinished (a := a) hready.idle
        (execute_stuck htemporary hr patience.attempts)
      rw [hq] at hend
      cases hend
    · have hexecute := execute_of_error (fun h => by rw [hflush] at h; cases h) hr n
      rw [← hn] at hexecute
      obtain ⟨q', hq', hstate, -⟩ :=
        loop_flushed hready.idle hready.synced hflush hexecute
      rw [hq] at hq'
      cases hq'
      -- The safe head is the one from before, which is below the replacement.
      have habove := hready.below.replacement_above
      rw [← hsafe, safeHead, hstate] at habove
      exact absurd habove (BitVec.lt_irrefl _)

end Node

section Driver

variable {π : Type}

/-- The proof driver has executed the deposits of the attributes in their place and has flushed
the channel. -/
def DriverReplaces (m : Machine π) (tip : TipCursor) (pipeline : π) (a : AttributesWithParent) :
    Prop :=
  ∃ e header flushed, m.executor.executePayload tip.l2SafeHeadHeader a.attributes = .error e ∧
    m.pipeline.flushChannel pipeline = (.ok (), flushed) ∧
      m.execute tip a.attributes pipeline = .built header a.asDepositsOnly.attributes flushed

/-- Execution rejects a transaction of the attributes. -/
def RejectedTx (m : Machine π) (tip : TipCursor) (a : AttributesWithParent) : Prop :=
  ∃ e, m.executor.executePayload tip.l2SafeHeadHeader a.attributes = .error e ∧
    e.isDepositOnlyRetryable = true

theorem driverReplaces_iff (hflush : m.pipeline.flushChannel pipeline = (.ok (), flushed))
    (hdeposits : m.executor.executePayload tip.l2SafeHeadHeader a.asDepositsOnly.attributes =
      .ok header) :
    DriverReplaces m tip pipeline a ↔
      m.cfg.isHoloceneActive a.attributes.timestamp = true ∧ RejectedTx m tip a := by
  have hstrip : m.executor.executePayload tip.l2SafeHeadHeader (stripToDeposits a.attributes) =
      .ok header := hdeposits
  constructor
  · rintro ⟨e, header', flushed', he, -, hexecute⟩
    rw [Machine.execute, he] at hexecute
    dsimp only at hexecute
    split at hexecute
    · cases hexecute
    next hholocene =>
      split at hexecute
      · cases hexecute
      next hretry => exact ⟨by simpa using hholocene, e, he, by simpa using hretry⟩
  · rintro ⟨hholocene, e, he, hretry⟩
    refine ⟨e, header, flushed, he, hflush, ?_⟩
    simp only [Machine.execute, he, hholocene, hretry, hflush, hstrip]
    rfl

end Driver

/-- Node and proof program replace the same attributes if and only if, once Holocene is active, the
execution layer reports the rejected ones as `INVALID` when it is given the payload, and answers
`ACCEPTED` for none that it does not have already. -/
theorem replaced_alike_iff {π : Type} (m : Machine π) (tip : TipCursor) (pipeline flushed : π)
    (codecs : Codecs) (cfg : EngineConfig) (answer : (c : Call) → c.Answer) (p : EngineProcessor)
    (a : AttributesWithParent) (verdict : Verdict) (ref replacement : L2BlockInfo) (header : Header)
    (hcfg : m.cfg = cfg.rollup)
    (hflush : m.pipeline.flushChannel pipeline = (.ok (), flushed))
    (hdeposits : m.executor.executePayload tip.l2SafeHeadHeader a.asDepositsOnly.attributes =
      .ok header)
    (hready : AwaitsNext p ref replacement)
    (hlayer : Layer codecs cfg answer p.engine.state.syncState a verdict ref replacement)
    (haccepts : verdict.rejects = false → ¬RejectedTx m tip a)
    (hbuilt : ∀ e, verdict = .newPayload (.invalid e) → RejectedTx m tip a) :
    (Replaces codecs cfg answer p a replacement ↔ DriverReplaces m tip pipeline a) ↔
      (cfg.rollup.isHoloceneActive a.attributes.timestamp = true →
        (RejectedTx m tip a → ∃ e, verdict = .newPayload (.invalid e)) ∧
        (verdict = .newPayload .accepted →
          Holds codecs cfg answer p.engine.state.syncState a)) := by
  rw [replaces_iff hready hlayer, driverReplaces_iff hflush hdeposits, hcfg, FallsBack,
    verdict.falls_iff]
  constructor
  · intro h hholocene
    refine ⟨fun hrejected => ?_, fun haccepted => ?_⟩
    · obtain ⟨-, hinvalid | haccepted, -⟩ := h.mpr ⟨hholocene, hrejected⟩
      · exact hinvalid
      · exact absurd hrejected (haccepts (by rw [haccepted]; rfl))
    · by_contra hholds
      exact haccepts (by rw [haccepted]; rfl) (h.mp ⟨hholocene, .inr haccepted, hholds⟩).2
  · intro h
    constructor
    · rintro ⟨hholocene, ⟨e, hinvalid⟩ | haccepted, hholds⟩
      · exact ⟨hholocene, hbuilt e hinvalid⟩
      · exact absurd ((h hholocene).2 haccepted) hholds
    · rintro ⟨hholocene, hrejected⟩
      obtain ⟨e, hinvalid⟩ := (h hholocene).1 hrejected
      exact ⟨hholocene, .inl ⟨e, hinvalid⟩, hlayer.honest (by rw [hinvalid]; rfl)⟩

/-- A proof driver whose pipeline counts how often it was flushed, and whose executor takes
deposits only. -/
def countingMachine : Machine ℕ where
  cfg := (plainConfig (some 0)).rollup
  executor :=
    { executePayload := fun parent attributes =>
        if (attributes.transactions.getD []).all isDepositTx then
          .ok { parent with number := parent.number + 1 }
        else .error .recovery
      computeOutputRoot := fun _ _ => .ok 0
      number_eq := by
        intro parent header attributes h
        split at h
        · cases h
          rfl
        · cases h }
  pipeline :=
    { producePayload := fun _ flushes => (.error .endOfSource, flushes)
      flushChannel := fun flushes => (.ok (), flushes + 1)
      origin := fun _ => none }
  decodeTx _ := none
  decodeCalldata _ := none

def fifthTip : TipCursor := ⟨plainRef 5, ⟨5, 4, 5, 5⟩, 0⟩

def idleProcessor : EngineProcessor where
  engine := ⟨plainState 5 5 5, [], 0⟩
  elSyncComplete := true
  nodeMode := .validator
  lastSafeHeadSent := plainRef 5
  sent := []

theorem choosy_layer : Layer plainCodecs (plainConfig (some 0)) choosy.answer
    idleProcessor.engine.state.syncState (plainAttributes 5 [[2]]) (.newPayload (.invalid ""))
    { plainRef 6 with blockInfo := { (plainRef 6).blockInfo with hash := 66 } } (plainRef 6) where
  rules := ⟨⟨66, ⟨{ plainPayload 6 with blockHash := 66 }, false, 0⟩⟩,
    { started := fun _ _ => rfl
      built := fun _ => rfl
      described := rfl
      inserted := rfl
      judged := fun _ => rfl }⟩
  replaces := ⟨⟨6, ⟨{ plainPayload 6 with blockHash := 6 }, false, 0⟩⟩,
    { started := fun _ _ => rfl
      built := fun _ => rfl
      described := rfl
      inserted := rfl
      judged := fun _ => rfl }⟩
  moves _ := ⟨_, rfl⟩
  found _ := ⟨_, rfl⟩
  honest _ h := absurd h.1 (by decide)

/-- A payload that the execution layer rejects. -/
theorem replaced_alike_sixth :
    Replaces plainCodecs (plainConfig (some 0)) choosy.answer idleProcessor
      (plainAttributes 5 [[2]]) (plainRef 6) ↔
        DriverReplaces countingMachine fifthTip 0 (plainAttributes 5 [[2]]) :=
  (replaced_alike_iff countingMachine fifthTip 0 1 plainCodecs (plainConfig (some 0)) choosy.answer
    idleProcessor (plainAttributes 5 [[2]]) (.newPayload (.invalid ""))
    { plainRef 6 with blockInfo := { (plainRef 6).blockInfo with hash := 66 } } (plainRef 6)
    ⟨5, 4, 6, 5⟩ rfl rfl rfl
    { idle := rfl
      synced := rfl
      below := ⟨by decide, by decide, by decide⟩ }
    choosy_layer nofun (fun _ _ => ⟨.recovery, rfl, rfl⟩)).mpr
    (fun _ => ⟨fun _ => ⟨_, rfl⟩, nofun⟩)

/-- An execution layer that refuses to build on the attributes with the transaction. -/
def refusing : Replies where
  newPayload _ := .ok .valid
  forkchoice _ attributes :=
    if attributes.bind (·.transactions) = some [[0x7e], [2]] then .ok ⟨.invalid "", none⟩
    else .ok ⟨.valid, some 6⟩
  payload _ := .ok ⟨plainPayload 6, false, 0⟩
  block number := .ok (some (plainBlock number))

/-- An execution layer that builds on the attributes and then has no payload. -/
def stalling : Replies where
  newPayload _ := .ok .valid
  forkchoice _ attributes := .ok ⟨.valid, some
    (if attributes.bind (·.transactions) = some [[0x7e], [2]] then 66 else 6)⟩
  payload id := if id = 66 then .error (.errorResp (-38001) "Unknown payload")
    else .ok ⟨plainPayload 6, false, 0⟩
  block number := .ok (some (plainBlock number))

/-- The proof driver replaces the block and flushes. The node flushes without a replacement if the
attributes are refused, and repeats its task for ever if there is no payload. -/
theorem early_rejection_replaces_nothing :
    countingMachine.execute fifthTip (plainAttributes 5 [[2]]).attributes 0 =
      .built ⟨5, 4, 6, 5⟩ (plainAttributes 5 [[2]]).asDepositsOnly.attributes 1 ∧
    (EngineProcessor.loop plainCodecs (plainConfig (some 0)) ⟨1, 0, 0⟩ 1).reply
        (world (plainAttributes 5 [[2]]) refusing.answer) idleProcessor =
      (.ok (), { idleProcessor with
        engine := ⟨plainState 5 5 5, [], 1⟩
        sent := [.request (.processEngineSignal .flushChannel)] }) ∧
    ∀ patience, ((EngineProcessor.loop plainCodecs (plainConfig (some 0)) patience 1).reply
      (world (plainAttributes 5 [[2]]) stalling.answer) idleProcessor).1 = .error .unfinished := by
  refine ⟨rfl, rfl, fun patience => ?_⟩
  have hattempt : ((EngineTask.consolidate (.attributes (plainAttributes 5 [[2]]))).executeInner
      plainCodecs (plainConfig (some 0))).reply stalling.answer idleProcessor.engine.state =
        (.error (.consolidate (.sealTaskFailed (.getPayloadFailed
          (.errorResp (-38001) "Unknown payload")))), idleProcessor.engine.state) := rfl
  exact loop_unfinished rfl (execute_stuck rfl hattempt patience.attempts)

end SciChain.Node
