import SciChain.Library.Journal
import SciChain.Node.SafeDB
import SciChain.Proofs.Finality

namespace SciChain.Node
open Derive Engine Library Procedure SafeDB

/-! The database of safe heads against the history of the confirmations that the derivation
actor has handled. -/

/-- The L2 blocks, each with its parent. -/
structure L2Blocks where
  parent : B256 → B256

/-- The block is on the chain that ends in the head. -/
def L2Blocks.OnChain (blocks : L2Blocks) (block head : L2BlockInfo) : Prop :=
  block.blockInfo.number ≤ head.blockInfo.number ∧
    Nat.iterate blocks.parent (head.blockInfo.number.toNat - block.blockInfo.number.toNat)
      head.blockInfo.hash = block.blockInfo.hash

instance (blocks : L2Blocks) (block head : L2BlockInfo) : Decidable (blocks.OnChain block head) :=
  inferInstanceAs (Decidable (_ ∧ _))

theorem L2Blocks.onChain_self (blocks : L2Blocks) (head : L2BlockInfo) :
    blocks.OnChain head head := by
  refine ⟨BitVec.le_refl _, ?_⟩
  rw [Nat.sub_self]
  rfl

/-- A head that was confirmed, with the L1 block that included it. -/
structure Confirmation where
  head : L2BlockInfo
  inclusion : BlockInfo
  deriving DecidableEq, Repr

def Confirmation.response (c : Confirmation) : SafeHeadResponse :=
  ⟨⟨c.inclusion.number, c.inclusion.hash⟩, ⟨c.head.blockInfo.number, c.head.blockInfo.hash⟩⟩

def Confirmation.entry (c : Confirmation) : ℕ × Bytes :=
  (c.inclusion.number.toNat, SafeDB.encodeValue c.inclusion.hash c.head.blockInfo.hash
    c.head.blockInfo.number)

/-- A run of the actor with its database, and what the database is for: the confirmations of
heads that are on the current safe chain, the oldest first. -/
structure SafeHistory where
  run : DerivationRun
  db : SafeDB
  confirmed : List Confirmation
  safeHead : Option L2BlockInfo

namespace SafeHistory

def new : SafeHistory := ⟨.new, ⟨[]⟩, [], none⟩

/-- The confirmations that a safe head leaves on the safe chain. -/
def rewind (blocks : L2Blocks) (confirmed : List Confirmation) (head : L2BlockInfo) :
    List Confirmation :=
  confirmed.filter (fun c => blocks.OnChain c.head head)

def confirmedAfter (blocks : L2Blocks) (h : SafeHistory) :
    DerivationActorRequest → List Confirmation × Option L2BlockInfo
  | .processEngineSafeHeadUpdate head =>
    (rewind blocks h.confirmed head ++ [⟨head, h.run.actor.inclusionBlock head⟩], some head)
  | .processEngineSignal (.reset head) => (rewind blocks h.confirmed head, some head)
  | .processEngineSyncCompletion head => (rewind blocks h.confirmed head, some head)
  | _ => (h.confirmed, h.safeHead)

/-- The actor handles a request, unless it has ended. -/
def serve (blocks : L2Blocks) (job : DerivationJob) (h : SafeHistory) :
    Except Unit SafeHistory :=
  if h.run.ended then .error () else
    let calls := (DerivationActor.handle job.steps job.request
      { h.run.actor with sent := [] }).exchanges job.answers 0
    .ok
      { run := h.run.serve job
        db := calls.foldl SafeDB.observe h.db
        confirmed := (h.confirmedAfter blocks job.request).1
        safeHead := (h.confirmedAfter blocks job.request).2 }

/-- The last head on the safe chain that was included at or before the block. -/
def lastConfirmed (h : SafeHistory) (n : U64) : Option Confirmation :=
  (h.confirmed.filter (fun c => c.inclusion.number ≤ n)).getLast?

/-- A reset of the database to a head changes as much as a reset of the safe chain: nothing
at all, or the head was recorded at its own L1 origin and only what was confirmed after it is
dropped. -/
def Rewinds (blocks : L2Blocks) (confirmed : List Confirmation) (recorded head : L2BlockInfo) :
    Prop :=
  ((∀ c ∈ confirmed, blocks.OnChain c.head head) ∧
    ∀ c ∈ confirmed, recorded.l1Origin.number ≤ c.inclusion.number →
      c.head.blockInfo.number < recorded.blockInfo.number) ∨
  ∃ kept inclusion dropped, confirmed = kept ++ ⟨recorded, inclusion⟩ :: dropped ∧
    inclusion.number = recorded.l1Origin.number ∧ inclusion.hash = recorded.l1Origin.hash ∧
    blocks.OnChain recorded head ∧ (∀ c ∈ kept, blocks.OnChain c.head head) ∧
    ∀ c ∈ dropped, ¬blocks.OnChain c.head head ∧
      recorded.l1Origin.number ≤ c.inclusion.number ∧
      recorded.blockInfo.number ≤ c.head.blockInfo.number

/-- Requests that keep the history linear: a confirmed head is included at or after all others
and extends those that are included before it, and a reset of the actor rewinds the
confirmations to what it was confirmed last. -/
def Linear (blocks : L2Blocks) (h : SafeHistory) : DerivationActorRequest → Prop
  | .processEngineSafeHeadUpdate head =>
    ∀ c ∈ h.confirmed, c.inclusion.number ≤ (h.run.actor.inclusionBlock head).number ∧
      (blocks.OnChain c.head head ∨
        c.inclusion.number = (h.run.actor.inclusionBlock head).number)
  | .processEngineSignal (.reset head) =>
    Rewinds blocks h.confirmed h.run.actor.machine.confirmedSafeHead head
  | .processEngineSyncCompletion head => Rewinds blocks h.confirmed head head
  | _ => True

/-- A request that keeps the history linear, with a database that can be written. -/
structure Faithful (blocks : L2Blocks) (job : DerivationJob) (h : SafeHistory) : Prop where
  resets : ∀ n head, job.answers n (.safeHeadReset head) = true
  updates : ∀ n head l1Block, job.answers n (.safeHeadUpdated head l1Block) = true
  linear : h.Linear blocks job.request

end SafeHistory

/-! The calls of the actor to the database. -/

def DerivationCall.isWrite : DerivationCall → Bool
  | .safeHeadReset _ => true
  | .safeHeadUpdated _ _ => true
  | _ => false

/-- A part of the actor that leaves the database alone. -/
def Silent {α : Type} (m : Derivation α) : Prop :=
  ∀ s, m.Ensures (fun _ _ => True) (fun c => c.isWrite = false) s (fun _ _ => True)

section Silent

variable {α β : Type}

theorem Silent.bind {m : Derivation α} {f : α → Derivation β} (hm : Silent m)
    (hf : ∀ a, Silent (f a)) : Silent (m >>= f) := by
  intro s
  refine (ensures_bind _ _ _).mpr ((hm s).mono ?_)
  intro r t _
  cases r with
  | error e => exact trivial
  | ok a => exact hf a t

theorem silent_get : Silent (Procedure.get : Derivation DerivationActor) := fun _ => trivial

theorem silent_set (s : DerivationActor) : Silent (Procedure.set s : Derivation Unit) :=
  fun _ => trivial

theorem silent_lift (x : Except DerivationEnd α) : Silent (Procedure.lift x : Derivation α) :=
  fun _ => trivial

theorem silent_ask {c : DerivationCall} (h : c.isWrite = false) :
    Silent (Procedure.ask c : Derivation c.Answer) := fun _ => ⟨h, fun _ _ => trivial⟩

theorem Silent.outcome (h : Silent m) : Silent (m.outcome : Derivation (Except DerivationEnd α)) :=
  fun s => (ensures_outcome m _).mpr (h s)

namespace DerivationActor

theorem update_silent (u : DerivationStateUpdate) : Silent (update u) :=
  silent_get.bind (fun _ => (silent_lift _).bind (fun _ => silent_set _))

theorem send_silent (request : EngineProcessingRequest) : Silent (send request) :=
  (silent_ask rfl).bind (fun _ => (silent_lift _).bind (fun _ =>
    silent_get.bind (fun _ => silent_set _)))

theorem handleStepError_silent (safeHead : L2BlockInfo) (e : StepError) :
    Silent (handleStepError safeHead e) := by
  unfold handleStepError
  split
  · exact silent_lift (.ok false)
  · exact silent_lift _
  · exact (silent_ask rfl).bind (fun _ => (silent_lift _).bind (fun _ => silent_lift (.ok true)))
  · exact (send_silent _).bind (fun _ => (update_silent _).bind (fun _ => silent_lift _))
  · exact silent_lift _

theorem handleStepResult_silent (safeHead : L2BlockInfo) (result : StepResult) :
    Silent (handleStepResult safeHead result) := by
  cases result with
  | preparedAttributes => exact silent_lift (.ok true)
  | advancedOrigin =>
    refine (silent_ask rfl).bind (fun origin => ?_)
    cases origin with
    | none => exact silent_lift _
    | some block => exact silent_lift (.ok true)
  | originAdvanceErr e => exact handleStepError_silent safeHead e
  | stepFailed e => exact handleStepError_silent safeHead e

theorem stepPipeline_silent : Silent stepPipeline := by
  refine silent_get.bind (fun actor => (silent_ask rfl).bind (fun result =>
    (handleStepResult_silent _ result).bind (fun looks => ?_)))
  cases looks with
  | true => exact silent_ask rfl
  | false => exact silent_lift (.ok none)

theorem produceNextAttributes_silent (n : ℕ) : Silent (produceNextAttributes n) := by
  induction n with
  | zero => exact silent_lift _
  | succ n ih =>
    refine stepPipeline_silent.bind (fun found => ?_)
    cases found with
    | some attributes => exact silent_lift (.ok attributes)
    | none => exact ih

theorem dispatch_silent (attributes : AttributesWithParent) : Silent (dispatch attributes) := by
  refine (update_silent _).bind (fun _ => silent_get.bind (fun actor => ?_))
  cases actor.finalizer.enqueueForFinalization attributes with
  | none => exact silent_lift _
  | some finalizer => exact (silent_set _).bind (fun _ => send_silent _)

theorem attemptDerivation_silent (steps : ℕ) : Silent (attemptDerivation steps) := by
  refine silent_get.bind (fun actor => ?_)
  split
  · refine (produceNextAttributes_silent steps).outcome.bind (fun result => ?_)
    split
    · exact dispatch_silent _
    · exact update_silent _
    · exact silent_lift _
  · exact silent_lift (.ok ())

end DerivationActor
end Silent

/-- A part that leaves the database alone does not show in it. -/
theorem Silent.observe {α : Type} {m : Derivation α} (h : Silent m) (s : DerivationActor)
    (answers : ℕ → (c : DerivationCall) → c.Answer) (n : ℕ) (db : SafeDB) :
    ((m s).exchanges answers n).foldl SafeDB.observe db = db := by
  have hquiet : ∀ x ∈ (m s).exchanges answers n, _ :=
    (Dialogue.Every.sound (h s) (fun _ _ => trivial)).2
  generalize (m s).exchanges answers n = calls at hquiet
  induction calls with
  | nil => rfl
  | cons x calls ih =>
    have hfirst := hquiet x List.mem_cons_self
    have hsame : db.observe x = db := by
      obtain ⟨c, r⟩ := x
      cases c <;> first | rfl | cases hfirst
    rw [List.foldl_cons, hsame]
    exact ih (fun y hy => hquiet y (List.mem_cons_of_mem _ hy))

/-- What the actor writes while it handles a request. -/
def DerivationActor.written (s : DerivationActor) (db : SafeDB) :
    DerivationActorRequest → SafeDB
  | .processEngineSafeHeadUpdate head => db.safeHeadUpdated head (s.inclusionBlock head)
  | .processEngineSignal (.reset _) => db.safeHeadReset s.machine.confirmedSafeHead
  | .processEngineSyncCompletion head => db.safeHeadReset head
  | _ => db

theorem DerivationActor.observe_handle (job : DerivationJob)
    (hresets : ∀ n head, job.answers n (.safeHeadReset head) = true)
    (hupdates : ∀ n head l1Block, job.answers n (.safeHeadUpdated head l1Block) = true)
    (s : DerivationActor) (db : SafeDB) :
    ((handle job.steps job.request s).exchanges job.answers 0).foldl SafeDB.observe db =
      s.written db job.request := by
  cases hrequest : job.request with
  | processEngineSyncCompletion head =>
    have hsilent := (update_silent (.elSyncCompleted head)).bind
      (fun _ => attemptDerivation_silent job.steps)
    have hwrite : db.observe ⟨.safeHeadReset head, job.answers 0 (.safeHeadReset head)⟩ =
        db.safeHeadReset head := by rw [hresets]; rfl
    exact (congrArg (fun d => List.foldl observe d _) hwrite).trans
      (hsilent.observe s job.answers 1 _)
  | processEngineSafeHeadUpdate head =>
    have hsilent := (update_silent (.newAttributesConfirmed head)).bind
      (fun _ => attemptDerivation_silent job.steps)
    have hwrite : db.observe ⟨.safeHeadUpdated head (s.inclusionBlock head),
        job.answers 0 (.safeHeadUpdated head (s.inclusionBlock head))⟩ =
        db.safeHeadUpdated head (s.inclusionBlock head) := by rw [hupdates]; rfl
    exact (congrArg (fun d => List.foldl observe d _) hwrite).trans
      (hsilent.observe { s with pendingDerivedFrom := none } job.answers 1 _)
  | processEngineSignal sig =>
    cases sig with
    | reset head =>
      have hsilent := update_silent .signalProcessed
      have hwrite : db.observe ⟨.safeHeadReset s.machine.confirmedSafeHead,
          job.answers 0 (.safeHeadReset s.machine.confirmedSafeHead)⟩ =
          db.safeHeadReset s.machine.confirmedSafeHead := by rw [hresets]; rfl
      exact (congrArg (fun d => List.foldl observe d _) hwrite).trans
        (hsilent.observe { s with finalizer := .clear, pendingDerivedFrom := none }
          job.answers 2 _)
    | activation head => exact (update_silent .signalProcessed).observe s job.answers 1 db
    | flushChannel => exact (update_silent .signalProcessed).observe s job.answers 1 db
  | processFinalizedL1Block l1 =>
    have hsilent : Silent (handle job.steps (.processFinalizedL1Block l1)) := by
      refine silent_get.bind (fun actor => (silent_set _).bind (fun _ => ?_))
      split
      · exact send_silent _
      · exact silent_lift (.ok ())
    exact hsilent.observe s job.answers 0 db
  | processL1HeadUpdate l1Head =>
    have hsilent := (update_silent .l1DataReceived).bind
      (fun _ => attemptDerivation_silent job.steps)
    exact hsilent.observe s job.answers 0 db

/-! The database answers as the history does. -/

namespace SafeDB

theorem removeAll_eq (keys : List ℕ) (db : SafeDB) :
    keys.foldl remove db = ⟨db.safeHeads.filter (fun e => e.1 ∉ keys)⟩ := by
  induction keys generalizing db with
  | nil => simp
  | cons key keys ih =>
    rw [List.foldl_cons, ih]
    simp only [remove, List.filter_filter, List.mem_cons, not_or, Bool.decide_and, Bool.and_comm]

theorem removeFrom_eq (db : SafeDB) (key : ℕ) :
    ((db.entriesFrom key).map Prod.fst).foldl remove db =
      ⟨db.safeHeads.filter (fun e => e.1 < key)⟩ := by
  rw [removeAll_eq, mk.injEq]
  apply List.filter_congr
  intro e he
  rw [Bool.eq_iff_iff, decide_eq_true_iff, decide_eq_true_iff, ← Nat.not_le, not_iff_not]
  simp only [entriesFrom, List.mem_map, List.mem_filter, decide_eq_true_eq]
  constructor
  · rintro ⟨e', ⟨_, hle⟩, heq⟩
    exact heq ▸ hle
  · intro hle
    exact ⟨e, ⟨he, hle⟩, rfl⟩

/-- No entry from the origin on is at or above the head: nothing changes. -/
theorem safeHeadReset_of_below {db : SafeDB} {recorded : L2BlockInfo}
    (h : ∀ e ∈ db.safeHeads, recorded.l1Origin.number.toNat ≤ e.1 →
      (decodeValue e.2).2.2 < recorded.blockInfo.number) : db.safeHeadReset recorded = db := by
  have hnone : db.firstKey recorded = none := by
    simp only [firstKey, Option.map_eq_none_iff, List.find?_eq_none, entriesFrom,
      List.mem_filter, decide_eq_true_eq, BitVec.not_le]
    intro e he
    exact h e he.1 he.2
  rw [safeHeadReset, hnone]

/-- The entry at the origin is at or above the head: the table is cut there. -/
theorem safeHeadReset_of_mem {db : SafeDB} {recorded : L2BlockInfo}
    (hsorted : (keys db.safeHeads).Pairwise (· < ·))
    (hmem : (recorded.l1Origin.number.toNat, value) ∈ db.safeHeads)
    (habove : recorded.blockInfo.number ≤ (decodeValue value).2.2) :
    (db.safeHeadReset recorded).safeHeads = insertKey recorded.l1Origin.number.toNat
      (encodeValue recorded.l1Origin.hash recorded.blockInfo.hash recorded.blockInfo.number)
      (db.safeHeads.filter (fun e => e.1 < recorded.l1Origin.number.toNat)) := by
  obtain ⟨rest, hfrom⟩ := filter_from_of_mem hsorted hmem
  have hfirst : db.firstKey recorded = some recorded.l1Origin.number.toNat := by
    rw [firstKey, entriesFrom, hfrom, List.find?_cons_of_pos (by simpa using habove)]
    rfl
  rw [safeHeadReset, hfirst]
  simp [removeFrom_eq]

end SafeDB

namespace SafeHistory

variable {blocks : L2Blocks} {confirmed : List Confirmation} {db : SafeDB} {c : Confirmation}

/-- The database mirrors the confirmations, and these are on the safe chain. -/
structure Truthful (blocks : L2Blocks) (h : SafeHistory) : Prop where
  mirrors : Mirrors h.db.safeHeads (h.confirmed.map Confirmation.entry)
  safe : ∀ c ∈ h.confirmed, ∀ head, h.safeHead = some head → blocks.OnChain c.head head

theorem decode_entry (c : Confirmation) :
    SafeDB.decodeValue c.entry.2 =
      (c.inclusion.hash, c.head.blockInfo.hash, c.head.blockInfo.number) :=
  decode_encode _ _ _

theorem latest_confirmed (confirmed : List Confirmation) (n : ℕ) :
    latest (confirmed.map Confirmation.entry) n =
      ((confirmed.filter (fun c => c.inclusion.number.toNat ≤ n)).getLast?).map
        Confirmation.entry := by
  rw [latest, List.filter_map, List.getLast?_map]
  rfl

/-- A reset of the database keeps up with the one of the safe chain. -/
theorem Rewinds.mirrors {recorded : L2BlockInfo} (h : Rewinds blocks confirmed recorded head)
    (hdb : Mirrors db.safeHeads (confirmed.map Confirmation.entry)) :
    Mirrors (db.safeHeadReset recorded).safeHeads
      ((rewind blocks confirmed head).map Confirmation.entry) := by
  rcases h with ⟨hall, hbelow⟩ |
    ⟨kept, inclusion, dropped, rfl, hnumber, hhash, hon, hkept, hdropped⟩
  · have hsame : rewind blocks confirmed head = confirmed :=
      List.filter_eq_self.mpr (fun c hc => decide_eq_true (hall c hc))
    rw [hsame, safeHeadReset_of_below]
    · exact hdb
    · intro e he hle
      obtain ⟨c, hc, rfl⟩ := List.mem_map.mp (hdb.mem he)
      rw [decode_entry]
      exact hbelow c hc hle
  · have hrewind : rewind blocks (kept ++ ⟨recorded, inclusion⟩ :: dropped) head =
        kept ++ [⟨recorded, inclusion⟩] := by
      have hnone : rewind blocks dropped head = [] :=
        List.filter_eq_nil_iff.mpr (fun c hc => by simpa using (hdropped c hc).1)
      have hall : rewind blocks kept head = kept :=
        List.filter_eq_self.mpr (fun c hc => decide_eq_true (hkept c hc))
      rw [rewind, List.filter_append, List.filter_cons_of_pos (by simpa using hon)]
      exact congrArg₂ _ hall (congrArg _ hnone)
    have hentry : Confirmation.entry ⟨recorded, inclusion⟩ = (recorded.l1Origin.number.toNat,
        encodeValue recorded.l1Origin.hash recorded.blockInfo.hash
          recorded.blockInfo.number) := by
      simp [Confirmation.entry, hnumber, hhash]
    have hkeys : ∀ e ∈ dropped.map Confirmation.entry,
        recorded.l1Origin.number.toNat ≤ e.1 := by
      intro e he
      obtain ⟨c, hc, rfl⟩ := List.mem_map.mp he
      exact (hdropped c hc).2.1
    rw [List.map_append, List.map_cons, hentry] at hdb
    -- The entry at the origin is of the head or of one that was confirmed after it.
    obtain ⟨value, hvalue, horigin⟩ := latest_at_cut (kept.map Confirmation.entry) hkeys
    have hmem := hdb.answers recorded.l1Origin.number.toNat
    rw [hvalue] at hmem
    have habove : recorded.blockInfo.number ≤ (decodeValue value).2.2 := by
      rcases horigin with hsame | hlater
      · rw [hsame, decode_encode]
        exact BitVec.le_refl _
      · obtain ⟨c, hc, hc'⟩ := List.mem_map.mp hlater
        have hpacked : c.entry.2 = value := congrArg Prod.snd hc'
        rw [← hpacked, decode_entry]
        exact (hdropped c hc).2.2
    rw [safeHeadReset_of_mem hdb.sorted (latest_eq_some hmem).1 habove, hrewind,
      List.map_append, List.map_singleton, hentry]
    exact hdb.cut hkeys

theorem mirrors_confirm (hlinear : ∀ x ∈ confirmed, x.inclusion.number ≤ c.inclusion.number ∧
      (blocks.OnChain x.head c.head ∨ x.inclusion.number = c.inclusion.number))
    (hdb : Mirrors db.safeHeads (confirmed.map Confirmation.entry)) :
    Mirrors (db.safeHeadUpdated c.head c.inclusion).safeHeads
      ((rewind blocks confirmed c.head ++ [c]).map Confirmation.entry) := by
  rw [List.map_append, List.map_singleton]
  refine hdb.insert ?_ ?_ _
  · intro e he
    obtain ⟨x, hx, rfl⟩ := List.mem_map.mp he
    exact (hlinear x hx).1
  · intro n hn
    rw [latest_confirmed, latest_confirmed, rewind, List.filter_filter]
    congr 2
    apply List.filter_congr
    intro x hx
    rcases (hlinear x hx).2 with hon | hsame
    · simp [hon]
    · have hout : ¬x.inclusion.number.toNat ≤ n := by
        rw [hsame]
        exact Nat.not_le.mpr hn
      simp [hout]

theorem mirrors_written {h : SafeHistory} (ht : h.Truthful blocks)
    {request : DerivationActorRequest} (hlinear : h.Linear blocks request) :
    Mirrors (DerivationActor.written { h.run.actor with sent := [] } h.db request).safeHeads
      ((h.confirmedAfter blocks request).1.map Confirmation.entry) := by
  cases request with
  | processEngineSyncCompletion head => exact Rewinds.mirrors hlinear ht.mirrors
  | processEngineSafeHeadUpdate head =>
    exact mirrors_confirm (c := ⟨head, h.run.actor.inclusionBlock head⟩) hlinear ht.mirrors
  | processEngineSignal sig =>
    cases sig with
    | reset head => exact Rewinds.mirrors hlinear ht.mirrors
    | activation head => exact ht.mirrors
    | flushChannel => exact ht.mirrors
  | processFinalizedL1Block l1 => exact ht.mirrors
  | processL1HeadUpdate l1Head => exact ht.mirrors

theorem onChain_of_rewind {head : L2BlockInfo} (hc : c ∈ rewind blocks confirmed head) :
    blocks.OnChain c.head head := of_decide_eq_true (List.mem_filter.mp hc).2

theorem safe_confirmedAfter {h : SafeHistory} (ht : h.Truthful blocks)
    (request : DerivationActorRequest) :
    ∀ c ∈ (h.confirmedAfter blocks request).1, ∀ head,
      (h.confirmedAfter blocks request).2 = some head → blocks.OnChain c.head head := by
  intro c hc head hhead
  cases request with
  | processEngineSyncCompletion safeHead =>
    cases hhead
    exact onChain_of_rewind hc
  | processEngineSafeHeadUpdate safeHead =>
    cases hhead
    rcases List.mem_append.mp hc with hc | hc
    · exact onChain_of_rewind hc
    · rw [List.mem_singleton.mp hc]
      exact blocks.onChain_self _
  | processEngineSignal sig =>
    cases sig with
    | reset safeHead =>
      cases hhead
      exact onChain_of_rewind hc
    | activation safeHead => exact ht.safe c hc head hhead
    | flushChannel => exact ht.safe c hc head hhead
  | processFinalizedL1Block l1 => exact ht.safe c hc head hhead
  | processL1HeadUpdate l1Head => exact ht.safe c hc head hhead

theorem truthful_new (blocks : L2Blocks) : new.Truthful blocks :=
  ⟨mirrors_nil, nofun⟩

theorem Truthful.serve {h : SafeHistory} (ht : h.Truthful blocks) (hjob : Faithful blocks job h)
    (hserve : serve blocks job h = .ok h') : h'.Truthful blocks := by
  unfold SafeHistory.serve at hserve
  split at hserve
  · cases hserve
  · cases hserve
    refine ⟨?_, safe_confirmedAfter ht job.request⟩
    rw [DerivationActor.observe_handle job hjob.resets hjob.updates]
    exact mirrors_written ht hjob.linear

theorem Truthful.safeHeadAtL1 {h : SafeHistory} (ht : h.Truthful blocks) (n : U64) :
    h.db.safeHeadAtL1 n =
      match h.lastConfirmed n with
      | some c => .ok c.response
      | none => .error .notFound := by
  have hanswer : latest h.db.safeHeads n.toNat = (h.lastConfirmed n).map Confirmation.entry :=
    (ht.mirrors.answers n.toNat).trans (latest_confirmed h.confirmed n.toNat)
  rw [SafeDB.safeHeadAtL1, show (h.db.safeHeads.filter
    (fun e => decide (e.1 ≤ n.toNat))).getLast? = _ from hanswer]
  cases h.lastConfirmed n with
  | none => rfl
  | some c =>
    have hnumber : BitVec.ofNat 64 c.entry.1 = c.inclusion.number := by simp [Confirmation.entry]
    simp only [Option.map_some, decode_entry, hnumber]
    rfl

/-- In every run of the actor in which the database can be written and every request keeps the
history linear, the safe head at an L1 block is the last head that was confirmed, is on the
current safe chain and was included at or before the block. -/
theorem safe_head_history_is_truthful (blocks : L2Blocks) {h : SafeHistory}
    (hrun : Reachable (serve blocks) (Faithful blocks) new h) (n : U64) :
    (h.db.safeHeadAtL1 n =
      match h.lastConfirmed n with
      | some c => .ok c.response
      | none => .error .notFound) ∧
    ∀ c, h.lastConfirmed n = some c → c.inclusion.number ≤ n ∧
      ∀ head, h.safeHead = some head → blocks.OnChain c.head head := by
  have ht : h.Truthful blocks :=
    hrun.invariant (truthful_new blocks) (fun job s s' hjob hs hok => hs.serve hjob hok)
  refine ⟨ht.safeHeadAtL1 n, fun c hc => ?_⟩
  obtain ⟨hmem, hle⟩ := List.mem_filter.mp (List.mem_of_getLast? hc)
  exact ⟨of_decide_eq_true hle, ht.safe c hmem⟩

open DerivationRun (preparedJob plainL1)

def plainBlocks : L2Blocks := ⟨fun hash => hash - 1⟩

/-- A head that was included in its own L1 origin is confirmed, and the pipeline is reset to
it. -/
def resetToHead : List DerivationJob :=
  [preparedJob (.processEngineSyncCompletion (plainRef 8)) 8 0,
    preparedJob (.processEngineSafeHeadUpdate (plainRef 9)) 9 1,
    preparedJob (.processEngineSignal (.reset (plainRef 9))) 9 1]

theorem safe_head_history_is_truthful_reset :
    ((Library.run (serve plainBlocks) new resetToHead).db.safeHeadAtL1 3 =
      match (Library.run (serve plainBlocks) new resetToHead).lastConfirmed 3 with
      | some c => .ok c.response
      | none => .error .notFound) ∧
    ∀ c, (Library.run (serve plainBlocks) new resetToHead).lastConfirmed 3 = some c →
      c.inclusion.number ≤ 3 ∧
        ∀ head, (Library.run (serve plainBlocks) new resetToHead).safeHead = some head →
          plainBlocks.OnChain c.head head := by
  have hfaithful : Admissible (serve plainBlocks) (Faithful plainBlocks) new resetToHead := by
    refine ⟨⟨fun _ _ => rfl, fun _ _ _ => rfl, ?_⟩, ⟨fun _ _ => rfl, fun _ _ _ => rfl, ?_⟩,
      ⟨fun _ _ => rfl, fun _ _ _ => rfl, ?_⟩, trivial⟩
    · exact .inl ⟨nofun, nofun⟩
    · exact nofun
    · refine .inr ⟨[], plainL1 0, [], by decide +kernel, by decide, by decide, by decide +kernel,
        nofun, nofun⟩
  exact safe_head_history_is_truthful plainBlocks (Reachable.start.admissible hfaithful) 3

/-- A head is confirmed and the pipeline is reset to the block before it. -/
def resetBelowHead : List DerivationJob :=
  [preparedJob (.processEngineSyncCompletion (plainRef 8)) 8 5,
    preparedJob (.processEngineSafeHeadUpdate (plainRef 9)) 9 6,
    preparedJob (.processEngineSignal (.reset (plainRef 8))) 9 6]

theorem abandoned_head_is_still_safe :
    (Library.run (serve plainBlocks) new resetBelowHead).safeHead = some (plainRef 8) ∧
    ((Library.run (serve plainBlocks) new resetBelowHead).db.safeHeadAtL1 5).toOption =
      some ⟨⟨0, 0⟩, ⟨9, 9⟩⟩ ∧
    (Library.run (serve plainBlocks) new resetBelowHead).lastConfirmed 5 = none := by
  decide +kernel

end SafeHistory
end SciChain.Node
