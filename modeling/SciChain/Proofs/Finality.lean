import SciChain.Proofs.DerivationSteps
import SciChain.Proofs.ForkchoiceOrder

namespace SciChain.Node
open Derive Engine Library Procedure DerivationActor

variable {finalizer : L2Finalizer} {l1 : BlockInfo} {derived : List AttributesWithParent}
  {a b : AttributesWithParent} {s t : DerivationActor} {r : Except DerivationEnd Unit}

/-! What the run of the derivation actor has done since the last reset. -/

/-- The number of the L1 block that attributes were derived from. -/
def l1Number (attributes : AttributesWithParent) : Option ℕ :=
  attributes.derivedFrom.map (·.number.toNat)

def isReset : DerivationActorRequest → Bool
  | .processEngineSignal (.reset _) => true
  | _ => false

def derivedIn : EngineProcessingRequest → Option AttributesWithParent
  | .processSafeL2Signal (.attributes attributes) => some attributes
  | _ => none

def finalizedIn : EngineProcessingRequest → Option U64
  | .processFinalizedL2BlockNumber number => some number
  | _ => none

/-- What was sent since the last reset, as far as it is of the kind. -/
def since {α : Type} (kind : EngineProcessingRequest → Option α)
    (trace : List (DerivationActorRequest × List EngineProcessingRequest)) : List α :=
  trace.foldl (fun sent e => (if isReset e.1 then [] else sent) ++ e.2.filterMap kind) []

theorem since_concat {α : Type} (kind : EngineProcessingRequest → Option α)
    (trace : List (DerivationActorRequest × List EngineProcessingRequest))
    (e : DerivationActorRequest × List EngineProcessingRequest) :
    since kind (trace ++ [e]) =
      (if isReset e.1 then [] else since kind trace) ++ e.2.filterMap kind := by
  rw [since, List.foldl_append]
  rfl

/-- The finalizer waits for exactly these attributes: of those of one L1 block it has the
highest number. -/
structure Awaits (finalizer : L2Finalizer) (left : List AttributesWithParent) : Prop where
  sorted : (keys finalizer.awaitingFinalization).Pairwise (· < ·)
  covered : ∀ a ∈ left, ∃ key v, l1Number a = some key ∧
    (key, v) ∈ finalizer.awaitingFinalization ∧ a.blockNumber ≤ v
  sound : ∀ key v, (key, v) ∈ finalizer.awaitingFinalization →
    ∃ a ∈ left, l1Number a = some key ∧ a.blockNumber = v

theorem awaits_clear : Awaits .clear [] :=
  ⟨List.Pairwise.nil, nofun, nofun⟩

theorem mem_insertKey (h : (keys m).Pairwise (· < ·)) (key' : ℕ) (v' : U64) :
    (key', v') ∈ insertKey key v m ↔ (key' = key ∧ v' = v) ∨ (key' ≠ key ∧ (key', v') ∈ m) := by
  have hnew : (keys (insertKey key v m)).Nodup := (sorted_insertKey h).imp Nat.ne_of_lt
  have hold : (keys m).Nodup := h.imp Nat.ne_of_lt
  rw [← lookup_eq_some_iff_mem hnew, ← lookup_eq_some_iff_mem hold, lookup_insertKey]
  by_cases hkey : key' = key
  · simp [hkey, eq_comm]
  · simp [hkey]

/-- The number that the finalizer keeps for an L1 block when attributes are added. -/
def keptNumber (finalizer : L2Finalizer) (a : AttributesWithParent) (key : ℕ) : U64 :=
  match finalizer.awaitingFinalization.lookup key with
  | some n => if n < a.blockNumber then a.blockNumber else n
  | none => a.blockNumber

theorem enqueue_eq_some (h : finalizer.enqueueForFinalization a = some finalizer') :
    ∃ key, l1Number a = some key ∧ finalizer'.awaitingFinalization =
      insertKey key (keptNumber finalizer a key) finalizer.awaitingFinalization := by
  cases hfrom : a.derivedFrom with
  | none => simp [L2Finalizer.enqueueForFinalization, hfrom] at h
  | some block =>
    simp only [L2Finalizer.enqueueForFinalization, hfrom, Option.bind_eq_bind, Option.bind_some,
      Option.pure_def, Option.some.injEq] at h
    subst h
    exact ⟨block.number.toNat, by simp [l1Number, hfrom], rfl⟩

theorem blockNumber_le_kept (finalizer : L2Finalizer) (a : AttributesWithParent) (key : ℕ) :
    a.blockNumber ≤ keptNumber finalizer a key := by
  unfold keptNumber
  split
  · split
    · exact BitVec.le_refl _
    · rename_i hlt
      exact BitVec.not_lt.mp hlt
  · exact BitVec.le_refl _

theorem le_kept (a : AttributesWithParent)
    (h : finalizer.awaitingFinalization.lookup key = some v) : v ≤ keptNumber finalizer a key := by
  unfold keptNumber
  rw [h]
  dsimp only
  split
  · rename_i hlt
    exact BitVec.le_of_lt hlt
  · exact BitVec.le_refl _

theorem Awaits.enqueue (h : Awaits finalizer left)
    (henqueue : finalizer.enqueueForFinalization a = some finalizer') :
    Awaits finalizer' (left ++ [a]) := by
  obtain ⟨key, hkey, hqueue⟩ := enqueue_eq_some henqueue
  have hnodup : (keys finalizer.awaitingFinalization).Nodup := h.sorted.imp Nat.ne_of_lt
  refine ⟨by rw [hqueue]; exact sorted_insertKey h.sorted, ?_, ?_⟩
  · intro b hb
    rw [hqueue]
    simp only [mem_insertKey h.sorted]
    rcases List.mem_append.mp hb with hb | hb
    · obtain ⟨key', v, hkey', hmem, hle⟩ := h.covered b hb
      by_cases heq : key' = key
      · subst heq
        have hlookup := (lookup_eq_some_iff_mem hnodup).mpr hmem
        exact ⟨key', _, hkey', .inl ⟨rfl, rfl⟩, BitVec.le_trans hle (le_kept a hlookup)⟩
      · exact ⟨key', v, hkey', .inr ⟨heq, hmem⟩, hle⟩
    · obtain rfl := List.mem_singleton.mp hb
      exact ⟨key, _, hkey, .inl ⟨rfl, rfl⟩, blockNumber_le_kept finalizer b key⟩
  · intro key' v hmem
    rw [hqueue, mem_insertKey h.sorted] at hmem
    rcases hmem with ⟨rfl, rfl⟩ | ⟨_, hmem⟩
    · have hnew : ∃ b ∈ left ++ [a], l1Number b = some key' ∧ b.blockNumber = a.blockNumber :=
        ⟨a, by simp, hkey, rfl⟩
      unfold keptNumber
      split
      · rename_i n hn
        split
        · exact hnew
        · obtain ⟨b, hb, hb'⟩ := h.sound key' n ((lookup_eq_some_iff_mem hnodup).mp hn)
          exact ⟨b, List.mem_append_left _ hb, hb'⟩
      · exact hnew
    · obtain ⟨b, hb, hb'⟩ := h.sound key' v hmem
      exact ⟨b, List.mem_append_left _ hb, hb'⟩

/-- The attributes that wait for L1 blocks after the bound. -/
def later (bound : ℕ) (left : List AttributesWithParent) : List AttributesWithParent :=
  left.filter (fun a => (l1Number a).any (fun key => bound < key))

theorem mem_later :
    a ∈ later bound left ↔ a ∈ left ∧ ∃ key, l1Number a = some key ∧ bound < key := by
  simp [later, Option.any_eq_true]

theorem Awaits.later (h : Awaits finalizer left) (bound : ℕ) :
    Awaits ⟨finalizer.awaitingFinalization.filter (fun e => bound < e.1)⟩ (later bound left) := by
  refine ⟨?_, ?_, ?_⟩
  · exact h.sorted.sublist (List.filter_sublist.map Prod.fst)
  · intro a ha
    obtain ⟨hleft, key, hkey, hbound⟩ := mem_later.mp ha
    obtain ⟨key', v, hkey', hmem, hle⟩ := h.covered a hleft
    obtain rfl : key = key' := Option.some.inj (hkey.symm.trans hkey')
    exact ⟨key, v, hkey, List.mem_filter.mpr ⟨hmem, by simpa using hbound⟩, hle⟩
  · intro key v hmem
    obtain ⟨hmem, hbound⟩ := List.mem_filter.mp hmem
    obtain ⟨a, ha, hkey, hv⟩ := h.sound key v hmem
    exact ⟨a, mem_later.mpr ⟨ha, key, hkey, by simpa using hbound⟩, hkey, hv⟩

/-- What is finalized is the highest number of the last L1 block that has one. -/
theorem tryFinalizeNext_some (hsorted : (keys finalizer.awaitingFinalization).Pairwise (· < ·))
    (h : finalizer.tryFinalizeNext l1 = (some n, finalizer')) :
    finalizer' = ⟨finalizer.awaitingFinalization.filter (fun e => l1.number.toNat < e.1)⟩ ∧
      ∃ key, key ≤ l1.number.toNat ∧ (key, n) ∈ finalizer.awaitingFinalization ∧
        ∀ key' v, (key', v) ∈ finalizer.awaitingFinalization → key' ≤ l1.number.toNat →
          key' ≤ key := by
  unfold L2Finalizer.tryFinalizeNext at h
  dsimp only at h
  split at h
  · rename_i key highest hlast
    cases h
    refine ⟨rfl, key, ?_⟩
    obtain ⟨front, hfront⟩ := List.getLast?_eq_some_iff.mp hlast
    have hmem : (key, n) ∈ finalizer.awaitingFinalization.filter
        (fun e => e.1 ≤ l1.number.toNat) := by
      rw [hfront]
      exact List.mem_append_right _ List.mem_cons_self
    obtain ⟨hmem, hbound⟩ := List.mem_filter.mp hmem
    refine ⟨by simpa using hbound, hmem, ?_⟩
    intro key' v hmem' hbound'
    have hkeys : (keys (front ++ [(key, n)])).Pairwise (· < ·) := by
      rw [← hfront]
      exact hsorted.sublist (List.filter_sublist.map Prod.fst)
    have hin : (key', v) ∈ front ++ [(key, n)] := by
      rw [← hfront]
      exact List.mem_filter.mpr ⟨hmem', by simpa using hbound'⟩
    rcases List.mem_append.mp hin with hin | hin
    · rw [keys, List.map_append, List.pairwise_append] at hkeys
      exact Nat.le_of_lt (hkeys.2.2 key' (mem_keys_of_mem hin) key (by simp))
    · cases List.mem_singleton.mp hin
      exact Nat.le_refl _
  · cases h

theorem tryFinalizeNext_none (h : finalizer.tryFinalizeNext l1 = (none, finalizer')) :
    finalizer' = finalizer := by
  unfold L2Finalizer.tryFinalizeNext at h
  dsimp only at h
  split at h
  · cases h
  · cases h
    rfl

/-- Attributes in the order of a pipeline run: the L1 blocks do not go back and the block
numbers grow. -/
def InOrder (a b : AttributesWithParent) : Prop :=
  (∀ x y, l1Number a = some x → l1Number b = some y → x ≤ y) ∧ a.blockNumber < b.blockNumber

section

variable (h : derived.Pairwise InOrder) (ha : a ∈ derived) (hb : b ∈ derived)
include h ha hb

theorem inOrder_cases : a = b ∨ InOrder a b ∨ InOrder b a := by
  induction derived with
  | nil => cases ha
  | cons c rest ih =>
    obtain ⟨hfirst, hrest⟩ := List.pairwise_cons.mp h
    rcases List.mem_cons.mp ha with rfl | ha'
    · rcases List.mem_cons.mp hb with rfl | hb'
      · exact .inl rfl
      · exact .inr (.inl (hfirst b hb'))
    · rcases List.mem_cons.mp hb with rfl | hb'
      · exact .inr (.inr (hfirst a ha'))
      · exact ih hrest ha' hb'

theorem l1_le_of_number_le (hle : a.blockNumber ≤ b.blockNumber) (hx : l1Number a = some x)
    (hy : l1Number b = some y) : x ≤ y := by
  rcases inOrder_cases h ha hb with rfl | hab | hba
  · exact Nat.le_of_eq (Option.some.inj (hx.symm.trans hy))
  · exact hab.1 x y hx hy
  · exact absurd hle (BitVec.not_le.mpr hba.2)

theorem number_lt_of_l1_lt (hx : l1Number a = some x) (hy : l1Number b = some y) (hlt : x < y) :
    a.blockNumber < b.blockNumber := by
  rw [← BitVec.not_le]
  intro hle
  exact Nat.not_lt.mpr (l1_le_of_number_le h hb ha hle hy hx) hlt

end

/-- How the finalizer stands to what was derived and requested since the last reset, with the
attributes that are left. -/
structure Follows (derived : List AttributesWithParent) (requested : List U64)
    (finalizer : L2Finalizer) (left : List AttributesWithParent) : Prop where
  awaits : Awaits finalizer left
  known : ∀ a ∈ left, a ∈ derived
  fromL1 : ∀ a ∈ derived, ∃ key, l1Number a = some key
  consumed : ∀ a ∈ derived, a ∈ left ∨ ∃ m ∈ requested, a.blockNumber ≤ m
  above : ∀ m ∈ requested, ∀ a ∈ left, m < a.blockNumber
  requests : ∀ m ∈ requested, ∃ a ∈ derived, a.blockNumber = m

theorem follows_reset : Follows [] [] .clear [] :=
  ⟨awaits_clear, fun _ h => (by cases h), fun _ h => (by cases h), nofun,
    nofun, nofun⟩

theorem Follows.derive (h : Follows derived requested finalizer left)
    (henqueue : finalizer.enqueueForFinalization a = some finalizer')
    (horder : (derived ++ [a]).Pairwise InOrder) :
    Follows (derived ++ [a]) requested finalizer' (left ++ [a]) := by
  obtain ⟨key, hkey, _⟩ := enqueue_eq_some henqueue
  rw [List.pairwise_append] at horder
  refine ⟨h.awaits.enqueue henqueue, ?_, ?_, ?_, ?_, ?_⟩
  · exact List.append_subset.mpr ⟨fun b hb => List.mem_append_left _ (h.known b hb),
      List.subset_append_right _ _⟩
  · exact List.forall_mem_append.mpr ⟨h.fromL1, List.forall_mem_singleton.mpr ⟨key, hkey⟩⟩
  · intro b hb
    rcases List.mem_append.mp hb with hb | hb
    · exact (h.consumed b hb).imp_left (List.mem_append_left _)
    · exact .inl (List.mem_append_right _ hb)
  · intro m hm
    obtain ⟨c, hc, hcm⟩ := h.requests m hm
    have hlt := (horder.2.2 c hc a List.mem_cons_self).2
    exact List.forall_mem_append.mpr ⟨h.above m hm, List.forall_mem_singleton.mpr (hcm ▸ hlt)⟩
  · intro m hm
    obtain ⟨b, hb, hm⟩ := h.requests m hm
    exact ⟨b, List.mem_append_left _ hb, hm⟩

/-- What a finalized number says about the attributes derived since the last reset. -/
structure Finalizes (derived : List AttributesWithParent) (requested : List U64) (l1 : BlockInfo)
    (n : U64) : Prop where
  fromFinalized : ∀ a ∈ derived, a.blockNumber ≤ n →
    ∃ key, l1Number a = some key ∧ key ≤ l1.number.toNat
  isDerived : ∃ a ∈ derived, a.blockNumber = n
  greatest : ∀ a ∈ derived,
    (∀ b ∈ derived, b.blockNumber ≤ a.blockNumber →
      ∃ key, l1Number b = some key ∧ key ≤ l1.number.toNat) → a.blockNumber ≤ n
  new : ∀ m ∈ requested, m < n

theorem Follows.finalize {requested : List U64} {finalizer' : L2Finalizer}
    {left : List AttributesWithParent} (h : Follows derived requested finalizer left) {n : U64}
    (hfinalize : finalizer.tryFinalizeNext l1 = (some n, finalizer'))
    (horder : derived.Pairwise InOrder) :
    Finalizes derived requested l1 n ∧
      Follows derived (requested ++ [n]) finalizer' (later l1.number.toNat left) := by
  obtain ⟨rfl, key, hkey, hmem, hlast⟩ := tryFinalizeNext_some h.awaits.sorted hfinalize
  obtain ⟨a, ha, hakey, rfl⟩ := h.awaits.sound key n hmem
  have haderived := h.known a ha
  -- Of the attributes that are left those of finalized L1 blocks are not above the number.
  have hleft (b : AttributesWithParent) (hb : b ∈ left) {x : ℕ} (hx : l1Number b = some x)
      (hbound : x ≤ l1.number.toNat) : b.blockNumber ≤ a.blockNumber := by
    obtain ⟨x', v, hx', hv, hle⟩ := h.awaits.covered b hb
    obtain rfl : x = x' := Option.some.inj (hx.symm.trans hx')
    rcases Nat.lt_or_eq_of_le (hlast x v hv hbound) with hlt | rfl
    · exact BitVec.le_of_lt
        (number_lt_of_l1_lt horder (h.known b hb) haderived hx hakey hlt)
    · have hnodup : (keys finalizer.awaitingFinalization).Nodup :=
        h.awaits.sorted.imp Nat.ne_of_lt
      have hv' := (lookup_eq_some_iff_mem hnodup).mpr hv
      rw [(lookup_eq_some_iff_mem hnodup).mpr hmem] at hv'
      cases hv'
      exact hle
  refine ⟨⟨?_, ⟨a, haderived, rfl⟩, ?_, fun m hm => h.above m hm a ha⟩,
    h.awaits.later _, ?_, h.fromL1, ?_, ?_, ?_⟩
  · intro b hb hle
    obtain ⟨x, hx⟩ := h.fromL1 b hb
    exact ⟨x, hx, Nat.le_trans (l1_le_of_number_le horder hb haderived hle hx hakey) hkey⟩
  · intro b hb hall
    obtain ⟨x, hx, hbound⟩ := hall b hb (BitVec.le_refl _)
    rcases h.consumed b hb with hb' | ⟨m, hm, hle⟩
    · exact hleft b hb' hx hbound
    · exact BitVec.le_trans hle (BitVec.le_of_lt (h.above m hm a ha))
  · intro b hb
    exact h.known b (mem_later.mp hb).1
  · intro b hb
    rcases h.consumed b hb with hb' | ⟨m, hm, hle⟩
    · obtain ⟨x, hx⟩ := h.fromL1 b hb
      rcases Nat.lt_or_ge l1.number.toNat x with hlt | hge
      · exact .inl (mem_later.mpr ⟨hb', x, hx, hlt⟩)
      · exact .inr ⟨a.blockNumber, by simp, hleft b hb' hx hge⟩
    · exact .inr ⟨m, List.mem_append_left _ hm, hle⟩
  · intro m hm b hb
    obtain ⟨hb', x, hx, hlt⟩ := mem_later.mp hb
    rcases List.mem_append.mp hm with hm | hm
    · exact h.above m hm b hb'
    · cases List.mem_singleton.mp hm
      exact number_lt_of_l1_lt horder haderived (h.known b hb') hakey hx
        (Nat.lt_of_le_of_lt hkey hlt)
  · exact List.forall_mem_append.mpr
      ⟨h.requests, List.forall_mem_singleton.mpr ⟨a, haderived, rfl⟩⟩

/-- What a request does to the finalizer, with what is sent to the engine meanwhile. -/
inductive Effect (request : DerivationActorRequest) (before : L2Finalizer) :
    Bool → L2Finalizer → List EngineProcessingRequest → Prop
  | clears (h : isReset request = true) : Effect request before false .clear []
  | keeps (h : isReset request = false) : Effect request before false before []
  | asksReset (h : isReset request = false) :
      Effect request before false before [.reset .derivation]
  | derives (h : isReset request = false) (a : AttributesWithParent) (finalizer : L2Finalizer)
      (henqueue : before.enqueueForFinalization a = some finalizer) :
      Effect request before false finalizer [.processSafeL2Signal (.attributes a)]
  | finalizes (l1 : BlockInfo) (h : request = .processFinalizedL1Block l1) (n : U64)
      (finalizer : L2Finalizer) (hfinalize : before.tryFinalizeNext l1 = (some n, finalizer)) :
      Effect request before false finalizer [.processFinalizedL2BlockNumber n]
  | ends (finalizer : L2Finalizer) : Effect request before true finalizer []

theorem effect_of_attempt (h : s.Attempt r t) (hreset : isReset request = false)
    (hsent : s.sent = []) (hbefore : s.finalizer = before) :
    Effect request before (!r.isOk) t.finalizer t.sent := by
  subst hbefore
  cases h with
  | derived a finalizer henqueue =>
    simp only [hsent]
    exact .derives hreset a finalizer henqueue
  | waiting =>
    simp only [withState_sent, hsent]
    exact .keeps hreset
  | reset =>
    simp only [hsent]
    exact .asksReset hreset
  | failed e t hregular hsame =>
    rw [hsame, hsent]
    exact .ends _

theorem effect_of_advanced (h : s.Advanced u r t) (hreset : isReset request = false)
    (hsent : s.sent = []) (hbefore : s.finalizer = before) :
    Effect request before (!r.isOk) t.finalizer t.sent := by
  subst hbefore
  cases h with
  | invalid e h =>
    rw [hsent]
    exact .ends _
  | skipped machine h hstate =>
    simp only [hsent]
    exact .keeps hreset
  | attempted machine h hstate r t ha => exact effect_of_attempt ha hreset hsent rfl

theorem handle_effect (steps : ℕ) (request : DerivationActorRequest) (hsent : s.sent = []) :
    (DerivationActor.handle steps request).Ensures allowed (fun _ => True) s
      (fun r t => Effect request s.finalizer (!r.isOk) t.finalizer t.sent) := by
  cases request with
  | processEngineSignal sig =>
    refine (handle_signal steps sig).mono ?_
    intro r t h
    have hsame : (s.afterSignal sig).sent = [] := by cases sig <;> exact hsent
    cases h with
    | invalid e h =>
      rw [hsame]
      exact .ends _
    | valid machine h =>
      simp only [hsame]
      cases sig with
      | reset safeHead => exact .clears rfl
      | activation safeHead => exact .keeps rfl
      | flushChannel => exact .keeps rfl
  | processFinalizedL1Block l1 =>
    refine (handle_finalized steps l1).mono ?_
    intro r t h
    cases h with
    | nothing h =>
      have hnone := tryFinalizeNext_none (Prod.ext h rfl)
      simp only [hsent, hnone]
      exact .keeps rfl
    | requested n h =>
      simp only [hsent]
      exact .finalizes l1 rfl n _ (Prod.ext h rfl)
    | failed e =>
      simp only [hsent]
      exact .ends _
  | processL1HeadUpdate l1Head =>
    exact (handle_l1Head steps l1Head).mono
      (fun r t h => effect_of_advanced h rfl hsent rfl)
  | processEngineSafeHeadUpdate safeHead =>
    exact (handle_safeHead steps safeHead).mono
      (fun r t h => effect_of_advanced h rfl hsent rfl)
  | processEngineSyncCompletion safeHead =>
    exact (handle_syncCompletion steps safeHead).mono
      (fun r t h => effect_of_advanced h rfl hsent rfl)

namespace DerivationRun

variable {run : DerivationRun} {request : DerivationActorRequest}
  {sent : List EngineProcessingRequest}

theorem serve_effect (h : run.ended = false) (job : DerivationJob) :
    ∃ sent, (run.serve job).trace = run.trace ++ [(job.request, sent)] ∧
      Effect job.request run.actor.finalizer (run.serve job).ended (run.serve job).actor.finalizer
        sent := by
  have heffect : (handle job.steps job.request).Ensures (fun _ _ => True)
      (fun _ => True) { run.actor with sent := [] }
      (fun r t => Effect job.request run.actor.finalizer (!r.isOk) t.finalizer t.sent) :=
    handle_effect job.steps job.request rfl
  have hsound := (heffect.sound (n := 0) (fun x (_ : x ∈ Dialogue.exchanges job.answers _ _) =>
    trivial)).1
  simp only [serve, h]
  exact ⟨_, rfl, hsound⟩

/-- Every number that was requested to be finalized is right at its time, and the finalizer
follows what was derived since the last reset. -/
structure Sound (run : DerivationRun) : Prop where
  follows : run.ended = false → (since derivedIn run.trace).Pairwise InOrder →
    ∃ left, Follows (since derivedIn run.trace) (since finalizedIn run.trace) run.actor.finalizer
      left
  requests : ∀ before entry after, run.trace = before ++ entry :: after →
    (since derivedIn before).Pairwise InOrder → ∀ n ∈ entry.2.filterMap finalizedIn,
      ∃ l1, entry.1 = .processFinalizedL1Block l1 ∧
        Finalizes (since derivedIn before) (since finalizedIn before) l1 n

theorem split_concat {α : Type} {xs before after : List α} {x y : α}
    (h : xs ++ [x] = before ++ y :: after) :
    (before = xs ∧ y = x) ∨ ∃ after', xs = before ++ y :: after' := by
  rcases List.eq_nil_or_concat after with rfl | ⟨after', z, rfl⟩
  · obtain ⟨rfl, hx⟩ := List.append_inj' h rfl
    cases hx
    exact .inl ⟨rfl, rfl⟩
  · rw [List.concat_eq_append, ← List.cons_append, ← List.append_assoc] at h
    exact .inr ⟨after', (List.append_inj' h rfl).1⟩

/-- A request whose number is new is about the L1 block that was finalized. -/
theorem effect_requests {before after : L2Finalizer} {ended : Bool}
    (h : Effect request before ended after sent) {n : U64} (hn : n ∈ sent.filterMap finalizedIn) :
    ∃ l1, request = .processFinalizedL1Block l1 ∧ before.tryFinalizeNext l1 = (some n, after) := by
  cases h with
  | clears h => cases hn
  | keeps h => cases hn
  | asksReset h => cases hn
  | derives h a finalizer henqueue => cases hn
  | finalizes l1 h n' finalizer hfinalize =>
    cases List.mem_singleton.mp hn
    exact ⟨l1, h, hfinalize⟩
  | ends finalizer => cases hn

theorem effect_follows {before after : L2Finalizer} (h : Effect request before false after sent)
    {trace : List (DerivationActorRequest × List EngineProcessingRequest)}
    (hbefore : (since derivedIn trace).Pairwise InOrder →
      ∃ left, Follows (since derivedIn trace) (since finalizedIn trace) before left)
    (horder : (since derivedIn (trace ++ [(request, sent)])).Pairwise InOrder) :
    ∃ left, Follows (since derivedIn (trace ++ [(request, sent)]))
      (since finalizedIn (trace ++ [(request, sent)])) after left := by
  rw [since_concat] at horder
  rw [since_concat, since_concat]
  cases h with
  | clears h =>
    simp only [h, if_true]
    exact ⟨[], follows_reset⟩
  | keeps h =>
    simp only [h, Bool.false_eq_true, if_false, List.filterMap_nil, List.append_nil] at horder ⊢
    exact hbefore horder
  | asksReset h =>
    simp only [h, Bool.false_eq_true, if_false, List.filterMap_cons, derivedIn, finalizedIn,
      List.filterMap_nil, List.append_nil] at horder ⊢
    exact hbefore horder
  | derives h a finalizer henqueue =>
    simp only [h, Bool.false_eq_true, if_false, List.filterMap_cons, derivedIn, finalizedIn,
      List.filterMap_nil, List.append_nil] at horder ⊢
    obtain ⟨left, hleft⟩ := hbefore (List.pairwise_append.mp horder).1
    exact ⟨left ++ [a], hleft.derive henqueue horder⟩
  | finalizes l1 h n finalizer hfinalize =>
    subst h
    simp only [isReset, Bool.false_eq_true, if_false, List.filterMap_cons, derivedIn, finalizedIn,
      List.filterMap_nil, List.append_nil] at horder ⊢
    obtain ⟨left, hleft⟩ := hbefore horder
    exact ⟨_, (hleft.finalize hfinalize horder).2⟩

theorem Sound.serve (h : run.Sound) (job : DerivationJob) : (run.serve job).Sound := by
  cases hended : run.ended with
  | true =>
    have hsame : run.serve job = run := by simp [DerivationRun.serve, hended]
    rw [hsame]
    exact h
  | false =>
    obtain ⟨sent, htrace, heffect⟩ := serve_effect hended job
    constructor
    · intro hended' horder
      rw [hended'] at heffect
      rw [htrace] at horder ⊢
      exact effect_follows heffect (h.follows hended) horder
    · intro before entry after hsplit horder n hn
      rw [htrace] at hsplit
      rcases split_concat hsplit with ⟨rfl, rfl⟩ | ⟨after', hafter⟩
      · obtain ⟨l1, hrequest, hfinalize⟩ := effect_requests heffect hn
        obtain ⟨left, hleft⟩ := h.follows hended horder
        exact ⟨l1, hrequest, (hleft.finalize hfinalize horder).1⟩
      · exact h.requests before entry after' hafter horder n hn

theorem sound_serveAll (h : run.Sound) (jobs : List DerivationJob) : (run.serveAll jobs).Sound := by
  induction jobs generalizing run with
  | nil => exact h
  | cons job jobs ih => exact ih (h.serve job)

theorem sound_new : Sound .new :=
  ⟨fun _ _ => ⟨[], follows_reset⟩, fun before entry after h => by
    cases before <;> cases h⟩

/-- In a run of the actor, whenever the block numbers of the attributes derived since the last
reset have grown and their L1 blocks have not gone back, a request to finalize a block is for
the last one whose L1 data is finalized, and for a later one than all before. -/
theorem finalized_l2_follows_l1 (jobs : List DerivationJob)
    (before after : List (DerivationActorRequest × List EngineProcessingRequest))
    (entry : DerivationActorRequest × List EngineProcessingRequest)
    (htrace : (DerivationRun.new.serveAll jobs).trace = before ++ entry :: after)
    (horder : (since derivedIn before).Pairwise InOrder) (n : U64)
    (hn : .processFinalizedL2BlockNumber n ∈ entry.2) :
    ∃ l1, entry.1 = .processFinalizedL1Block l1 ∧
      Finalizes (since derivedIn before) (since finalizedIn before) l1 n :=
  (sound_serveAll sound_new jobs).requests before entry after htrace horder n
    (List.mem_filterMap.mpr ⟨_, hn, rfl⟩)

def plainL1 (number : ℕ) : BlockInfo :=
  ⟨BitVec.ofNat 256 number, BitVec.ofNat 64 number, BitVec.ofNat 256 (number - 1),
    BitVec.ofNat 64 number⟩

/-- Attributes for the block after a block, derived from an L1 block. -/
def derivedAttributes (parent l1 : ℕ) : AttributesWithParent :=
  { plainAttributes parent [] with derivedFrom := some (plainL1 l1) }

/-- A world in which the pipeline has these attributes and every request is taken. -/
def preparing (attributes : AttributesWithParent) (_ : ℕ) : (c : DerivationCall) → c.Answer
  | .step _ => .preparedAttributes
  | .origin => none
  | .next => some attributes
  | .signal _ => .ok ()
  | .safeHeadReset _ => true
  | .safeHeadUpdated _ _ => true
  | .request _ => .ok ()

def preparedJob (request : DerivationActorRequest) (parent l1 : ℕ) : DerivationJob :=
  ⟨request, 1, preparing (derivedAttributes parent l1)⟩

/-- Two blocks are derived, each when the one before it is safe. -/
def twoBlocks : List DerivationJob :=
  [preparedJob (.processEngineSyncCompletion (plainRef 8)) 8 5,
    preparedJob (.processEngineSafeHeadUpdate (plainRef 9)) 9 6,
    preparedJob (.processFinalizedL1Block (plainL1 5)) 10 6]

theorem finalized_l2_follows_l1_two :
    ∃ l1, DerivationActorRequest.processFinalizedL1Block (plainL1 5) = .processFinalizedL1Block l1 ∧
      Finalizes [derivedAttributes 8 5, derivedAttributes 9 6] [] l1 9 :=
  finalized_l2_follows_l1 twoBlocks
    [(.processEngineSyncCompletion (plainRef 8),
        [.processSafeL2Signal (.attributes (derivedAttributes 8 5))]),
      (.processEngineSafeHeadUpdate (plainRef 9),
        [.processSafeL2Signal (.attributes (derivedAttributes 9 6))])] []
    (.processFinalizedL1Block (plainL1 5), [.processFinalizedL2BlockNumber 9]) (by decide +kernel)
    (by
      refine List.pairwise_pair.mpr ⟨fun x y hx hy => ?_, by decide +kernel⟩
      cases hx
      cases hy
      decide +kernel) 9 (by decide)

/-- Attributes that the engine has refused stay in the finalizer: the channel was flushed and
the same block was derived again from a later L1 block, but it is requested to be finalized
when the earlier one is. -/
def derivedAgain : List DerivationJob :=
  [preparedJob (.processEngineSyncCompletion (plainRef 9)) 9 5,
    preparedJob (.processEngineSignal .flushChannel) 9 5,
    preparedJob (.processL1HeadUpdate (plainL1 6)) 9 6,
    preparedJob (.processFinalizedL1Block (plainL1 5)) 10 6]

theorem refused_block_is_finalized_early :
    (DerivationRun.new.serveAll derivedAgain).trace =
      (DerivationRun.new.serveAll (derivedAgain.take 3)).trace ++
        [(.processFinalizedL1Block (plainL1 5), [.processFinalizedL2BlockNumber 10])] ∧
    since derivedIn (DerivationRun.new.serveAll (derivedAgain.take 3)).trace =
      [derivedAttributes 9 5, derivedAttributes 9 6] ∧
    (derivedAttributes 9 6).blockNumber = 10 ∧ l1Number (derivedAttributes 9 6) = some 6 := by
  decide +kernel

end DerivationRun
end SciChain.Node
