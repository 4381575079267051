import SciChain.Challenger.Driver

namespace SciChain.Challenger
open Library

variable {s s' s'' : DriverState} {game : Address} {c : CandidateGame}

namespace DriverState

@[simp] theorem pending_set (s : DriverState) (game g : Address) (p : Option PendingProof) :
    (s.set game p).pending g = if g = game then p else s.pending g := by
  have hrest : (s.proofs.filter fun e => e.1 ≠ game).lookup g =
      if g = game then none else s.proofs.lookup g := by
    rw [lookup_filter (· ≠ game)]
    by_cases hg : g = game <;> simp [hg]
  cases p with
  | none => exact hrest
  | some p =>
    refine (lookup_cons_eq g game p (s.proofs.filter fun e => e.1 ≠ game)).trans ?_
    rw [hrest]
    by_cases hg : g = game <;> simp [hg, pending]

@[simp] theorem pending_record (s : DriverState) (a : Action) (g : Address) :
    (s.record a).pending g = s.pending g := rfl

@[simp] theorem log_record (s : DriverState) (a : Action) : (s.record a).log = a :: s.log := rfl

theorem mem_addresses_iff : game ∈ s.addresses ↔ (s.pending game).isSome := by
  rw [← not_iff_not, Option.not_isSome_iff_eq_none]
  exact lookup_eq_none_iff_not_mem.symm

end DriverState

/-- Calls are only added to the log. -/
def Extends (s s' : DriverState) : Prop := ∃ new, s'.log = new ++ s.log

namespace Extends

theorem refl (s : DriverState) : Extends s s := ⟨[], rfl⟩

theorem trans (h : Extends s s') (h' : Extends s' s'') : Extends s s'' := by
  obtain ⟨new, hnew⟩ := h
  obtain ⟨new', hnew'⟩ := h'
  exact ⟨new' ++ new, by rw [hnew', hnew, List.append_assoc]⟩

theorem record (h : Extends s s') (a : Action) : Extends s (s'.record a) :=
  h.imp' (fun new => a :: new) fun _ hnew => by rw [DriverState.log_record, hnew, List.cons_append]

theorem set (h : Extends s s') (game : Address) (p : Option PendingProof) :
    Extends s (s'.set game p) := h

end Extends

/-- What the driver does for one game: calls are added to the log, and of the
entries only that of the game may change. -/
structure Works (game : Address) (s s' : DriverState) : Prop where
  log : Extends s s'
  others : ∀ other, other ≠ game → s'.pending other = s.pending other

namespace Works

theorem refl (game : Address) (s : DriverState) : Works game s s := ⟨.refl s, fun _ _ => rfl⟩

section

variable (h : Works game s s')
include h

theorem record (a : Action) : Works game s (s'.record a) := ⟨h.log.record a, h.others⟩

theorem set (p : Option PendingProof) : Works game s (s'.set game p) :=
  ⟨h.log, fun other hne => by rw [DriverState.pending_set, if_neg hne, h.others other hne]⟩

theorem reprove (env : Env) (p : PendingProof) (request : ProveBlockRequest) :
    Works game s (reprove env game p request s') := by
  unfold Challenger.reprove
  split
  · exact (h.record _).set _
  · exact (h.record _).set _

theorem handleProofRetry (env : Env) (p : PendingProof) :
    Works game s (handleProofRetry env game p s') := by
  unfold Challenger.handleProofRetry
  split
  · exact h.set _
  · split
    · exact h.reprove ..
    · exact h.set _
    · exact h.reprove ..

theorem submitDispute (env : Env) (p : PendingProof) (proof : Bytes) :
    Works game s (submitDispute env game p proof s') := by
  unfold Challenger.submitDispute
  split
  · exact (h.record _).set _
  · split
    · exact ((h.record _).set _).handleProofRetry ..
    · exact h.record _

theorem poll (cfg : DriverConfig) (env : Env) (p : PendingProof) :
    Works game s (poll cfg env game p s').2 := by
  unfold Challenger.poll
  split
  · exact h
  · exact h
  · split
    · exact h.set _
    · split
      · exact h
      · exact (h.record _).set _
      · exact h.set _
      · exact h.set _
      · exact h
      · exact h
      · exact h

theorem pollOrSubmit (cfg : DriverConfig) (env : Env) :
    Works game s (pollOrSubmit cfg env game s') := by
  unfold Challenger.pollOrSubmit
  split
  · exact h
  · rename_i p _
    have hpoll := h.poll cfg env p
    split
    · rename_i heq
      rw [heq] at hpoll
      exact hpoll
    · rename_i heq
      rw [heq] at hpoll
      split
      · split
        · exact (hpoll.record _).set _
        · split
          · exact hpoll.submitDispute ..
          · exact hpoll.handleProofRetry ..
          · exact hpoll
      · exact hpoll

end

section

variable (h : Works c.factory.proxy s s')
include h

theorem initiateZkProof (cfg : DriverConfig) (env : Env) (idx : Nat) (root : B256)
    (intent : DisputeIntent) :
    Works c.factory.proxy s (initiateZkProof cfg env c idx root intent s') := by
  unfold Challenger.initiateZkProof
  split
  · exact h
  · dsimp only
    split
    · exact h.record _
    · exact (h.record _).set _

theorem processInvalidProposal (cfg : DriverConfig) (env : Env) (intent : DisputeIntent)
    (tryTeeFirst : Bool) :
    Works c.factory.proxy s (processInvalidProposal cfg env c intent tryTeeFirst s') := by
  unfold Challenger.processInvalidProposal
  split
  · exact h
  · split
    · exact h
    · split
      · exact h
      · unfold initiateProof
        split
        · split
          · exact h.initiateZkProof ..
          · exact (h.record _).initiateZkProof ..
          · exact ((h.record _).set _).pollOrSubmit ..
        · exact h.initiateZkProof ..

theorem processCandidate (cfg : DriverConfig) (env : Env) :
    Works c.factory.proxy s (processCandidate cfg env c s') := by
  unfold Challenger.processCandidate
  split
  · exact h
  · split
    · exact h.processInvalidProposal ..
    · unfold processFraudulentZkChallenge
      split
      · split
        · exact h
        · split
          · exact h.record _
          · exact h.initiateZkProof ..
      · exact h
    · exact h.processInvalidProposal ..
    · exact h.processInvalidProposal ..

end

end Works

/-- Work on other games, one after the other, leaves the entry of this one alone. -/
theorem foldl_works {α : Type} {gameOf : α → Address} {work : DriverState → α → DriverState}
    (hwork : ∀ s x, Works (gameOf x) s (work s x)) {xs : List α} (h : ∀ x ∈ xs, gameOf x ≠ game)
    (s : DriverState) :
    (xs.foldl work s).pending game = s.pending game ∧ Extends s (xs.foldl work s) := by
  induction xs generalizing s with
  | nil => exact ⟨rfl, .refl s⟩
  | cons x xs ih =>
    obtain ⟨hpending, hext⟩ := ih (fun x' hx' => h x' (List.mem_cons_of_mem _ hx')) (work s x)
    have hx := hwork s x
    exact ⟨hpending.trans (hx.others game (h x List.mem_cons_self).symm), hx.log.trans hext⟩

/-- A call of this kind was made in between. -/
def Logged (kind : Action → Prop) (s s' : DriverState) : Prop :=
  ∃ new, s'.log = new ++ s.log ∧ ∃ a ∈ new, kind a

namespace Logged

variable {kind : Action → Prop} {a : Action}

theorem of_extends (ha : kind a) (h : Extends (s.record a) s') : Logged kind s s' := by
  obtain ⟨new, hnew⟩ := h
  refine ⟨new ++ [a], ?_, a, by simp, ha⟩
  rw [hnew, DriverState.log_record, List.append_assoc]
  rfl

theorem after (h : Logged kind s' s'') (hext : Extends s s') : Logged kind s s'' := by
  obtain ⟨new, hnew, a, ha, hkind⟩ := h
  obtain ⟨old, hold⟩ := hext
  exact ⟨new ++ old, by rw [hnew, hold, List.append_assoc], a, List.mem_append_left _ ha, hkind⟩

theorem before (h : Logged kind s s') (hext : Extends s' s'') : Logged kind s s'' := by
  obtain ⟨new, hnew, a, ha, hkind⟩ := h
  obtain ⟨more, hmore⟩ := hext
  exact ⟨more ++ new, by rw [hmore, hnew, List.append_assoc], a, List.mem_append_right _ ha, hkind⟩

end Logged

end SciChain.Challenger
