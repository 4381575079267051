import SciChain.Proofs.Disputes

namespace SciChain.Challenger
open Library Extends

variable {cfg : DriverConfig} {env : Env} {s s' : DriverState} {game : Address}
  {p : PendingProof} {c : CandidateGame}

section Progress

variable {canonical : Nat → B256} {f : Facts}

/-- A call that ends the driver's work on the game for now: a dispute goes out,
or the chain shows that none is needed. -/
def Action.Concludes (game : Address) : Action → Prop
  | .submit g _ _ _ _ _ => g = game
  | .settled g => g = game
  | .legitimate g => g = game
  | _ => False

def Concluded (s s' : DriverState) (game : Address) : Prop :=
  Logged (Action.Concludes game) s s'

/-- Answers about a game in which no call fails: the chain is read, a proof job
is taken, a dispute goes through. -/
structure Env.Calm (env : Env) : Prop where
  status : env.status.isSome
  teeProver : env.teeProver.isSome
  zkProver : env.zkProver.isSome
  proveBlock : ∀ request, (env.proveBlock request).isSome
  submitted : env.submitted = true

/-- The entry waits for the prover. -/
def Waits (s : DriverState) (game : Address) : Prop :=
  ∃ p session startedAt, s.pending game = some p ∧ p.phase = .awaitingProof session startedAt

section

variable (hcalm : env.Calm) (hentry : s.pending game = some p)
include hcalm hentry

/-- A calm poll of an entry that is not waiting for the prover any more. -/
theorem pollOrSubmit_update (hpoll : poll cfg env game p s = (some update, s'))
    (hq : s'.pending game = some q) :
    Extends s' (pollOrSubmit cfg env game s) ∧
      (Concluded s' (pollOrSubmit cfg env game s) game ∨
        update = .needsRetry ∧ pollOrSubmit cfg env game s = handleProofRetry env game q s') := by
  obtain ⟨status, hstatus⟩ := Option.isSome_iff_exists.mp hcalm.status
  obtain ⟨tee, htee⟩ := Option.isSome_iff_exists.mp hcalm.teeProver
  obtain ⟨zk, hzk⟩ := Option.isSome_iff_exists.mp hcalm.zkProver
  simp only [pollOrSubmit, hentry, hpoll, hstatus, htee, hzk, hq]
  split
  · exact ⟨((refl s').record _).set _ _,
      Or.inl (Logged.of_extends (a := .settled game) rfl ((Extends.refl _).set _ _))⟩
  · cases update with
    | ready proof =>
      refine ⟨((Works.refl game s').submitDispute ..).log, Or.inl ?_⟩
      simp only [submitDispute, hcalm.submitted, if_true]
      exact Logged.of_extends (a := .submit ..) rfl ((Extends.refl _).set _ _)
    | needsRetry => exact ⟨((Works.refl game s').handleProofRetry ..).log, Or.inr ⟨rfl, rfl⟩⟩

theorem poll_ready (hphase : p.phase = .readyToSubmit proof) :
    Concluded s (pollOrSubmit cfg env game s) game := by
  have hpoll : poll cfg env game p s = (some (.ready proof), s) := by
    simp [poll, hphase]
  rcases (pollOrSubmit_update hcalm hentry hpoll hentry).2 with h | ⟨h, -⟩
  · exact h
  · cases h

theorem poll_succeeded (hphase : p.phase = .awaitingProof session startedAt)
    (htime : ¬cfg.maxProofDuration < env.now - startedAt)
    (hproof : env.getProof session = some (.succeeded, receipt)) :
    Concluded s (pollOrSubmit cfg env game s) game := by
  have hpoll : poll cfg env game p s = (some (.ready (proofTypeZk :: receipt)),
      (s.record (.zkReceipt game session receipt)).set game
        (some { p with phase := .readyToSubmit (proofTypeZk :: receipt) })) := by
    simp [poll, hphase, if_neg htime, hproof]
  rcases (pollOrSubmit_update hcalm hentry hpoll (by simp; rfl)).2 with h | ⟨h, -⟩
  · exact h.after (((refl s).record _).set _ _)
  · cases h

end

theorem poll_unfinished (hentry : s.pending game = some p)
    (hphase : p.phase = .awaitingProof session startedAt)
    (htime : ¬cfg.maxProofDuration < env.now - startedAt)
    (hproof : env.getProof session = some (status, receipt)) (hfailed : status ≠ .failed)
    (hknown : status ≠ .unspecified) (hunfinished : status ≠ .succeeded) :
    pollOrSubmit cfg env game s = s := by
  have hpoll : poll cfg env game p s = (none, s) := by
    simp only [poll, hphase, if_neg htime, hproof]
    cases status <;> simp_all
  simp [pollOrSubmit, hentry, hpoll]

theorem waits_reprove (hcalm : env.Calm) (p : PendingProof) (request : ProveBlockRequest)
    (s : DriverState) : Waits (reprove env game p request s) game := by
  obtain ⟨session, hsession⟩ := Option.isSome_iff_exists.mp (hcalm.proveBlock request)
  simp only [reprove, hsession]
  exact ⟨_, session, env.now, by simp; rfl, rfl⟩

/-- A failed proof is asked for again, or its entry is dropped. -/
theorem poll_needsRetry (cfg : DriverConfig) (hcalm : env.Calm) (hentry : s.pending game = some p)
    (hphase : p.phase = .needsRetry) :
    Concluded s (pollOrSubmit cfg env game s) game ∨
      (pollOrSubmit cfg env game s).pending game = none ∨
      Waits (pollOrSubmit cfg env game s) game := by
  have hpoll : poll cfg env game p s = (some .needsRetry, s) := by
    simp [poll, hphase]
  rcases (pollOrSubmit_update hcalm hentry hpoll hentry).2 with h | ⟨-, h⟩
  · exact Or.inl h
  · right
    rw [h]
    unfold handleProofRetry
    split
    · exact Or.inl (by simp)
    · split
      · exact Or.inr (waits_reprove hcalm _ _ _)
      · exact Or.inl (by simp)
      · exact Or.inr (waits_reprove hcalm _ _ _)

theorem waits_initiateZkProof (hcalm : env.Calm) (hc : c.Of f) (hwf : f.WellFormed)
    (hidx : idx < f.roots.length) (root : B256) (intent : DisputeIntent) (s : DriverState) :
    Waits (initiateZkProof cfg env c idx root intent s) c.factory.proxy := by
  obtain ⟨request, hrequest⟩ := buildZkRequest_isSome hc hwf hidx cfg
  obtain ⟨session, hsession⟩ := Option.isSome_iff_exists.mp (hcalm.proveBlock request)
  simp only [initiateZkProof, hrequest, hsession]
  exact ⟨_, session, env.now, by simp; rfl, rfl⟩

/-- An invalid game without an entry gets one that waits, unless the driver is
done with it in the same call. -/
theorem process_progress (cfg : DriverConfig) (hcalm : env.Calm) (hc : c.Of f)
    (hhonest : env.Honest canonical f)
    (hwf : f.WellFormed) (hanswers : env.Answers f)
    (hchallenged : ∀ k, c.category = .fraudulentZkChallenge k → k < f.roots.length)
    (hwrong : ∃ i, f.WrongAt canonical i) (hnone : s.pending c.factory.proxy = none) :
    Concluded s (processCandidate cfg env c s) c.factory.proxy ∨
      Waits (processCandidate cfg env c s) c.factory.proxy := by
  have hproposal : ∀ intent tryTeeFirst,
      Concluded s (processInvalidProposal cfg env c intent tryTeeFirst s) c.factory.proxy ∨
        Waits (processInvalidProposal cfg env c intent tryTeeFirst s) c.factory.proxy := by
    intro intent tryTeeFirst
    obtain ⟨result, hresult⟩ := validateGame_isSome hc hhonest hwf hanswers
    obtain ⟨-, hcase⟩ := validateGame_ok hhonest hc hresult
    rcases hcase with ⟨-, hnone⟩ | ⟨idx, hinvalid, hidx, htarget⟩
    · obtain ⟨i, hi⟩ := hwrong
      exact absurd hi (hnone i)
    · simp only [processInvalidProposal, hresult, hinvalid, Bool.false_eq_true, if_false, hidx]
      unfold initiateProof
      split
      · split
        · exact Or.inr (waits_initiateZkProof hcalm hc hwf htarget.2.1 _ _ _)
        · exact Or.inr (waits_initiateZkProof hcalm hc hwf htarget.2.1 _ _ _)
        · rename_i request proof _
          refine Or.inl (Logged.after (poll_ready (p := .readyTee proof idx result.expectedRoot
              (buildZkRequest cfg c idx) ((buildZkRequest cfg c idx).map fun _ => intent))
            hcalm ?_ rfl)
            (((refl s).record (.teeProof c.factory.proxy request (some proof))).set _ _))
          simp
      · exact Or.inr (waits_initiateZkProof hcalm hc hwf htarget.2.1 _ _ _)
  unfold processCandidate
  rw [if_neg (by rw [hnone]; exact Bool.false_ne_true)]
  cases hcat : c.category with
  | fraudulentZkChallenge k =>
    have hk := hchallenged k hcat
    obtain ⟨onChain, honChain⟩ := Option.isSome_iff_exists.mp (hanswers.root k hk)
    obtain ⟨r, hr⟩ := hanswers.l2 (f.block k) (Nat.le_add_right _ _) (hwf.block_le hk).2
    simp only [processFraudulentZkChallenge, honChain, checkpointStartBlock_eq hc hwf hk,
      computeOutputRoot_of hr]
    split
    · exact Or.inl (Logged.of_extends (a := .legitimate _) rfl (refl _))
    · exact Or.inr (waits_initiateZkProof hcalm hc hwf hk _ _ _)
  | invalidTeeProposal => exact hproposal _ _
  | invalidZkProposal => exact hproposal _ _
  | invalidDualProposal => exact hproposal _ _

/-- The state at the start of each cycle. -/
def runFrom (cfg : DriverConfig) (cycles : Nat → Cycle) : Nat → DriverState
  | 0 => .empty
  | n + 1 => step cfg (cycles n) (runFrom cfg cycles n)

/-- What concerns one game in a run. -/
structure Watch where
  game : Address
  cycles : Nat → Cycle
  candidate : Nat → CandidateGame
  processEnv : Nat → Env

namespace Watch

variable {w : Watch}

/-- What is answered about the game if it is polled. -/
def pollEnv (w : Watch) (n : Nat) : Env := (w.cycles n).polls w.game

/-- A cycle in which the scan returns the game and nothing about it fails. -/
structure Quiet (canonical : Nat → B256) (f : Facts) (cfg : DriverConfig) (w : Watch) (n : Nat) :
    Prop where
  proxy : (w.candidate n).factory.proxy = w.game
  returned : ∃ before after,
    (w.cycles n).candidates = before ++ (w.candidate n, w.processEnv n) :: after ∧
      (∀ e ∈ before, e.1.factory.proxy ≠ w.game) ∧ ∀ e ∈ after, e.1.factory.proxy ≠ w.game
  of : (w.candidate n).Of f
  honest : (w.processEnv n).Honest canonical f
  answers : (w.processEnv n).Answers f
  challenged : ∀ k, (w.candidate n).category = .fraudulentZkChallenge k → k < f.roots.length
  process : (w.processEnv n).Calm
  poll : (w.pollEnv n).Calm
  session : ∀ p session startedAt, (runFrom cfg w.cycles n).pending w.game = some p →
    p.phase = .awaitingProof session startedAt →
    ¬cfg.maxProofDuration < (w.pollEnv n).now - startedAt ∧ ∃ status receipt,
      (w.pollEnv n).getProof session = some (status, receipt) ∧ status ≠ .failed ∧
        status ≠ .unspecified

theorem pollOrSubmit_none (h : s.pending game = none) : pollOrSubmit cfg env game s = s := by
  simp [pollOrSubmit, h]

/-- The polls of a cycle are those of other games around the poll of the game, if
it has an entry. -/
theorem polls_around (cfg : DriverConfig) (cycle : Cycle) (s : DriverState) (game : Address) :
    ∃ s₁, (s₁.pending game = s.pending game ∧ Extends s s₁) ∧
      (pollPendingProofs cfg cycle s).pending game =
        (pollOrSubmit cfg (cycle.polls game) game s₁).pending game ∧
      Extends (pollOrSubmit cfg (cycle.polls game) game s₁) (pollPendingProofs cfg cycle s) := by
  have hothers {games : List Address} (h : game ∉ games) (s : DriverState) :=
    foldl_works (fun s other => (Works.refl other s).pollOrSubmit cfg (cycle.polls other))
      (fun other hother => ne_of_mem_of_not_mem hother h) s
  have hperm := cycle.perm s.addresses
  unfold pollPendingProofs
  by_cases hmem : game ∈ cycle.order s.addresses
  · obtain ⟨before, after, hsplit⟩ := List.append_of_mem hmem
    have hnodup := hperm.nodup_iff.mpr s.nodup
    rw [hsplit, List.nodup_middle, List.nodup_cons, List.mem_append, not_or] at hnodup
    rw [hsplit, List.foldl_append, List.foldl_cons]
    exact ⟨_, hothers hnodup.1.1 s, hothers hnodup.1.2 _⟩
  · have hsame := hothers hmem s
    have hnone : s.pending game = none := by
      rwa [hperm.mem_iff, DriverState.mem_addresses_iff, Option.not_isSome_iff_eq_none] at hmem
    refine ⟨_, hsame, ?_⟩
    rw [pollOrSubmit_none (hsame.1.trans hnone)]
    exact ⟨rfl, .refl _⟩

section

variable (h : w.Quiet canonical f cfg n)
include h

theorem Quiet.cycle :
    ∃ s₁ s₂, s₁.pending w.game = (runFrom cfg w.cycles n).pending w.game ∧
      Extends (runFrom cfg w.cycles n) s₁ ∧
      s₂.pending w.game = (pollOrSubmit cfg (w.pollEnv n) w.game s₁).pending w.game ∧
      Extends (pollOrSubmit cfg (w.pollEnv n) w.game s₁) s₂ ∧
      (runFrom cfg w.cycles (n + 1)).pending w.game =
        (processCandidate cfg (w.processEnv n) (w.candidate n) s₂).pending w.game ∧
      Extends (processCandidate cfg (w.processEnv n) (w.candidate n) s₂)
        (runFrom cfg w.cycles (n + 1)) := by
  obtain ⟨before, after, hcandidates, hbefore, hafter⟩ := h.returned
  obtain ⟨s₁, ⟨hs₁, hext₁⟩, hpolls, hextpolls⟩ :=
    polls_around cfg (w.cycles n) (runFrom cfg w.cycles n) w.game
  have hothers {candidates : List (CandidateGame × Env)}
      (h : ∀ e ∈ candidates, e.1.factory.proxy ≠ w.game) (s : DriverState) :=
    foldl_works (fun s e => (Works.refl e.1.factory.proxy s).processCandidate cfg e.2) h s
  obtain ⟨hsame, hext⟩ := hothers hbefore
    (pollPendingProofs cfg (w.cycles n) (runFrom cfg w.cycles n))
  rw [runFrom, step, hcandidates, List.foldl_append, List.foldl_cons]
  exact ⟨s₁, _, hs₁, hext₁, hsame.trans hpolls, hextpolls.trans hext, hothers hafter _⟩

/-- A cycle goes on with the candidate if its poll left the game without an entry. -/
theorem Quiet.processed (hwf : f.WellFormed) (hwrong : ∃ i, f.WrongAt canonical i)
    (hnone : s₂.pending w.game = none)
    (hs₃ : s₃.pending w.game =
      (processCandidate cfg (w.processEnv n) (w.candidate n) s₂).pending w.game)
    (hext : Extends (processCandidate cfg (w.processEnv n) (w.candidate n) s₂) s₃) :
    Concluded s₂ s₃ w.game ∨ Waits s₃ w.game := by
  have hprogress := process_progress (s := s₂) cfg h.process h.of h.honest hwf h.answers
    h.challenged hwrong (by rw [h.proxy]; exact hnone)
  rw [h.proxy] at hprogress
  rcases hprogress with hdone | ⟨p, session, startedAt, hp, hphase⟩
  · exact Or.inl (hdone.before hext)
  · exact Or.inr ⟨p, session, startedAt, hs₃.trans hp, hphase⟩

/-- An entry keeps the candidate from being looked at. -/
theorem Quiet.skipped (hentry : s₂.pending w.game = some p) :
    processCandidate cfg (w.processEnv n) (w.candidate n) s₂ = s₂ := by
  unfold processCandidate
  rw [if_pos (by rw [h.proxy, hentry]; rfl)]

/-- In a quiet cycle an entry that does not wait leads to one that does, if the
driver is not done with the game. -/
theorem Quiet.progress (hwf : f.WellFormed) (hwrong : ∃ i, f.WrongAt canonical i)
    (hwaits : ¬Waits (runFrom cfg w.cycles n) w.game) :
    Concluded (runFrom cfg w.cycles n) (runFrom cfg w.cycles (n + 1)) w.game ∨
      Waits (runFrom cfg w.cycles (n + 1)) w.game := by
  obtain ⟨s₁, s₂, hs₁, hext₁, hs₂, hext₂, hs₃, hext₃⟩ := h.cycle
  have hpoll : Extends (runFrom cfg w.cycles n) s₂ := 
    (hext₁.trans ((Works.refl w.game s₁).pollOrSubmit cfg _).log).trans hext₂
  have hprocess : Extends s₂ (runFrom cfg w.cycles (n + 1)) :=
    ((Works.refl _ s₂).processCandidate cfg _).log.trans hext₃
  have hempty : s₂.pending w.game = none →
      Concluded (runFrom cfg w.cycles n) (runFrom cfg w.cycles (n + 1)) w.game ∨
        Waits (runFrom cfg w.cycles (n + 1)) w.game := fun hnone =>
    (h.processed hwf hwrong hnone hs₃ hext₃).imp_left fun hdone => hdone.after hpoll
  have hdone : Concluded s₁ (pollOrSubmit cfg (w.pollEnv n) w.game s₁) w.game →
      Concluded (runFrom cfg w.cycles n) (runFrom cfg w.cycles (n + 1)) w.game := fun hdone =>
    ((hdone.before hext₂).before hprocess).after hext₁
  cases hentry : (runFrom cfg w.cycles n).pending w.game with
  | none =>
    have hnone : s₁.pending w.game = none := hs₁.trans hentry
    exact hempty (by rw [hs₂, pollOrSubmit_none hnone, hnone])
  | some p =>
    have hsome : s₁.pending w.game = some p := hs₁.trans hentry
    cases hphase : p.phase with
    | awaitingProof session startedAt => exact absurd ⟨p, session, startedAt, hentry, hphase⟩ hwaits
    | readyToSubmit proof => exact Or.inl (hdone (poll_ready h.poll hsome hphase))
    | needsRetry =>
      rcases poll_needsRetry cfg h.poll hsome hphase with hnow | hnone | hwait
      · exact Or.inl (hdone hnow)
      · exact hempty (hs₂.trans hnone)
      · obtain ⟨q, session, startedAt, hq, hawaiting⟩ := hwait
        have hq₂ : s₂.pending w.game = some q := hs₂.trans hq
        rw [h.skipped hq₂] at hs₃
        exact Or.inr ⟨q, session, startedAt, hs₃.trans hq₂, hawaiting⟩

/-- A quiet cycle ends the wait if the prover has the proof, and leaves the entry
as it is otherwise. -/
theorem Quiet.wait {session : SessionId} (hentry : (runFrom cfg w.cycles n).pending w.game = some p)
    (hphase : p.phase = .awaitingProof session startedAt) :
    Concluded (runFrom cfg w.cycles n) (runFrom cfg w.cycles (n + 1)) w.game ∨
      (∀ receipt, (w.pollEnv n).getProof session ≠ some (.succeeded, receipt)) ∧
        (runFrom cfg w.cycles (n + 1)).pending w.game = some p := by
  obtain ⟨s₁, s₂, hs₁, hext₁, hs₂, hext₂, hs₃, hext₃⟩ := h.cycle
  have hsome : s₁.pending w.game = some p := hs₁.trans hentry
  have hprocess : Extends s₂ (runFrom cfg w.cycles (n + 1)) :=
    ((Works.refl _ s₂).processCandidate cfg _).log.trans hext₃
  obtain ⟨htime, status, receipt, hproof, hfailed, hknown⟩ := h.session p session startedAt hentry
    hphase
  by_cases hstatus : status = .succeeded
  · rw [hstatus] at hproof
    have hdone := poll_succeeded h.poll hsome hphase htime hproof
    exact Or.inl (((hdone.before hext₂).before hprocess).after hext₁)
  · rw [poll_unfinished hsome hphase htime hproof hfailed hknown hstatus] at hs₂
    have hq₂ : s₂.pending w.game = some p := hs₂.trans hsome
    rw [h.skipped hq₂] at hs₃
    refine Or.inr ⟨fun r hr => hstatus ?_, hs₃.trans hq₂⟩
    rw [hproof, Option.some.injEq, Prod.mk.injEq] at hr
    exact hr.1

end

theorem waits_end (hquiet : ∀ n, start ≤ n → w.Quiet canonical f cfg n)
    (hphase : p.phase = .awaitingProof session startedAt) (d : Nat) : ∀ n, start ≤ n →
      (runFrom cfg w.cycles n).pending w.game = some p →
      (w.pollEnv (n + d)).getProof session = some (.succeeded, receipt) →
      ∃ m, n ≤ m ∧ Concluded (runFrom cfg w.cycles m) (runFrom cfg w.cycles (m + 1)) w.game := by
  induction d with
  | zero =>
    intro n hn hentry hproof
    rcases (hquiet n hn).wait hentry hphase with hdone | ⟨hnot, -⟩
    · exact ⟨n, Nat.le_refl n, hdone⟩
    · exact absurd hproof (hnot receipt)
  | succ d ih =>
    intro n hn hentry hproof
    rcases (hquiet n hn).wait hentry hphase with hdone | ⟨-, hnext⟩
    · exact ⟨n, Nat.le_refl n, hdone⟩
    · obtain ⟨m, hm, hdone⟩ := ih (n + 1) (by omega) hnext
        (by rw [Nat.add_right_comm, Nat.add_assoc]; exact hproof)
      exact ⟨m, by omega, hdone⟩

end Watch

/-- Once nothing fails any more, an invalid game that every scan returns is
disputed or found settled, again and again, whatever happened before and
whatever happens to the other games. -/
theorem invalid_game_disputed (cfg : DriverConfig) (w : Watch) (hwf : f.WellFormed)
    (hwrong : ∃ i, f.WrongAt canonical i) (start : Nat)
    (hquiet : ∀ n, start ≤ n → w.Quiet canonical f cfg n)
    (hfinish : ∀ n p session startedAt, start ≤ n →
      (runFrom cfg w.cycles n).pending w.game = some p →
      p.phase = .awaitingProof session startedAt →
      ∃ d receipt, (w.pollEnv (n + d)).getProof session = some (.succeeded, receipt))
    (n : Nat) (hn : start ≤ n) :
    ∃ m, n ≤ m ∧ Concluded (runFrom cfg w.cycles m) (runFrom cfg w.cycles (m + 1)) w.game := by
  have hwaits : ∀ k, start ≤ k → Waits (runFrom cfg w.cycles k) w.game → ∃ m, k ≤ m ∧
      Concluded (runFrom cfg w.cycles m) (runFrom cfg w.cycles (m + 1)) w.game := by
    rintro k hk ⟨p, session, startedAt, hentry, hphase⟩
    obtain ⟨d, receipt, hproof⟩ := hfinish k p session startedAt hk hentry hphase
    exact Watch.waits_end hquiet hphase d k hk hentry hproof
  by_cases hwait : Waits (runFrom cfg w.cycles n) w.game
  · exact hwaits n hn hwait
  · rcases (hquiet n hn).progress hwf hwrong hwait with hdone | hnext
    · exact ⟨n, Nat.le_refl n, hdone⟩
    · obtain ⟨m, hm, hdone⟩ := hwaits (n + 1) (by omega) hnext
      exact ⟨m, by omega, hdone⟩

/-- The game with these claims, looked at in every cycle while everything is
answered. -/
def sampleWatch (f : Facts) : Watch where
  game := 7
  cycles _ := ⟨List.reverse, List.reverse_perm, fun _ => sampleEnv f 0,
    [(sampleCandidate f .invalidZkProposal, sampleEnv f 0)]⟩
  candidate _ := sampleCandidate f .invalidZkProposal
  processEnv _ := sampleEnv f 0

theorem sampleWatch_quiet (f : Facts) (n : Nat) :
    (sampleWatch f).Quiet sampleRoot f sampleConfig n where
  proxy := rfl
  returned := ⟨[], [], rfl, fun _ h => absurd h List.not_mem_nil,
    nofun⟩
  of := ⟨rfl, rfl, rfl, rfl⟩
  honest := sampleEnv_honest f 0
  answers := ⟨rfl, fun i hi => by simp [sampleWatch, sampleEnv, hi],
    fun n _ _ => ⟨_, sampleL2_root n⟩⟩
  challenged k h := by cases h
  process := ⟨rfl, rfl, rfl, fun _ => rfl, rfl⟩
  poll := ⟨rfl, rfl, rfl, fun _ => rfl, rfl⟩
  session _ _ _ _ _ := ⟨by simp [sampleWatch, Watch.pollEnv, sampleEnv], .succeeded, [1, 2], rfl,
    by decide, by decide⟩

theorem invalid_game_disputed_every_cycle :
    ∃ m, 5 ≤ m ∧ Concluded (runFrom sampleConfig (sampleWatch sampleFacts).cycles m)
      (runFrom sampleConfig (sampleWatch sampleFacts).cycles (m + 1)) 7 :=
  invalid_game_disputed sampleConfig (sampleWatch sampleFacts) ⟨by decide, by decide, rfl⟩
    ⟨1, 99, rfl, by decide⟩ 0 (fun n _ => sampleWatch_quiet sampleFacts n)
    (fun _ _ _ _ _ _ _ => ⟨0, [1, 2], rfl⟩) 5 (Nat.zero_le 5)

theorem shortWatch_idle (n : Nat) :
    runFrom sampleConfig (sampleWatch shortFacts).cycles n = .empty := by
  induction n with
  | zero => rfl
  | succ n ih =>
    rw [runFrom, ih]
    rfl

/-- A wrong claim behind the last checkpoint is never disputed, though every scan
returns the game and nothing fails. -/
theorem invalid_game_never_disputed :
    shortFacts.WellFormed ∧ shortFacts.Wrong sampleRoot ∧
      (∀ n, (sampleWatch shortFacts).Quiet sampleRoot shortFacts sampleConfig n) ∧
      ∀ n, runFrom sampleConfig (sampleWatch shortFacts).cycles n = .empty :=
  ⟨⟨by decide, by decide, rfl⟩, Or.inr (by decide), sampleWatch_quiet shortFacts,
    shortWatch_idle⟩

end Progress

end SciChain.Challenger
