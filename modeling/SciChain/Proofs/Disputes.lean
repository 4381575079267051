import SciChain.Proofs.DriverSteps

namespace SciChain.Challenger
open Library L2Provider

/-- What a game claims: its block range, its interval, and the roots at its
checkpoints and at its last block. None of it ever changes. -/
structure Facts where
  start : Nat
  l2Block : Nat
  interval : Nat
  rootClaim : B256
  roots : List B256
  l2Block_lt : l2Block < 2 ^ 64

namespace Facts

variable (canonical : Nat → B256) (f : Facts)

/-- The first block of the part that ends in a checkpoint. -/
def startOf (i : Nat) : Nat := f.start + f.interval * i

/-- The block of a checkpoint. -/
def block (i : Nat) : Nat := f.start + f.interval * (i + 1)

/-- A checkpoint whose root is not the canonical one. -/
def WrongAt (i : Nat) : Prop := ∃ root, f.roots[i]? = some root ∧ root ≠ canonical (f.block i)

def FirstWrong (i : Nat) : Prop := f.WrongAt canonical i ∧ ∀ j < i, ¬f.WrongAt canonical j

/-- Some root that the game claims is wrong. -/
def Wrong : Prop :=
  (∃ i, f.WrongAt canonical i) ∨ f.rootClaim ≠ canonical f.l2Block

/-- A non-empty range, with a root for each whole interval in it. -/
structure WellFormed : Prop where
  interval_pos : 0 < f.interval
  start_lt : f.start < f.l2Block
  count : f.roots.length = (f.l2Block - f.start) / f.interval

/-- What a dispute is to be about: the first wrong checkpoint while the game is
not challenged, then the challenged one if it is canonical. -/
def Target (counteredIndex idx : Nat) (root : B256) : Prop :=
  root = canonical (f.block idx) ∧ idx < f.roots.length ∧
    ((counteredIndex = 0 ∧ f.FirstWrong canonical idx) ∨
      (counteredIndex = idx + 1 ∧ ¬f.WrongAt canonical idx))

variable {f}

theorem WellFormed.block_le (h : f.WellFormed) (hi : i < f.roots.length) :
    f.startOf i + f.interval = f.block i ∧ f.block i ≤ f.l2Block := by
  have hmul : f.interval * (i + 1) ≤ f.l2Block - f.start := by
    rw [h.count] at hi
    calc f.interval * (i + 1) ≤ f.interval * ((f.l2Block - f.start) / f.interval) :=
          Nat.mul_le_mul_left _ hi
      _ ≤ f.l2Block - f.start := Nat.mul_div_le _ _
  have := h.start_lt
  refine ⟨?_, ?_⟩
  · rw [startOf, block, Nat.mul_succ, Nat.add_assoc]
  · rw [block]
    omega

end Facts

/-- A candidate that carries the facts of its game. -/
structure CandidateGame.Of (f : Facts) (c : CandidateGame) : Prop where
  start : c.startingBlockNumber = f.start
  l2Block : c.info.l2BlockNumber = f.l2Block
  interval : c.intermediateBlockInterval = f.interval
  rootClaim : c.info.rootClaim = f.rootClaim

/-- Answers about a game that are true, and canonical in its block range. -/
structure Env.Honest (canonical : Nat → B256) (f : Facts) (env : Env) : Prop where
  canonical : ∀ {n : Nat} {hash root : B256}, f.start ≤ n → n ≤ f.l2Block →
    env.l2.computeOutputRootWithHash n = .ok (hash, root) → root = canonical n
  roots : ∀ {roots : List B256}, env.intermediateOutputRoots = some roots → roots = f.roots
  root : ∀ {i : Nat} {root : B256}, env.intermediateOutputRoot i = some root →
    f.roots[i]? = some root

/-- The category is that of the challenge on chain. -/
def GameCategory.Fits (counteredIndex : Nat) : GameCategory → Prop
  | .fraudulentZkChallenge i => counteredIndex = i + 1
  | .invalidTeeProposal => counteredIndex = 0
  | .invalidZkProposal => counteredIndex = 0
  | .invalidDualProposal => counteredIndex = 0

section Validation

variable {canonical : Nat → B256} {f : Facts} {env : Env}

theorem computeOutputRoot_ok {l2 : L2Provider} (h : l2.computeOutputRoot n = .ok root) :
    ∃ hash, l2.computeOutputRootWithHash n = .ok (hash, root) := by
  obtain ⟨⟨hash, r⟩, hr, rfl⟩ := (map_eq_ok ..).mp h
  exact ⟨hash, hr⟩

theorem checkpointBlock_some (h : checkpointBlock start interval m = some n) :
    n = start + interval * m := by
  unfold checkpointBlock at h
  split at h
  · exact (Option.some.inj h).symm
  · cases h

theorem checkpoints_ok (h : checkpoints start interval i roots = .ok blocks) :
    blocks.length = roots.length ∧ ∀ (k : Nat) (root : B256), roots[k]? = some root →
      blocks[k]? = some (start + interval * (i + k + 1), root) := by
  induction roots generalizing i blocks with
  | nil =>
    cases h
    exact ⟨rfl, fun k root hk => by simp at hk⟩
  | cons r roots ih =>
    unfold checkpoints at h
    cases hc : checkpointBlock start interval (i + 1) with
    | none =>
      rw [hc] at h
      cases h
    | some block =>
      simp only [hc, bind_ok, pure_eq, Except.ok.injEq] at h
      obtain ⟨tail, htail, rfl⟩ := h
      obtain ⟨hlen, hat⟩ := ih htail
      refine ⟨by simp [hlen], fun k root hk => ?_⟩
      cases k with
      | zero =>
        cases hk
        rw [checkpointBlock_some hc]
        rfl
      | succ k =>
        have := hat k root hk
        rw [List.getElem?_cons_succ, this, show i + 1 + k + 1 = i + (k + 1) + 1 by omega]

/-- All roots up to a place are those that the node computes; the place is the end, or that
of the mismatch that is reported. -/
theorem validateOutputRoots_ok {l2 : L2Provider}
    (h : l2.validateOutputRoots start blocks = .ok found) :
    ∃ k, (∀ j < k, ∀ block claimed, blocks[j]? = some (block, claimed) →
        l2.computeOutputRoot block = .ok claimed) ∧
      ((found = none ∧ k = blocks.length) ∨
        ∃ block claimed expected, found = some (start + k, expected) ∧
          blocks[k]? = some (block, claimed) ∧ l2.computeOutputRoot block = .ok expected ∧
          expected ≠ claimed) := by
  induction blocks generalizing start with
  | nil =>
    cases h
    exact ⟨0, fun _ hj => absurd hj (Nat.not_lt_zero _), .inl ⟨rfl, rfl⟩⟩
  | cons head rest ih =>
    obtain ⟨block, claimed⟩ := head
    simp only [validateOutputRoots, bind_ok] at h
    obtain ⟨root, hroot, h⟩ := h
    split at h
    · rename_i hne
      cases h
      exact ⟨0, fun _ hj => absurd hj (Nat.not_lt_zero _),
        .inr ⟨block, claimed, root, rfl, rfl, hroot, hne⟩⟩
    · rename_i heq
      obtain rfl := not_not.mp heq
      obtain ⟨k, hbefore, hend⟩ := ih h
      refine ⟨k + 1, fun j hj block' claimed' hat => ?_, ?_⟩
      · cases j with
        | zero =>
          cases hat
          exact hroot
        | succ j => exact hbefore j (Nat.lt_of_succ_lt_succ hj) block' claimed' hat
      · rwa [List.length_cons, Nat.add_right_cancel_iff, Nat.add_comm k 1, ← Nat.add_assoc,
          Nat.add_comm 1 k]

/-- A finished validation of a game: it names the first wrong checkpoint with
its canonical root, or all of them are canonical. -/
theorem validateGame_ok (hhonest : env.Honest canonical f) {c : CandidateGame} (hc : c.Of f)
    {result : ValidationResult} (h : validateGame env c = some result) :
    f.WellFormed ∧
    ((result.isValid = true ∧ ∀ i, ¬f.WrongAt canonical i) ∨
      ∃ idx, result.isValid = false ∧ result.invalidIntermediateIndex = some idx ∧
        f.Target canonical 0 idx result.expectedRoot) := by
  unfold validateGame at h
  simp only [Option.bind_eq_bind, Option.bind_eq_some_iff] at h
  obtain ⟨roots, hroots, h⟩ := h
  obtain rfl := hhonest.roots hroots
  split at h
  · rename_i r hr
    cases h
    rw [hc.start, hc.l2Block, hc.interval] at hr
    simp only [validateIntermediateRoots, bind_ok, reject_ok, pure_eq,
      Except.ok.injEq, Nat.not_le, ne_eq, not_not] at hr
    obtain ⟨_, hpos, _, hlt, _, hcount, blocks, hblocks, found, hfound, rfl⟩ := hr
    have hwf : f.WellFormed := ⟨Nat.pos_of_ne_zero hpos, hlt, hcount⟩
    refine ⟨hwf, ?_⟩
    obtain ⟨hlen, hat⟩ := checkpoints_ok hblocks
    -- The computed root of a checkpoint is canonical.
    have hcomp : ∀ {k : Nat} {root : B256}, k < f.roots.length →
        env.l2.computeOutputRoot (f.block k) = .ok root → root = canonical (f.block k) := by
      intro k root hk hroot
      obtain ⟨hash, hok⟩ := computeOutputRoot_ok hroot
      exact hhonest.canonical (Nat.le_add_right _ _) (hwf.block_le hk).2 hok
    have hplace : ∀ {k : Nat} {root : B256}, f.roots[k]? = some root →
        blocks[k]? = some (f.block k, root) := by
      intro k root hk
      rw [hat k root hk, Facts.block, Nat.zero_add]
    obtain ⟨k, hbefore, hend⟩ := validateOutputRoots_ok hfound
    -- Up to the place where the validation ends nothing is wrong.
    have hright : ∀ i < k, ¬f.WrongAt canonical i := by
      rintro i hi ⟨root, hroot, hne⟩
      exact hne (hcomp (List.getElem?_eq_some_iff.mp hroot).1
        (hbefore i hi _ _ (hplace hroot)))
    rcases hend with ⟨rfl, rfl⟩ | ⟨block, claimed, expected, rfl, hk, hroot, hne⟩
    · refine Or.inl ⟨rfl, fun i hwrong => hright i ?_ hwrong⟩
      obtain ⟨root, hroot, _⟩ := hwrong
      exact hlen ▸ (List.getElem?_eq_some_iff.mp hroot).1
    · have hlt : k < f.roots.length := hlen ▸ (List.getElem?_eq_some_iff.mp hk).1
      have hclaimed := List.getElem?_eq_getElem hlt
      cases hk.symm.trans (hplace hclaimed)
      have hexpected := hcomp hlt hroot
      refine Or.inr ⟨k, rfl, congrArg some (Nat.zero_add k), hexpected, hlt,
        Or.inl ⟨rfl, ⟨_, hclaimed, ?_⟩, hright⟩⟩
      rw [← hexpected]
      exact hne.symm
  · cases h

end Validation

section Invariant

variable {canonical : Nat → B256} {facts : Address → Facts} {cfg : DriverConfig} {env : Env}
  {s : DriverState} {game : Address} {p : PendingProof}

/-- A ZK request over exactly the part that ends in a checkpoint. -/
def ProveBlockRequest.Covers (f : Facts) (idx : Nat) (request : ProveBlockRequest) : Prop :=
  request.startBlockNumber = f.startOf idx ∧ request.numberOfBlocksToProve = f.interval

/-- A TEE request over exactly that part, from the canonical root before it to
the given one. -/
def TeeProofRequest.Covers (canonical : Nat → B256) (f : Facts) (idx : Nat) (root : B256)
    (request : TeeProofRequest) : Prop :=
  request.agreedL2OutputRoot = canonical (f.startOf idx) ∧
    request.claimedL2BlockNumber = f.block idx ∧ request.claimedL2OutputRoot = root

/-- A prover returned these bytes for a request over the part of the checkpoint. -/
def Proved (canonical : Nat → B256) (f : Facts) (log : List Action) (game : Address) (idx : Nat)
    (root : B256) (proof : Bytes) : Prop :=
  (∃ request session receipt, .zkRequest game request (some session) ∈ log ∧
    .zkReceipt game session receipt ∈ log ∧ proof = proofTypeZk :: receipt ∧
    request.Covers f idx) ∨
  ∃ request, .teeProof game request (some proof) ∈ log ∧ request.Covers canonical f idx root

theorem Proved.mono (h : Proved canonical f log game idx root proof) (hlog : ∀ a ∈ log, a ∈ log') :
    Proved canonical f log' game idx root proof := by
  rcases h with ⟨request, session, receipt, h1, h2, h3⟩ | ⟨request, h1, h2⟩
  · exact Or.inl ⟨request, session, receipt, hlog _ h1, hlog _ h2, h3⟩
  · exact Or.inr ⟨request, hlog _ h1, h2⟩

/-- What each phase of an entry rests on. -/
def PhaseOk (canonical : Nat → B256) (f : Facts) (log : List Action) (game : Address)
    (p : PendingProof) : ProofPhase → Prop
  | .awaitingProof session _ =>
    ∃ request, p.kind = .zk request ∧ .zkRequest game request (some session) ∈ log
  | .readyToSubmit proof => Proved canonical f log game p.invalidIndex p.expectedRoot proof
  | .needsRetry => True

def KindOk (f : Facts) (idx : Nat) : ProofKind → Prop
  | .zk request => request.Covers f idx
  | .tee fallback _ => ∀ request, fallback = some request → request.Covers f idx

/-- A pending entry aims at the right checkpoint with the right requests. -/
structure EntryOk (canonical : Nat → B256) (f : Facts) (counteredIndex : Nat)
    (log : List Action) (game : Address) (p : PendingProof) : Prop where
  target : f.Target canonical counteredIndex p.invalidIndex p.expectedRoot
  kind : KindOk f p.invalidIndex p.kind
  phase : PhaseOk canonical f log game p p.phase

theorem EntryOk.mono (h : EntryOk canonical f ci log game p) (hlog : ∀ a ∈ log, a ∈ log') :
    EntryOk canonical f ci log' game p := by
  refine ⟨h.target, h.kind, ?_⟩
  have hphase := h.phase
  cases hp : p.phase with
  | awaitingProof session startedAt =>
    rw [hp] at hphase
    exact hphase.imp fun request hr => ⟨hr.1, hlog _ hr.2⟩
  | readyToSubmit proof =>
    rw [hp] at hphase
    exact Proved.mono hphase hlog
  | needsRetry => trivial

def Action.Submits : Action → Prop
  | .submit _ _ _ _ _ _ => True
  | _ => False

/-- Every dispute that was submitted is right for the challenge state the game
had at that time. -/
def Right (canonical : Nat → B256) (facts : Address → Facts) (log : List Action) : Prop :=
  ∀ game proof idx root intent ci, Action.submit game proof idx root intent ci ∈ log →
    (facts game).Target canonical ci idx root ∧
      Proved canonical (facts game) log game idx root proof

/-- The entries are right for the challenge state they were made for. -/
structure Good (canonical : Nat → B256) (facts : Address → Facts) (countered : Address → Nat)
    (s : DriverState) : Prop where
  entries : ∀ game p, s.pending game = some p →
    EntryOk canonical (facts game) (countered game) s.log game p
  right : Right canonical facts s.log

variable {countered : Address → Nat}

section

variable (h : Good canonical facts countered s)
include h

theorem Good.remove (game : Address) : Good canonical facts countered (s.set game none) := by
  refine ⟨fun g p hp => ?_, h.right⟩
  rw [DriverState.pending_set] at hp
  split at hp
  · cases hp
  · exact h.entries g p hp

theorem Good.insert (hp : EntryOk canonical (facts game) (countered game) s.log game p) :
    Good canonical facts countered (s.set game (some p)) := by
  refine ⟨fun g q hq => ?_, h.right⟩
  rw [DriverState.pending_set] at hq
  split at hq
  · rename_i hg
    subst hg
    cases hq
    exact hp
  · exact h.entries g q hq

theorem Good.recordSubmit (a : Action)
    (ha : ∀ game proof idx root intent ci, a = .submit game proof idx root intent ci →
      (facts game).Target canonical ci idx root ∧
        Proved canonical (facts game) (a :: s.log) game idx root proof) :
    Good canonical facts countered (s.record a) := by
  have hlog : ∀ b ∈ s.log, b ∈ a :: s.log := fun b hb => List.mem_cons_of_mem _ hb
  refine ⟨fun g p hp => (h.entries g p hp).mono hlog, ?_⟩
  intro game proof idx root intent ci hmem
  rcases List.mem_cons.mp hmem with heq | hold
  · exact ha game proof idx root intent ci heq.symm
  · obtain ⟨htarget, hproved⟩ := h.right game proof idx root intent ci hold
    exact ⟨htarget, hproved.mono hlog⟩

theorem Good.record (ha : ¬a.Submits) : Good canonical facts countered (s.record a) :=
  h.recordSubmit a fun _ _ _ _ _ _ heq => absurd (heq ▸ trivial) ha

section

variable (hp : EntryOk canonical (facts game) (countered game) s.log game p)
include hp

theorem Good.reprove (hkind : p.kind = .zk request) (env : Env) (hphase : p.phase = .needsRetry) :
    Good canonical facts countered (reprove env game p request s) := by
  have hlog := h.record (a := .zkRequest game request (env.proveBlock request)) id
  have hp' : EntryOk canonical (facts game) (countered game)
      (s.record (.zkRequest game request (env.proveBlock request))).log game p :=
    hp.mono fun b hb => List.mem_cons_of_mem _ hb
  unfold Challenger.reprove
  split
  · rename_i session hsession
    refine hlog.insert ⟨hp'.target, hp'.kind, request, hkind, ?_⟩
    rw [hsession]
    exact List.mem_cons_self
  · exact hlog.insert ⟨hp'.target, hp'.kind, by rw [hphase]; trivial⟩

theorem Good.handleProofRetry (hphase : p.phase = .needsRetry) (env : Env) :
    Good canonical facts countered (handleProofRetry env game p s) := by
  unfold Challenger.handleProofRetry
  split
  · exact h.remove game
  · split
    · rename_i request intent hkind
      have hcovers := hp.kind
      rw [hkind] at hcovers
      have hq : EntryOk canonical (facts game) (countered game) s.log game
          { p with kind := .zk request, intent, retryCount := 0 } :=
        ⟨hp.target, hcovers request rfl, by dsimp only; rw [hphase]; trivial⟩
      exact h.reprove hq rfl env hphase
    · exact h.remove game
    · rename_i request hkind
      exact h.reprove hp hkind env hphase

theorem Good.submitDispute (hphase : p.phase = .readyToSubmit proof)
    (hci : env.counteredIndex = countered game) :
    Good canonical facts countered (submitDispute env game p proof s) := by
  have hlog := h.recordSubmit (.submit game proof p.invalidIndex p.expectedRoot p.intent
      env.counteredIndex) fun g' proof' idx root intent ci heq => by
    obtain ⟨rfl, rfl, rfl, rfl, rfl, rfl⟩ := Action.submit.inj heq
    have hready := hp.phase
    rw [hphase] at hready
    exact ⟨hci ▸ hp.target, Proved.mono hready fun b hb => List.mem_cons_of_mem _ hb⟩
  have hp' : EntryOk canonical (facts game) (countered game) (s.record (.submit game proof
      p.invalidIndex p.expectedRoot p.intent env.counteredIndex)).log game p :=
    hp.mono fun b hb => List.mem_cons_of_mem _ hb
  unfold Challenger.submitDispute
  split
  · exact hlog.remove game
  · split
    · have hretry : EntryOk canonical (facts game) (countered game)
          (s.record (.submit game proof p.invalidIndex p.expectedRoot p.intent
            env.counteredIndex)).log game { p with phase := .needsRetry } :=
        ⟨hp'.target, hp'.kind, trivial⟩
      exact (hlog.insert hretry).handleProofRetry hretry rfl env
    · exact hlog

end

end

theorem submitDispute_submits (p : PendingProof) (proof : Bytes) :
    Logged Action.Submits s (submitDispute env game p proof s) := by
  have hbase := Works.refl game (s.record (.submit game proof p.invalidIndex p.expectedRoot p.intent
    env.counteredIndex))
  unfold submitDispute
  split
  · exact Logged.of_extends (a := .submit ..) trivial (hbase.set _).log
  · split
    · exact Logged.of_extends (a := .submit ..) trivial ((hbase.set _).handleProofRetry ..).log
    · exact Logged.of_extends (a := .submit ..) trivial hbase.log

/-- The phase an update of the prover leaves an entry in. -/
def ProofUpdate.phase : ProofUpdate → ProofPhase
  | .ready proof => .readyToSubmit proof
  | .needsRetry => .needsRetry

theorem Good.retry (h : Good canonical facts countered s) (hentry : s.pending game = some p) :
    Good canonical facts countered
      (s.set game (some { p with retryCount := p.retryCount + 1, phase := .needsRetry })) :=
  have hp := h.entries game p hentry
  h.insert ⟨hp.target, hp.kind, trivial⟩

theorem pending_set_phase (s : DriverState) (game : Address) {q : PendingProof}
    {u update : ProofUpdate} (hq : q.phase = u.phase) (hu : some u = some update) :
    ∃ r, (s.set game (some q)).pending game = some r ∧ r.phase = update.phase := by
  cases hu
  exact ⟨q, by simp, hq⟩

theorem Good.poll (h : Good canonical facts countered s) (hentry : s.pending game = some p)
    (cfg : DriverConfig) (env : Env) :
    Good canonical facts countered (poll cfg env game p s).2 ∧
      ∀ update, (poll cfg env game p s).1 = some update →
        ∃ q, (poll cfg env game p s).2.pending game = some q ∧ q.phase = update.phase := by
  have hp := h.entries game p hentry
  have hretry := h.retry hentry
  unfold Challenger.poll
  split
  · rename_i proof hphase
    exact ⟨h, fun update hu => ⟨p, hentry, by rw [← Option.some.inj hu, hphase]; rfl⟩⟩
  · rename_i hphase
    exact ⟨h, fun update hu => ⟨p, hentry, by rw [← Option.some.inj hu, hphase]; rfl⟩⟩
  · rename_i session startedAt hphase
    split
    · exact ⟨hretry, fun _ => pending_set_phase s game rfl⟩
    · split
      · exact ⟨h, nofun⟩
      · rename_i receipt _
        refine ⟨(h.record (a := .zkReceipt ..) id).insert ⟨hp.target, hp.kind, ?_⟩,
          fun _ => pending_set_phase _ game rfl⟩
        have hsession := hp.phase
        rw [hphase] at hsession
        obtain ⟨request, hkind, hrequest⟩ := hsession
        have hcovers := hp.kind
        rw [hkind] at hcovers
        exact Or.inl ⟨request, session, receipt, List.mem_cons_of_mem _ hrequest,
          List.mem_cons_self, rfl, hcovers⟩
      · exact ⟨hretry, fun _ => pending_set_phase s game rfl⟩
      · exact ⟨hretry, fun _ => pending_set_phase s game rfl⟩
      · exact ⟨h, nofun⟩
      · exact ⟨h, nofun⟩
      · exact ⟨h, nofun⟩

/-- One poll of a game. A dispute goes out only in the challenge state of its entry. -/
theorem Good.pollOrSubmit (h : Good canonical facts countered s) (cfg : DriverConfig)
    (hci : Logged Action.Submits s (pollOrSubmit cfg env game s) →
      env.counteredIndex = countered game) :
    Good canonical facts countered (pollOrSubmit cfg env game s) := by
  revert hci
  unfold Challenger.pollOrSubmit
  split
  · exact fun _ => h
  · rename_i p hentry
    obtain ⟨hgood, hphase⟩ := h.poll hentry cfg env
    have hworks := (Works.refl game s).poll cfg env p
    split
    · rename_i hpoll
      rw [hpoll] at hgood
      exact fun _ => hgood
    · rename_i update s' hpoll
      rw [hpoll] at hgood hphase hworks
      obtain ⟨q, hq, hqphase⟩ := hphase update rfl
      split
      · split
        · exact fun _ => (hgood.record (a := .settled game) id).remove game
        · rw [hq]
          intro hci
          cases update with
          | ready proof =>
            exact hgood.submitDispute (hgood.entries game q hq) hqphase
              (hci ((submitDispute_submits q proof).after hworks.log))
          | needsRetry => exact hgood.handleProofRetry (hgood.entries game q hq) hqphase env
      · exact fun _ => hgood

variable {f : Facts} {c : CandidateGame} {idx : Nat} {root : B256}

theorem buildZkRequest_covers (hc : c.Of f) (h : buildZkRequest cfg c idx = some request) :
    request.Covers f idx := by
  obtain ⟨block, hblock, rfl⟩ := Option.map_eq_some_iff.mp h
  refine ⟨?_, hc.interval⟩
  rw [checkpointBlock_some hblock, hc.start, hc.interval]
  rfl

theorem teeRequest_covers (hc : c.Of f) (hhonest : env.Honest canonical f) (hwf : f.WellFormed)
    (hidx : idx < f.roots.length) (h : teeRequest cfg env c idx root = some request) :
    request.Covers canonical f idx root := by
  simp only [teeRequest, Option.bind_eq_bind, Option.bind_eq_some_iff] at h
  obtain ⟨block, hblock, h⟩ := h
  split at h
  · cases h
  · simp only [Option.bind_eq_some_iff] at h
    obtain ⟨number, -, ⟨hash, agreed⟩, hagreed, h⟩ := h
    cases h
    have hstart : block = f.startOf idx := by
      rw [checkpointBlock_some hblock, hc.start, hc.interval]
      rfl
    obtain ⟨hend, hle⟩ := hwf.block_le hidx
    refine ⟨?_, by rw [hc.interval, hstart, hend], rfl⟩
    cases hroot : env.l2.computeOutputRootWithHash block with
    | error e =>
      rw [hroot] at hagreed
      cases hagreed
    | ok r =>
      rw [hroot] at hagreed
      cases hagreed
      rw [hstart] at hroot
      exact hhonest.canonical (Nat.le_add_right _ _) (by omega) hroot

section

variable (h : Good canonical facts countered s)
include h

section

variable (hc : c.Of (facts c.factory.proxy))
include hc

theorem Good.initiateZkProof
    (htarget : (facts c.factory.proxy).Target canonical (countered c.factory.proxy) idx root)
    (cfg : DriverConfig) (env : Env) (intent : DisputeIntent) :
    Good canonical facts countered (initiateZkProof cfg env c idx root intent s) := by
  unfold Challenger.initiateZkProof
  split
  · exact h
  · rename_i request hrequest
    have hlog := h.record (a := .zkRequest c.factory.proxy request (env.proveBlock request)) id
    split
    · exact hlog
    · rename_i session hsession
      refine hlog.insert ⟨htarget, buildZkRequest_covers hc hrequest, request, rfl, ?_⟩
      rw [hsession]
      exact List.mem_cons_self

section

variable (hhonest : env.Honest canonical (facts c.factory.proxy))
include hhonest

theorem Good.initiateProof (hwf : (facts c.factory.proxy).WellFormed)
    (htarget : (facts c.factory.proxy).Target canonical (countered c.factory.proxy) idx root)
    (hci : env.counteredIndex = countered c.factory.proxy) (cfg : DriverConfig)
    (intent : DisputeIntent) (tryTeeFirst : Bool) :
    Good canonical facts countered (initiateProof cfg env c idx root intent tryTeeFirst s) := by
  unfold Challenger.initiateProof
  split
  · split
    · exact h.initiateZkProof hc htarget cfg env intent
    · exact (h.record (a := .teeProof ..) id).initiateZkProof hc htarget cfg env intent
    · rename_i request proof hattempt
      obtain ⟨request', hrequest, heq⟩ := Option.map_eq_some_iff.mp hattempt
      obtain ⟨rfl, -⟩ := Prod.mk.inj heq
      have hlog := h.record (a := .teeProof c.factory.proxy request' (some proof)) id
      have hentry : EntryOk canonical (facts c.factory.proxy) (countered c.factory.proxy)
          (s.record (.teeProof c.factory.proxy request' (some proof))).log c.factory.proxy
          (.readyTee proof idx root (buildZkRequest cfg c idx)
            ((buildZkRequest cfg c idx).map fun _ => intent)) :=
        ⟨htarget, fun fallback hfallback => buildZkRequest_covers hc hfallback,
          Or.inr ⟨request', List.mem_cons_self,
            teeRequest_covers hc hhonest hwf htarget.2.1 hrequest⟩⟩
      exact (hlog.insert hentry).pollOrSubmit cfg fun _ => hci
  · exact h.initiateZkProof hc htarget cfg env intent

theorem Good.processInvalidProposal (hzero : countered c.factory.proxy = 0)
    (hci : env.counteredIndex = 0) (cfg : DriverConfig) (intent : DisputeIntent)
    (tryTeeFirst : Bool) :
    Good canonical facts countered (processInvalidProposal cfg env c intent tryTeeFirst s) := by
  unfold Challenger.processInvalidProposal
  split
  · exact h
  · rename_i result hresult
    obtain ⟨hwf, hcase⟩ := validateGame_ok hhonest hc hresult
    split
    · exact h
    · rename_i hinvalid
      rcases hcase with ⟨hvalid, -⟩ | ⟨idx, -, hidx, htarget⟩
      · exact absurd hvalid hinvalid
      · rw [hidx]
        exact h.initiateProof hc hhonest hwf (hzero ▸ htarget) (hci.trans hzero.symm) cfg intent
          tryTeeFirst

theorem Good.processFraudulentZkChallenge (hwf : (facts c.factory.proxy).WellFormed)
    (hci : countered c.factory.proxy = idx + 1) (cfg : DriverConfig) :
    Good canonical facts countered (processFraudulentZkChallenge cfg env c idx s) := by
  unfold Challenger.processFraudulentZkChallenge
  split
  · rename_i onChain block honChain hblock
    have hroot := hhonest.root honChain
    have hlt := (List.getElem?_eq_some_iff.mp hroot).1
    have hblock' : block = (facts c.factory.proxy).block idx := by
      rw [checkpointBlock_some hblock, hc.start, hc.interval]
      rfl
    split
    · exact h
    · rename_i expected hexpected
      obtain ⟨hash, hok⟩ := computeOutputRoot_ok hexpected
      rw [hblock'] at hok
      have hcanonical := hhonest.canonical (Nat.le_add_right _ _) (hwf.block_le hlt).2 hok
      split
      · exact h.record (a := .legitimate _) id
      · rename_i heq
        obtain rfl := not_not.mp heq
        refine h.initiateZkProof hc ⟨hcanonical, hlt, Or.inr ⟨hci, ?_⟩⟩ cfg env .nullify
        rintro ⟨root, hat, hne⟩
        cases hroot.symm.trans hat
        exact hne hcanonical
  · exact h

end

end

/-- A game without an entry may change its challenge state. -/
theorem Good.recount (hnone : s.pending game = none) (ci : Nat) :
    Good canonical facts (Function.update countered game ci) s := by
  refine ⟨fun g p hp => ?_, h.right⟩
  by_cases hg : g = game
  · rw [hg, hnone] at hp
    cases hp
  · rw [Function.update_of_ne hg]
    exact h.entries g p hp

theorem Good.processCandidate (hc : c.Of (facts c.factory.proxy))
    (hhonest : env.Honest canonical (facts c.factory.proxy))
    (hwf : (facts c.factory.proxy).WellFormed) (hfits : c.category.Fits env.counteredIndex)
    (cfg : DriverConfig) :
    Good canonical facts
      (if (s.pending c.factory.proxy).isSome then countered
        else Function.update countered c.factory.proxy env.counteredIndex)
      (processCandidate cfg env c s) := by
  unfold Challenger.processCandidate
  split
  · exact h
  · rename_i hnone
    have hre := h.recount (Option.not_isSome_iff_eq_none.mp hnone) env.counteredIndex
    have hat : Function.update countered c.factory.proxy env.counteredIndex c.factory.proxy =
        env.counteredIndex := Function.update_self ..
    split <;> rename_i hcat <;> rw [hcat] at hfits
    · exact hre.processInvalidProposal hc hhonest (hat.trans hfits) hfits cfg _ _
    · exact hre.processFraudulentZkChallenge hc hhonest hwf (hat.trans hfits) cfg
    · exact hre.processInvalidProposal hc hhonest (hat.trans hfits) hfits cfg _ _
    · exact hre.processInvalidProposal hc hhonest (hat.trans hfits) hfits cfg _ _

end

end Invariant

section Decision

variable {canonical : Nat → B256} {cfg : DriverConfig} {env : Env} {s s' s'' : DriverState}
  {game : Address} {c : CandidateGame} {f : Facts}

theorem not_logged_self (kind : Action → Prop) (s : DriverState) : ¬Logged kind s s := by
  rintro ⟨new, hnew, a, ha, -⟩
  obtain rfl : new = [] := List.self_eq_append_left.mp hnew
  cases ha

/-- A call that asks a prover for a proof about the game. -/
def Action.Requests (game : Address) : Action → Prop
  | .teeProof g _ _ => g = game
  | .zkRequest g _ _ => g = game
  | _ => False

/-- A proof about the game was requested in between. -/
def Started (s s' : DriverState) (game : Address) : Prop :=
  Logged (Action.Requests game) s s'

/-- Every call about the game is answered. -/
structure Env.Answers (f : Facts) (env : Env) : Prop where
  roots : env.intermediateOutputRoots.isSome
  root : ∀ i < f.roots.length, (env.intermediateOutputRoot i).isSome
  l2 : ∀ n, f.start ≤ n → n ≤ f.l2Block → ∃ r, env.l2.computeOutputRootWithHash n = .ok r

theorem computeOutputRoot_of {l2 : L2Provider} (h : l2.computeOutputRootWithHash n = .ok r) :
    l2.computeOutputRoot n = .ok r.2 := by
  rw [computeOutputRoot, h]
  rfl

theorem checkpointBlock_eq (h : start + interval * m < 2 ^ 64) :
    checkpointBlock start interval m = some (start + interval * m) :=
  if_pos ⟨by omega, h⟩

theorem checkpoints_isOk (h : ∀ k < roots.length, start + interval * (i + k + 1) < 2 ^ 64) :
    ∃ blocks, checkpoints start interval i roots = .ok blocks := by
  induction roots generalizing i with
  | nil => exact ⟨[], rfl⟩
  | cons root roots ih =>
    obtain ⟨tail, htail⟩ := ih (i := i + 1) fun k hk => by
      have hnext := h (k + 1) (by rw [List.length_cons]; omega)
      rwa [show i + 1 + k + 1 = i + (k + 1) + 1 by omega]
    have hhead := checkpointBlock_eq (h 0 (by simp))
    rw [Nat.add_zero] at hhead
    refine ⟨(start + interval * (i + 1), root) :: tail, ?_⟩
    simp [checkpoints, hhead, htail]

theorem validateOutputRoots_isOk {l2 : L2Provider} (start : Nat)
    (h : ∀ b ∈ blocks, ∃ root, l2.computeOutputRoot b.1 = .ok root) :
    ∃ r, l2.validateOutputRoots start blocks = .ok r := by
  induction blocks generalizing start with
  | nil => exact ⟨none, rfl⟩
  | cons head rest ih =>
    obtain ⟨root, hroot⟩ := h head List.mem_cons_self
    obtain ⟨r, hr⟩ := ih (start + 1) fun b hb => h b (List.mem_cons_of_mem _ hb)
    by_cases heq : root = head.2
    · exact ⟨r, by simp [validateOutputRoots, hroot, heq, hr]⟩
    · exact ⟨some (start, root), by simp [validateOutputRoots, hroot, heq]⟩

section

variable (hc : c.Of f)
include hc

theorem validateGame_isSome (hhonest : env.Honest canonical f) (hwf : f.WellFormed)
    (hanswers : env.Answers f) : ∃ result, validateGame env c = some result := by
  obtain ⟨roots, hroots⟩ := Option.isSome_iff_exists.mp hanswers.roots
  obtain rfl := hhonest.roots hroots
  have hle : ∀ k < f.roots.length, f.start + f.interval * (0 + k + 1) ≤ f.l2Block := by
    intro k hk
    rw [Nat.zero_add]
    exact (hwf.block_le hk).2
  have hlt := f.l2Block_lt
  obtain ⟨blocks, hblocks⟩ : ∃ blocks, checkpoints f.start f.interval 0 f.roots = .ok blocks :=
    checkpoints_isOk fun k hk => by have := hle k hk; omega
  obtain ⟨hlen, hat⟩ := checkpoints_ok hblocks
  obtain ⟨found, hfound⟩ : ∃ r, env.l2.validateOutputRoots 0 blocks = .ok r := by
    apply validateOutputRoots_isOk
    intro b hb
    obtain ⟨k, hk⟩ := List.mem_iff_getElem?.mp hb
    have hk' : k < f.roots.length := by
      rw [← hlen]
      exact (List.getElem?_eq_some_iff.mp hk).1
    cases hk.symm.trans (hat k _ (List.getElem?_eq_getElem hk'))
    obtain ⟨r, hr⟩ := hanswers.l2 _ (Nat.le_add_right _ _) (hle k hk')
    exact ⟨_, computeOutputRoot_of hr⟩
  have hok : env.l2.validateIntermediateRoots f.start f.l2Block f.interval c.info.rootClaim
      f.roots = .ok ⟨found.isNone, (found.map (·.2)).getD c.info.rootClaim, c.info.rootClaim,
        found.map (·.1)⟩ := by
    simp [validateIntermediateRoots, reject_neg (Nat.ne_of_gt hwf.interval_pos),
      reject_neg (Nat.not_le.mpr hwf.start_lt), reject_neg (not_not.mpr hwf.count), hblocks,
      hfound]
  refine ⟨⟨found.isNone, (found.map (·.2)).getD c.info.rootClaim, c.info.rootClaim,
    found.map (·.1)⟩, ?_⟩
  simp [validateGame, hroots, hc.start, hc.l2Block, hc.interval, hok]

theorem buildZkRequest_isSome (hwf : f.WellFormed) (hidx : idx < f.roots.length)
    (cfg : DriverConfig) : ∃ request, buildZkRequest cfg c idx = some request := by
  have hlt : f.start + f.interval * idx < 2 ^ 64 := by
    have := hwf.block_le hidx
    have := f.l2Block_lt
    unfold Facts.startOf at *
    omega
  unfold buildZkRequest CandidateGame.checkpointStartBlock
  rw [hc.start, hc.interval, checkpointBlock_eq hlt]
  exact ⟨_, rfl⟩

theorem checkpointStartBlock_eq (hwf : f.WellFormed) (hk : k < f.roots.length) :
    c.checkpointStartBlock (k + 1) = some (f.block k) := by
  have hle := (hwf.block_le hk).2
  have := f.l2Block_lt
  rw [CandidateGame.checkpointStartBlock, hc.start, hc.interval]
  exact checkpointBlock_eq (by unfold Facts.block at hle; omega)

theorem initiateZkProof_started (hwf : f.WellFormed) (hidx : idx < f.roots.length) (root : B256)
    (intent : DisputeIntent) (cfg : DriverConfig) (env : Env) (s : DriverState) :
    Started s (initiateZkProof cfg env c idx root intent s) c.factory.proxy := by
  obtain ⟨request, hrequest⟩ := buildZkRequest_isSome hc hwf hidx cfg
  unfold initiateZkProof
  simp only [hrequest]
  have hbase := Extends.refl (s.record (.zkRequest c.factory.proxy request
    (env.proveBlock request)))
  split
  · exact Logged.of_extends (a := .zkRequest ..) rfl hbase
  · exact Logged.of_extends (a := .zkRequest ..) rfl (hbase.set _ _)

theorem initiateProof_started (hwf : f.WellFormed) (hidx : idx < f.roots.length) (root : B256)
    (intent : DisputeIntent) (tryTeeFirst : Bool) (cfg : DriverConfig) (env : Env)
    (s : DriverState) :
    Started s (initiateProof cfg env c idx root intent tryTeeFirst s) c.factory.proxy := by
  unfold initiateProof
  split
  · split
    · exact initiateZkProof_started hc hwf hidx root intent cfg env s
    · exact (initiateZkProof_started hc hwf hidx root intent cfg env _).after
        ((Extends.refl s).record _)
    · exact Logged.of_extends (a := .teeProof ..) rfl
        ((((Works.refl _ _).set _).pollOrSubmit cfg env).log)
  · exact initiateZkProof_started hc hwf hidx root intent cfg env s

theorem processInvalidProposal_started_iff (hhonest : env.Honest canonical f) (hwf : f.WellFormed)
    (hanswers : env.Answers f) (intent : DisputeIntent) (tryTeeFirst : Bool) (s : DriverState) :
    Started s (processInvalidProposal cfg env c intent tryTeeFirst s) c.factory.proxy ↔
      ∃ i, f.WrongAt canonical i := by
  obtain ⟨result, hresult⟩ := validateGame_isSome hc hhonest hwf hanswers
  obtain ⟨-, hcase⟩ := validateGame_ok hhonest hc hresult
  unfold processInvalidProposal
  simp only [hresult]
  rcases hcase with ⟨hvalid, hnone⟩ | ⟨idx, hinvalid, hidx, htarget⟩
  · rw [if_pos hvalid]
    exact ⟨fun h => absurd h (not_logged_self _ _), fun ⟨i, hi⟩ => absurd hi (hnone i)⟩
  · rw [if_neg (by rw [hinvalid]; exact Bool.false_ne_true), hidx]
    refine ⟨fun _ => ⟨idx, ?_⟩, fun _ => initiateProof_started hc hwf htarget.2.1 _ _ _ _ _ _⟩
    rcases htarget.2.2 with ⟨-, hfirst⟩ | ⟨hzero, -⟩
    · exact hfirst.1
    · cases hzero

theorem processFraudulentZkChallenge_started_iff (hhonest : env.Honest canonical f)
    (hwf : f.WellFormed) (hanswers : env.Answers f) {k : Nat} (hk : k < f.roots.length)
    (s : DriverState) :
    Started s (processFraudulentZkChallenge cfg env c k s) c.factory.proxy ↔
      ¬f.WrongAt canonical k := by
  obtain ⟨onChain, honChain⟩ := Option.isSome_iff_exists.mp (hanswers.root k hk)
  have hroot := hhonest.root honChain
  have hle := (hwf.block_le hk).2
  have hblock := checkpointStartBlock_eq hc hwf hk
  obtain ⟨r, hr⟩ := hanswers.l2 (f.block k) (Nat.le_add_right _ _) hle
  have hcanonical : r.2 = canonical (f.block k) :=
    hhonest.canonical (Nat.le_add_right _ _) hle hr
  unfold processFraudulentZkChallenge
  simp only [honChain, hblock, computeOutputRoot_of hr, hcanonical]
  by_cases heq : onChain = canonical (f.block k)
  · rw [if_neg (not_not.mpr heq)]
    refine ⟨fun _ => ?_, fun _ => initiateZkProof_started hc hwf hk _ _ _ _ _⟩
    rintro ⟨root, hat, hne⟩
    exact hne ((Option.some.inj (hroot.symm.trans hat)) ▸ heq)
  · rw [if_pos heq]
    refine ⟨?_, fun h => absurd ⟨onChain, hroot, heq⟩ h⟩
    rintro ⟨new, hnew, a, ha, hreq⟩
    obtain rfl : [Action.legitimate c.factory.proxy] = new := List.append_cancel_right hnew
    rw [List.mem_singleton.mp ha] at hreq
    exact hreq.elim

end

end Decision

section Runs

variable {canonical : Nat → B256} {facts : Address → Facts} {cfg : DriverConfig}
  {s : DriverState} {countered : Address → Nat}

/-- Any sequence of polls and candidates. A dispute goes out while the challenge
state of its game is the one the game was evaluated in. -/
inductive Run (canonical : Nat → B256) (facts : Address → Facts) (cfg : DriverConfig) :
    DriverState → (Address → Nat) → Prop
  | start : Run canonical facts cfg .empty fun _ => 0
  | poll {s : DriverState} {countered : Address → Nat} (game : Address) (env : Env)
      (unchanged : Logged Action.Submits s (pollOrSubmit cfg env game s) →
        env.counteredIndex = countered game)
      (before : Run canonical facts cfg s countered) :
      Run canonical facts cfg (pollOrSubmit cfg env game s) countered
  | process {s : DriverState} {countered : Address → Nat} (c : CandidateGame) (env : Env)
      (of : c.Of (facts c.factory.proxy))
      (honest : env.Honest canonical (facts c.factory.proxy))
      (unchanged : c.category.Fits env.counteredIndex)
      (before : Run canonical facts cfg s countered) :
      Run canonical facts cfg (processCandidate cfg env c s)
        (if (s.pending c.factory.proxy).isSome then countered
          else Function.update countered c.factory.proxy env.counteredIndex)

theorem Run.good (hwf : ∀ game, (facts game).WellFormed) (h : Run canonical facts cfg s countered) :
    Good canonical facts countered s := by
  induction h with
  | start => exact ⟨nofun, nofun⟩
  | poll game env unchanged _ ih => exact ih.pollOrSubmit cfg unchanged
  | process c env of honest unchanged _ ih =>
    exact ih.processCandidate of honest (hwf _) unchanged cfg

/-- Along a run every dispute is right, and a game without a pending proof gets
one exactly when it is wrong or, once challenged, when the challenge is. -/
theorem disputes_are_right (hwf : ∀ game, (facts game).WellFormed)
    (hlast : ∀ game, (facts game).rootClaim ≠ canonical (facts game).l2Block →
      ∃ i, (facts game).WrongAt canonical i)
    (hrun : Run canonical facts cfg s countered) :
    Right canonical facts s.log ∧
    ∀ (c : CandidateGame) (env : Env), c.Of (facts c.factory.proxy) →
      env.Honest canonical (facts c.factory.proxy) → env.Answers (facts c.factory.proxy) →
      c.category.Fits env.counteredIndex → s.pending c.factory.proxy = none →
      (env.counteredIndex = 0 → (Started s (processCandidate cfg env c s) c.factory.proxy ↔
        (facts c.factory.proxy).Wrong canonical)) ∧
      ∀ k < (facts c.factory.proxy).roots.length, env.counteredIndex = k + 1 →
        (Started s (processCandidate cfg env c s) c.factory.proxy ↔
          ¬(facts c.factory.proxy).WrongAt canonical k) := by
  refine ⟨(hrun.good hwf).right, fun c env hc hhonest hanswers hfits hnone => ?_⟩
  have hproposal : ∀ intent tryTeeFirst,
      Started s (processInvalidProposal cfg env c intent tryTeeFirst s) c.factory.proxy ↔
        ∃ i, (facts c.factory.proxy).WrongAt canonical i := fun intent tryTeeFirst =>
    processInvalidProposal_started_iff hc hhonest (hwf _) hanswers intent tryTeeFirst s
  have hwrong : (facts c.factory.proxy).Wrong canonical ↔
      ∃ i, (facts c.factory.proxy).WrongAt canonical i :=
    ⟨fun h => h.elim id (hlast _), Or.inl⟩
  unfold processCandidate
  rw [if_neg (by rw [hnone]; exact Bool.false_ne_true), hwrong]
  cases hcat : c.category with
  | fraudulentZkChallenge i =>
    rw [hcat] at hfits
    refine ⟨fun hzero => absurd (hzero.symm.trans hfits) (by omega), fun k hk hci => ?_⟩
    obtain rfl : i = k := by
      have := hfits.symm.trans hci
      omega
    exact processFraudulentZkChallenge_started_iff hc hhonest (hwf _) hanswers hk s
  | _ =>
    rw [hcat] at hfits
    exact ⟨fun _ => hproposal _ _, fun k _ hci => absurd (hfits.symm.trans hci) (by omega)⟩

end Runs

section Samples

/-- The root of a block is its number. -/
def sampleRoot (n : Nat) : B256 := BitVec.ofNat 256 n

def sampleL2 : L2Provider where
  headerByNumber n := .ok (sampleRoot n, ⟨0, sampleRoot n⟩)
  getProof hash := .ok (hash, [])
  hashSlow header := header.rest
  verify _ _ := true
  outputRoot _ _ hash := hash

theorem sampleL2_root (n : Nat) :
    sampleL2.computeOutputRootWithHash n = .ok (sampleRoot n, sampleRoot n) := by
  simp [computeOutputRootWithHash, sampleL2, reject, Except.mapError, bind, Except.bind]

/-- Checkpoints at 10 and 20, the second one wrong. -/
def sampleFacts : Facts := ⟨0, 20, 10, 99, [10, 99], by decide⟩

/-- A checkpoint at 10, whose root is claimed for block 15 too. -/
def shortFacts : Facts := ⟨0, 15, 10, 10, [10], by decide⟩

def sampleConfig : DriverConfig where
  maxProofDuration := 100
  senderAddress := 1
  tee := false
  deriveSessionId _ _ := "session"
  encodeDisputeProofBytes := some

def sampleCandidate (f : Facts) (category : GameCategory) : CandidateGame where
  index := 0
  factory := ⟨1, 0, 7⟩
  info := ⟨f.rootClaim, f.l2Block, 0⟩
  startingBlockNumber := f.start
  intermediateBlockInterval := f.interval
  l1Head := 0
  teeProver := 5
  category := category

/-- Every service answers, every proof is ready at once. -/
def sampleEnv (f : Facts) (counteredIndex : Nat) : Env where
  l2 := sampleL2
  now := 0
  intermediateOutputRoots := some f.roots
  intermediateOutputRoot i := f.roots[i]?
  l1HeadNumber := some 0
  teeTimedOut := false
  teeProve _ := none
  proveBlock request := some request.sessionId
  getProof _ := some (.succeeded, [1, 2])
  status := some .inProgress
  teeProver := some 5
  zkProver := some 6
  counteredIndex := counteredIndex
  submitted := true

theorem sampleEnv_honest (f : Facts) (ci : Nat) : (sampleEnv f ci).Honest sampleRoot f where
  canonical := by
    intro n hash root _ _ h
    exact (Prod.mk.inj (Except.ok.inj ((sampleL2_root n).symm.trans h))).2.symm
  roots h := (Option.some.inj h).symm
  root h := h

/-- The run that evaluates the game and submits once the proof is there. -/
def sampleRun (f : Facts) (category : GameCategory) (evaluated submitted : Nat) : DriverState :=
  pollOrSubmit sampleConfig (sampleEnv f submitted) 7
    (processCandidate sampleConfig (sampleEnv f evaluated) (sampleCandidate f category)
      .empty)

theorem disputes_are_right_second_checkpoint :
    Right sampleRoot (fun _ => sampleFacts) (sampleRun sampleFacts .invalidZkProposal 0 0).log ∧
      (sampleRun sampleFacts .invalidZkProposal 0 0).log.head? =
        some (.submit 7 [1, 1, 2] 1 20 .nullify 0) := by
  have hrun : Run sampleRoot (fun _ => sampleFacts) sampleConfig
      (sampleRun sampleFacts .invalidZkProposal 0 0) _ :=
    .poll 7 (sampleEnv sampleFacts 0) (fun _ => rfl) (.process _ (sampleEnv sampleFacts 0)
      ⟨rfl, rfl, rfl, rfl⟩ (sampleEnv_honest _ _) rfl .start)
  exact ⟨(disputes_are_right (fun _ => ⟨by decide, by decide, rfl⟩)
    (fun _ _ => ⟨1, 99, rfl, by decide⟩) hrun).1, by rfl⟩

/-- A wrong claim behind the last checkpoint starts no proof, and the dispute of
a challenge is submitted as it was evaluated after another checkpoint was
challenged instead. -/
theorem disputes_missed_and_misdirected :
    (shortFacts.Wrong sampleRoot ∧ (processCandidate sampleConfig (sampleEnv shortFacts 0)
      (sampleCandidate shortFacts .invalidZkProposal) .empty).log = []) ∧
    (sampleRun sampleFacts (.fraudulentZkChallenge 0) 1 2).log.head? =
      some (.submit 7 [1, 1, 2] 0 10 .nullify 2) :=
  ⟨⟨Or.inr (by decide), by rfl⟩, by rfl⟩

end Samples
end SciChain.Challenger
