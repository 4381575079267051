import SciChain.Proofs.KeychainSteps

namespace SciChain
open Library AccountKeychain AuthorizedKey

variable {kc kc' : AccountKeychain}

/-- The life of a key id under one account. -/
inductive KeyPhase where
  | absent
  | registered
  | revoked
  deriving DecidableEq, Repr

def AuthorizedKey.phase (key : AuthorizedKey) : KeyPhase :=
  if key.isRevoked then .revoked else if key.expiry = 0 then .absent else .registered

/-- A phase is kept or is followed by the next one. -/
inductive KeyPhase.Moves : KeyPhase → KeyPhase → Prop
  | stay (p : KeyPhase) : Moves p p
  | register : Moves .absent .registered
  | revoke : Moves .registered .revoked

/-- The three ways an operation rewrites a stored key record. -/
inductive KeyChange (old : AuthorizedKey) : AuthorizedKey → Prop
  | register {new : AuthorizedKey} : old.expiry = 0 → old.isRevoked = false →
      new.expiry ≠ 0 → new.isRevoked = false → KeyChange old new
  | revoke : old.expiry ≠ 0 → KeyChange old { isRevoked := true }
  | enforce : old.expiry ≠ 0 → old.isRevoked = false →
      KeyChange old { old with enforceLimits := true }

theorem KeyChange.moves (h : KeyChange old new) : KeyPhase.Moves old.phase new.phase := by
  cases h with
  | register ho hr hn hnr =>
    simp only [phase, hr, hnr, Bool.false_eq_true, if_false, if_pos ho, if_neg hn]
    exact .register
  | revoke ho =>
    cases hr : old.isRevoked with
    | true =>
      simp only [phase, hr, if_true]
      exact .stay _
    | false =>
      simp only [phase, hr, Bool.false_eq_true, if_false, if_neg ho, if_true]
      exact .revoke
  | enforce ho hr => exact .stay _

/-- A record rewritten by an operation of `account`, or left alone. -/
def KeysStep (op : KeychainOp) (kc kc' : AccountKeychain) : Prop :=
  ∀ account keyId, kc'.keys account keyId = kc.keys account keyId ∨
    (op.administrator = some account ∧ KeyChange (kc.keys account keyId) (kc'.keys account keyId) ∧
      (keyId = 0 → (kc.keys account keyId).expiry ≠ 0))

theorem KeysStep.of_eq (h : kc'.keys = kc.keys) :
    KeysStep op kc kc' := fun _ _ => Or.inl (by rw [h])

theorem KeysStep.of_setKey (ha : op.administrator = some a)
    (hk : kc'.keys = (kc.setKey a k key).keys) (hc : KeyChange (kc.keys a k) key)
    (hz : k = 0 → (kc.keys a k).expiry ≠ 0) : KeysStep op kc kc' := by
  intro a' k'
  by_cases heq : a' = a ∧ k' = k
  · obtain ⟨rfl, rfl⟩ := heq
    have hnew : kc'.keys a' k' = key := by rw [hk, keys_setKey, if_pos ⟨rfl, rfl⟩]
    exact Or.inr ⟨ha, by rwa [hnew], hz⟩
  · exact Or.inl (by rw [hk, keys_setKey, if_neg heq])

theorem verifyAndUpdateSpending_keys
    (h : kc.verifyAndUpdateSpending (launchCtx ts) account keyId token amount = .ok kc') :
    kc'.keys = kc.keys := by
  rcases verifyAndUpdateSpending_ok h with ⟨rfl, _⟩ | ⟨_, _, _, row, _, _, rfl⟩
  · rfl
  · rw [keys_emitEvent, keys_setRow]

/-- Which records a successful operation rewrites, and how. -/
theorem KeychainStep.keys_step {step : KeychainStep} (h : step.apply kc = .ok kc') :
    KeysStep step.op kc kc' := by
  obtain ⟨ts, op⟩ := step
  simp only [KeychainStep.apply] at h
  cases op with
  | authorizeKey sender keyId signatureType config witness =>
    obtain ⟨_, hzero, hexp, hold, hrev, code, _, _, hkeys, _⟩ := authorizeKey_ok h
    have hnew : config.expiry ≠ 0 := by
      rintro he
      simp [he] at hexp
    exact .of_setKey rfl hkeys (.register hold hrev hnew rfl) (fun he => absurd he hzero)
  | burnKeyAuthorizationWitness sender witness =>
    obtain rfl := burnKeyAuthorizationWitness_ok h
    exact .of_eq rfl
  | revokeKey sender keyId =>
    obtain ⟨_, hexp, rfl⟩ := revokeKey_ok h
    exact .of_setKey rfl rfl (.revoke hexp) (fun _ => hexp)
  | updateSpendingLimit sender keyId token newLimit =>
    obtain ⟨_, hactive, hkeys, _⟩ := updateSpendingLimit_ok h
    exact .of_setKey rfl hkeys (.enforce hactive.2.1 hactive.1) (fun _ => hactive.2.1)
  | setAllowedCalls sender keyId scopes =>
    obtain ⟨_, _, _, _, scope, _, rfl⟩ := setAllowedCalls_ok h
    exact .of_eq rfl
  | removeAllowedCalls sender keyId target =>
    obtain ⟨_, _, ⟨_, rfl⟩ | ⟨_, rfl⟩⟩ := removeAllowedCalls_ok h <;> exact .of_eq rfl
  | verifyAndUpdateSpending account keyId token amount =>
    exact .of_eq (verifyAndUpdateSpending_keys h)
  | refundSpendingLimit account token amount =>
    simp only [KeychainOp.apply, refundSpendingLimit_eq, Except.ok.injEq] at h
    subst h
    split <;> exact .of_eq rfl
  | authorizeTransfer account token amount =>
    rcases KeychainOp.spend_cases (Or.inr (Or.inl ⟨_, _, _, rfl⟩)) h with rfl | ⟨_, _, _, _, h⟩
    · exact .of_eq rfl
    · exact .of_eq (verifyAndUpdateSpending_keys h)
  | authorizeApprove account token oldApproval newApproval =>
    rcases KeychainOp.spend_cases (Or.inr (Or.inr ⟨_, _, _, _, rfl⟩)) h with
      rfl | ⟨_, _, _, _, h⟩
    · exact .of_eq rfl
    · exact .of_eq (verifyAndUpdateSpending_keys h)
  | setTransactionKey keyId =>
    cases h
    exact .of_eq rfl
  | setTxOrigin origin =>
    cases h
    exact .of_eq rfl

/-- One attempted operation moves a record by at most one phase, and only when
the account itself is the administrator. -/
theorem attempt_keys (kc : AccountKeychain) (step : KeychainStep) :
    KeysStep step.op kc (attempt KeychainStep.apply kc step) :=
  attempt_invariant (P := KeysStep step.op kc) (fun _ h => KeychainStep.keys_step h) (.of_eq rfl)

theorem KeysStep.moves (h : KeysStep op kc kc') (account keyId : Address) :
    KeyPhase.Moves (kc.keys account keyId).phase (kc'.keys account keyId).phase := by
  rcases h account keyId with he | ⟨_, hc, _⟩
  · rw [he]
    exact .stay _
  · exact hc.moves

theorem AuthorizedKey.phase_eq_revoked {key : AuthorizedKey} :
    key.phase = .revoked ↔ key.isRevoked = true := by
  unfold phase
  split
  · simp_all
  · split <;> simp_all

/-- Revoked is final: no operation leads out of it. -/
theorem revoked_run (steps : List KeychainStep) (h : (kc.keys account keyId).isRevoked = true) :
    ((run KeychainStep.apply kc steps).keys account keyId).isRevoked = true := by
  let P := fun s : AccountKeychain => (s.keys account keyId).isRevoked = true
  refine run_invariant (P := P) (fun step s s' hs hstep => ?_) h steps
  have hm := (KeychainStep.keys_step hstep).moves account keyId
  rw [phase_eq_revoked.mpr hs] at hm
  generalize hp : (s'.keys account keyId).phase = p at hm
  cases hm
  exact phase_eq_revoked.mp hp

theorem keyIsActive_revoked (ctx : StorageCtx) (h : (kc.keys account keyId).isRevoked = true) :
    kc.keyIsActive ctx account keyId = .ok false := by
  rw [keyIsActive_eq, decide_eq_false]
  intro ha
  rw [ha.1] at h
  cases h

theorem authorizeKey_revoked (ts : U256) (signatureType : SignatureType)
    (config : KeyRestrictions) (witness : Option B256)
    (h : (kc.keys account keyId).isRevoked = true) :
    ∃ e, kc.authorizeKey (launchCtx ts) account keyId signatureType config witness = .error e := by
  cases hr : kc.authorizeKey (launchCtx ts) account keyId signatureType config witness with
  | error e => exact ⟨e, rfl⟩
  | ok kc' =>
    obtain ⟨_, _, _, _, hrev, _⟩ := authorizeKey_ok hr
    rw [h] at hrev
    cases hrev

/-- Along every run a key record moves only from absent to registered to
revoked, only its own account moves it, and after a successful revocation the
key is never active again and can never be authorized again. -/
theorem key_lifecycle_one_way (start : AccountKeychain) (account keyId : Address)
    (earlier : List KeychainStep) (step : KeychainStep) (later : List KeychainStep) :
    let before := run KeychainStep.apply start earlier
    let after := run KeychainStep.apply start (earlier ++ [step])
    let last := run KeychainStep.apply start (earlier ++ step :: later)
    KeyPhase.Moves (before.keys account keyId).phase (after.keys account keyId).phase ∧
    (step.op.administrator ≠ some account →
      after.keys account keyId = before.keys account keyId) ∧
    (step.op = .revokeKey account keyId → step.apply before = .ok after → ∀ ts,
      last.keyIsActive (launchCtx ts) account keyId = .ok false ∧
      ∀ signatureType config witness, ∃ e,
        last.authorizeKey (launchCtx ts) account keyId signatureType config witness =
          .error e) := by
  intro before after last
  have hafter : after = attempt KeychainStep.apply before step := run_append start earlier [step]
  have hlast : last = run KeychainStep.apply after later := by
    rw [hafter]
    exact run_append start earlier (step :: later)
  have hstep : KeysStep step.op before after := by
    rw [hafter]
    exact attempt_keys before step
  refine ⟨hstep.moves account keyId, ?_, ?_⟩
  · intro hother
    rcases hstep account keyId with he | ⟨hadmin, _⟩
    · exact he
    · exact absurd hadmin hother
  · intro hop hok ts
    have hrevoked : (after.keys account keyId).isRevoked = true := by
      simp only [KeychainStep.apply, hop, KeychainOp.apply] at hok
      obtain ⟨_, _, he⟩ := revokeKey_ok hok
      rw [he, keys_emitEvent, keys_setKey, if_pos ⟨rfl, rfl⟩]
    have hfinal : (last.keys account keyId).isRevoked = true := by
      rw [hlast]
      exact revoked_run later hrevoked
    exact ⟨keyIsActive_revoked _ hfinal, fun _ _ _ => authorizeKey_revoked ts _ _ _ hfinal⟩

def hourKey : KeyRestrictions where
  expiry := 3700
  enforceLimits := false
  limits := []
  allowAnyCalls := true
  allowedCalls := []

/-- An account registers a key. -/
def revocationRun : List KeychainStep :=
  [⟨100, .setTxOrigin 1⟩, ⟨100, .authorizeKey 1 2 .Secp256k1 hourKey none⟩]

/-- It registers another key, and the first one again, which is refused. -/
def afterRevocation : List KeychainStep :=
  [⟨210, .authorizeKey 1 3 .Secp256k1 hourKey none⟩,
   ⟨220, .authorizeKey 1 2 .Secp256k1 hourKey none⟩, ⟨230, .updateSpendingLimit 1 3 9 5⟩]

theorem key_lifecycle_one_way_after_revocation :
    let last := run KeychainStep.apply .empty
      (revocationRun ++ ⟨200, .revokeKey 1 2⟩ :: afterRevocation)
    last.keyIsActive (launchCtx 300) 1 3 = .ok true ∧
    last.keyIsActive (launchCtx 300) 1 2 = .ok false ∧
    ∃ e, last.authorizeKey (launchCtx 300) 1 2 .Secp256k1 hourKey none = .error e := by
  have h := key_lifecycle_one_way .empty 1 2 revocationRun ⟨200, .revokeKey 1 2⟩ afterRevocation
  have hlast := h.2.2 rfl (by rw [run_append]; exact apply_eq_attempt (by decide)) 300
  exact ⟨by rw [keyIsActive_eq]; rfl, hlast.1, hlast.2 _ _ _⟩

/-- As long as a key is accepted it is as it was accepted before: no run changes its
signature type or its expiry, or lifts its limits. -/
theorem accepted_key_fixed (steps : List KeychainStep)
    (h : kc.loadActiveKey account keyId now = .ok key)
    (h' : (run KeychainStep.apply kc steps).loadActiveKey account keyId now' = .ok key') :
    key' = key ∨ key' = { key with enforceLimits := true } := by
  obtain ⟨⟨-, hexpiry, -⟩, rfl⟩ := loadActiveKey_ok.mp h
  obtain ⟨⟨hlive, -⟩, rfl⟩ := loadActiveKey_ok.mp h'
  clear h h'
  induction steps generalizing kc with
  | nil => exact .inl rfl
  | cons step steps ih =>
    rcases attempt_keys kc step account keyId with hsame | ⟨_, hc, _⟩
    · rw [← hsame] at hexpiry ⊢
      exact ih hexpiry hlive
    · generalize hnew : (attempt KeychainStep.apply kc step).keys account keyId = new at hc
      cases hc with
      | register hzero => exact absurd hzero hexpiry
      | revoke =>
        -- A revoked record is never accepted again.
        have hlast := revoked_run steps (congrArg isRevoked hnew)
        exact absurd hlive (by simp [hlast])
      | enforce =>
        have hrest := ih (by rwa [hnew]) hlive
        rw [hnew, or_self] at hrest
        exact .inr hrest

/-- The limit that is set switches enforcement on. -/
theorem accepted_key_fixed_limited :
    let start := run KeychainStep.apply .empty revocationRun
    let limited := run KeychainStep.apply start [⟨200, .updateSpendingLimit 1 2 9 5⟩]
    limited.keys 1 2 = start.keys 1 2 ∨
      limited.keys 1 2 = { start.keys 1 2 with enforceLimits := true } :=
  accepted_key_fixed _ (loadActiveKey_of_active (show AuthorizedKey.Active _ 100 by decide))
    (loadActiveKey_of_active (show AuthorizedKey.Active _ 300 by decide))

end SciChain
