import SciChain.Keychain.Runs

namespace SciChain
open Library AccountKeychainError

/-- A key that signs at `now`: registered, not revoked, not expired. -/
def AuthorizedKey.Active (key : AuthorizedKey) (now : U64) : Prop :=
  key.isRevoked = false ∧ key.expiry ≠ 0 ∧ now.toNat < key.expiry.toNat

instance (key : AuthorizedKey) (now : U64) : Decidable (key.Active now) :=
  inferInstanceAs (Decidable (_ ∧ _ ∧ _))

/-- The row a successful spend of `amount` at `now` leaves. -/
def SpendingLimitState.spend (row : SpendingLimitState) (now : U64) (amount : U256) :
    SpendingLimitState :=
  { row.rollover now with remaining := (row.rollover now).remaining - amount }

namespace AccountKeychain

variable {kc kc' : AccountKeychain} {ctx : StorageCtx} {limits : List TokenLimit}

theorem loadActiveKey_ok : kc.loadActiveKey account keyId now = .ok key ↔
      (kc.keys account keyId).Active now ∧ key = kc.keys account keyId := by
  simp only [loadActiveKey, bind_ok, reject_ok, pure_eq, AuthorizedKey.Active, exists_const,
    Except.ok.injEq, Bool.not_eq_true, Nat.not_le]
  constructor
  · rintro ⟨hr, he, hn, rfl⟩
    exact ⟨⟨hr, he, hn⟩, rfl⟩
  · rintro ⟨⟨hr, he, hn⟩, rfl⟩
    exact ⟨hr, he, hn, rfl⟩

theorem loadActiveKey_of_active (h : (kc.keys account keyId).Active now) :
    kc.loadActiveKey account keyId now = .ok (kc.keys account keyId) :=
  loadActiveKey_ok.mpr ⟨h, rfl⟩

theorem loadActiveKey_error (h : kc.loadActiveKey account keyId now = .error e) :
    ¬(kc.keys account keyId).Active now ∧ e.isSystemError = false := by
  constructor
  · intro ha
    rw [loadActiveKey_of_active ha] at h
    cases h
  simp only [loadActiveKey, bind_error, reject_error, pure_eq, reduceCtorEq, and_false,
    exists_false, or_false] at h
  rcases h with ⟨_, rfl⟩ | ⟨_, _, ⟨_, rfl⟩ | ⟨_, _, ⟨_, rfl⟩⟩⟩ <;> rfl

theorem keyIsActive_eq (ctx : StorageCtx) (kc : AccountKeychain) (account keyId : Address) :
    kc.keyIsActive ctx account keyId = .ok (decide ((kc.keys account keyId).Active ctx.now)) := by
  unfold keyIsActive
  cases h : kc.loadActiveKey account keyId ctx.now with
  | ok key => simp [(loadActiveKey_ok.mp h).1]
  | error e =>
    obtain ⟨hn, he⟩ := loadActiveKey_error h
    simp [hn, he]

theorem ensureAdminCaller_ok :
    kc.ensureAdminCaller ctx sender = .ok u ↔
      kc.transactionKey = 0 ∧ (ctx.spec.isT2 = true → kc.txOrigin ≠ 0 ∧ kc.txOrigin = sender) := by
  unfold ensureAdminCaller ensureAccountCaller
  by_cases hk : kc.transactionKey = 0
  · rw [if_pos hk, pure_eq, bind_value, reject_ok]
    grind
  · simp only [hk, Bool.false_eq_true, if_false, throw_eq, bind_fail, reduceCtorEq,
      false_and]

/-- The gate answers before anything else is looked at. -/
theorem ensureAdminCaller_of_session (h : kc.transactionKey ≠ 0) (ctx : StorageCtx)
    (sender : Address) :
    kc.ensureAdminCaller ctx sender = .error (.accountKeychain unauthorizedCaller) := by
  simp only [ensureAdminCaller, ensureAccountCaller, if_neg h, Bool.false_eq_true, if_false,
    throw_eq, bind_fail]

theorem t3SpendingLimitCap_ok : t3SpendingLimitCap limit = .ok m ↔ limit.toNat = m.toNat := by
  simp only [t3SpendingLimitCap, bind_ok, reject_ok, pure_eq, exists_const, Except.ok.injEq,
    toNat_maxWord]
  constructor
  · rintro ⟨hle, rfl⟩
    rw [BitVec.toNat_setWidth, Nat.mod_eq_of_lt (by omega)]
  · intro h
    have hm := m.isLt
    refine ⟨by omega, BitVec.eq_of_toNat_eq ?_⟩
    rw [BitVec.toNat_setWidth, h, Nat.mod_eq_of_lt hm]

/-- Everything but the rows of spending limits. -/
def SameButRows (kc kc' : AccountKeychain) : Prop :=
  kc'.keys = kc.keys ∧ kc'.keyScopes = kc.keyScopes ∧
    kc'.transactionKey = kc.transactionKey ∧ kc'.txOrigin = kc.txOrigin

/-- A row as an authorization or an update configures it. -/
def Configured (row : SpendingLimitState) : Prop := row.remaining.toNat = row.max.toNat

theorem applyLimit_ok (h : kc.applyLimit (launchCtx ts) l limit = .ok kc') :
    ∃ row, Configured row ∧ kc' = kc.setRow l limit.token row := by
  simp only [applyLimit, launchCtx_isT3, if_true, bind_ok, pure_eq, Except.ok.injEq] at h
  obtain ⟨m, hm, rfl⟩ := h
  exact ⟨_, t3SpendingLimitCap_ok.mp hm, rfl⟩

theorem applyLimits_ok (h : limits.foldlM (applyLimit (launchCtx ts) l) kc = .ok kc') :
    SameButRows kc kc' ∧ ∀ l' t, kc'.spendingLimits l' t = kc.spendingLimits l' t ∨
      (l' = l ∧ Configured (kc'.spendingLimits l' t)) := by
  refine foldlM_invariant (P := fun s => SameButRows kc s ∧ ∀ l' t,
    s.spendingLimits l' t = kc.spendingLimits l' t ∨
      (l' = l ∧ Configured (s.spendingLimits l' t))) ?_ ?_ h
  · rintro s limit s' _ ⟨hsame, hrows⟩ hs
    obtain ⟨row, hrow, rfl⟩ := applyLimit_ok hs
    refine ⟨hsame, fun l' t => ?_⟩
    rw [spendingLimits_setRow]
    split
    · rename_i hl
      exact Or.inr ⟨hl.1, hrow⟩
    · exact hrows l' t
  · exact ⟨⟨rfl, rfl, rfl, rfl⟩, fun _ _ => Or.inl rfl⟩

theorem keys_emitWitness (kc : AccountKeychain) (a : Address) (w : Option B256) :
    (kc.emitWitness a w).keys = kc.keys ∧ (kc.emitWitness a w).keyScopes = kc.keyScopes ∧
      (kc.emitWitness a w).spendingLimits = kc.spendingLimits ∧
      (kc.emitWitness a w).transactionKey = kc.transactionKey ∧
      (kc.emitWitness a w).txOrigin = kc.txOrigin := by
  cases w <;> exact ⟨rfl, rfl, rfl, rfl, rfl⟩

/-- The record an authorization writes. -/
def newKey (code : U8) (config : KeyRestrictions) : AuthorizedKey :=
  { signatureType := code, expiry := config.expiry, enforceLimits := config.enforceLimits,
    isRevoked := false }

def scopesOf (config : KeyRestrictions) : Option (List CallScope) :=
  if config.allowAnyCalls then none else some config.allowedCalls

theorem allowedCallConfigs_ok (h : allowedCallConfigs (launchCtx ts) config = .ok o) :
    o = scopesOf config := by
  simp only [allowedCallConfigs, launchCtx_isT3, if_true, bind_ok, pure_eq, Except.ok.injEq] at h
  obtain ⟨_, _, rfl⟩ := h
  rfl

theorem applyKeyAuthorizationRestrictions_ok
    (h : kc.applyKeyAuthorizationRestrictions (launchCtx ts) account keyId limits calls = .ok kc') :
    ∃ scope, (kc.keyScopes (spendingLimitKey account keyId)).replaceAllowedCalls
        (launchCtx ts) calls = .ok scope ∧
      kc'.keys = kc.keys ∧ kc'.transactionKey = kc.transactionKey ∧
      kc'.txOrigin = kc.txOrigin ∧
      kc'.keyScopes = (kc.setScope (spendingLimitKey account keyId) scope).keyScopes ∧
      ∀ l t, kc'.spendingLimits l t = kc.spendingLimits l t ∨
        (l = spendingLimitKey account keyId ∧ Configured (kc'.spendingLimits l t)) := by
  simp only [applyKeyAuthorizationRestrictions, launchCtx_isT3, Bool.true_eq_false, if_false,
    bind_ok, pure_eq, Except.ok.injEq] at h
  obtain ⟨mid, hmid, scope, hscope, rfl⟩ := h
  obtain ⟨⟨hkeys, hscopes, htk, hto⟩, hrows⟩ := applyLimits_ok hmid
  rw [hscopes] at hscope
  refine ⟨scope, hscope, hkeys, htk, hto, ?_, hrows⟩
  simp [setScope, hscopes]

theorem authorizeKey_ok
    (h : kc.authorizeKey (launchCtx ts) sender keyId signatureType config witness = .ok kc') :
    kc.transactionKey = 0 ∧ keyId ≠ 0 ∧ (launchCtx ts).now.toNat < config.expiry.toNat ∧
    (kc.keys sender keyId).expiry = 0 ∧ (kc.keys sender keyId).isRevoked = false ∧
    ∃ code scope, (kc.keyScopes (spendingLimitKey sender keyId)).replaceAllowedCalls
        (launchCtx ts) (scopesOf config) = .ok scope ∧
      kc'.keys = (kc.setKey sender keyId (newKey code config)).keys ∧
      kc'.transactionKey = kc.transactionKey ∧ kc'.txOrigin = kc.txOrigin ∧
      kc'.keyScopes = (kc.setScope (spendingLimitKey sender keyId) scope).keyScopes ∧
      ∀ l t, kc'.spendingLimits l t = kc.spendingLimits l t ∨
        (l = spendingLimitKey sender keyId ∧ Configured (kc'.spendingLimits l t)) := by
  simp only [authorizeKey, bind_ok, reject_ok, launchCtx_isT0, true_and, pure_eq,
    Except.ok.injEq] at h
  obtain ⟨_, hadmin, _, hzero, _, hexp, _, hold, _, hrev, code, _, calls, hcalls, _, _, mid, hmid,
    rfl⟩ := h
  rw [allowedCallConfigs_ok hcalls] at hmid
  obtain ⟨scope, hscope, hkeys, htk, hto, hscopes, hrows⟩ :=
    applyKeyAuthorizationRestrictions_ok hmid
  obtain ⟨ek, es, er, et, eo⟩ := keys_emitWitness mid sender witness
  refine ⟨(ensureAdminCaller_ok.mp hadmin).1, hzero, by omega, ?_, by simpa using hrev, code,
    scope, hscope, ?_, ?_, ?_, ?_, ?_⟩
  · exact BitVec.eq_of_toNat_eq (by simp; omega)
  · rw [keys_emitEvent, ek, hkeys]
    rfl
  · rw [transactionKey_emitEvent, et, htk]
    rfl
  · rw [txOrigin_emitEvent, eo, hto]
    rfl
  · rw [keyScopes_emitEvent, es, hscopes]
    rfl
  · rw [spendingLimits_emitEvent, er]
    exact hrows

theorem revokeKey_ok (h : kc.revokeKey ctx sender keyId = .ok kc') :
    kc.transactionKey = 0 ∧ (kc.keys sender keyId).expiry ≠ 0 ∧
      kc' = (kc.setKey sender keyId { isRevoked := true }).emitEvent
        (.keyRevoked sender keyId) := by
  simp only [revokeKey, bind_ok, reject_ok, pure_eq, Except.ok.injEq] at h
  obtain ⟨_, hadmin, _, hexp, rfl⟩ := h
  exact ⟨(ensureAdminCaller_ok.mp hadmin).1, hexp, rfl⟩

/-- The key record an update leaves: the same with limits enforced. -/
theorem updateSpendingLimit_ok
    (h : kc.updateSpendingLimit (launchCtx ts) sender keyId token newLimit = .ok kc') :
    kc.transactionKey = 0 ∧ (kc.keys sender keyId).Active (launchCtx ts).now ∧
    kc'.keys = (kc.setKey sender keyId
      { kc.keys sender keyId with enforceLimits := true }).keys ∧
    kc'.keyScopes = kc.keyScopes ∧
    kc'.transactionKey = kc.transactionKey ∧ kc'.txOrigin = kc.txOrigin ∧
    ∃ row, Configured row ∧ row.remaining = newLimit ∧
      kc'.spendingLimits =
        (kc.setRow (spendingLimitKey sender keyId) token row).spendingLimits := by
  simp only [updateSpendingLimit, bind_ok, loadActiveKey_ok, launchCtx_isT3, if_true, pure_eq,
    Except.ok.injEq] at h
  obtain ⟨_, hadmin, key, ⟨hactive, rfl⟩, m, hm, rfl⟩ := h
  refine ⟨(ensureAdminCaller_ok.mp hadmin).1, hactive, ?_, ?_, ?_, ?_, ?_⟩
  · cases he : (kc.keys sender keyId).enforceLimits with
    | false => simp
    | true =>
      -- The record is not written, so it has to be the one that would be.
      have hsame : { kc.keys sender keyId with enforceLimits := true } = kc.keys sender keyId := by
        rw [← he]
      funext a k
      simp only [if_true, keys_emitEvent, keys_setRow, hsame, keys_setKey]
      split
      · rename_i hak
        rw [hak.1, hak.2]
      · rfl
  all_goals cases he : (kc.keys sender keyId).enforceLimits <;> simp
  all_goals exact ⟨_, t3SpendingLimitCap_ok.mp hm, rfl, rfl⟩

theorem setAllowedCalls_ok (h : kc.setAllowedCalls (launchCtx ts) sender keyId scopes = .ok kc') :
    kc.transactionKey = 0 ∧ (kc.keys sender keyId).Active (launchCtx ts).now ∧ scopes ≠ [] ∧
    validateCallScopes (launchCtx ts) [] scopes = .ok () ∧
    ∃ scope, scopes.foldlM (KeyScope.upsertTargetScope (launchCtx ts))
        (kc.keyScopes (spendingLimitKey sender keyId)) = .ok scope ∧
      kc' = kc.setScope (spendingLimitKey sender keyId) { scope with isScoped := true } := by
  simp only [setAllowedCalls, bind_ok, reject_ok, loadActiveKey_ok, pure_eq,
    Except.ok.injEq] at h
  obtain ⟨_, _, _, hadmin, _, ⟨hactive, _⟩, _, hne, _, hvalid, scope, hscope, rfl⟩ := h
  exact ⟨(ensureAdminCaller_ok.mp hadmin).1, hactive, by simpa using hne, hvalid, scope, hscope,
    rfl⟩

theorem removeAllowedCalls_ok (h : kc.removeAllowedCalls ctx sender keyId target = .ok kc') :
    kc.transactionKey = 0 ∧ (kc.keys sender keyId).Active ctx.now ∧
    (((kc.keyScopes (spendingLimitKey sender keyId)).isScoped = false ∧ kc' = kc) ∨
     ((kc.keyScopes (spendingLimitKey sender keyId)).isScoped = true ∧
      kc' = kc.setScope (spendingLimitKey sender keyId)
        ((kc.keyScopes (spendingLimitKey sender keyId)).removeTargetScope target))) := by
  simp only [removeAllowedCalls, bind_ok, loadActiveKey_ok, pure_eq] at h
  obtain ⟨_, hadmin, _, ⟨hactive, _⟩, h⟩ := h
  refine ⟨(ensureAdminCaller_ok.mp hadmin).1, hactive, ?_⟩
  split at h
  · rename_i hs
    cases h
    exact Or.inl ⟨hs, rfl⟩
  · rename_i hs
    cases h
    exact Or.inr ⟨by simpa using hs, rfl⟩

theorem burnKeyAuthorizationWitness_ok
    (h : kc.burnKeyAuthorizationWitness ctx sender witness = .ok kc') :
    kc' = (kc.setWitness sender witness).emitEvent
      (.keyAuthorizationWitnessBurned sender witness) := by
  simp only [burnKeyAuthorizationWitness, bind_ok, pure_eq, Except.ok.injEq] at h
  obtain ⟨_, _, _, _, rfl⟩ := h
  rfl

theorem verifyAndUpdateSpending_enforced (amount : U256) (hk : keyId ≠ 0)
    (ha : (kc.keys account keyId).Active (launchCtx ts).now)
    (he : (kc.keys account keyId).enforceLimits = true) :
    let row := kc.spendingLimits (spendingLimitKey account keyId) token
    kc.verifyAndUpdateSpending (launchCtx ts) account keyId token amount =
      if (row.rollover (launchCtx ts).now).remaining.toNat < amount.toNat
      then .error (.accountKeychain spendingLimitExceeded)
      else .ok ((kc.setRow (spendingLimitKey account keyId) token
        (row.spend (launchCtx ts).now amount)).emitEvent (.accessKeySpend account keyId token
          amount (row.spend (launchCtx ts).now amount).remaining)) := by
  unfold verifyAndUpdateSpending
  rw [if_neg hk, loadActiveKey_of_active ha, bind_value, he]
  simp only [Bool.true_eq_false, if_false, launchCtx_isT3, reject]
  split <;> rfl

theorem verifyAndUpdateSpending_unlimited (token : Address) (amount : U256)
    (ha : (kc.keys account keyId).Active ctx.now)
    (he : (kc.keys account keyId).enforceLimits = false) :
    kc.verifyAndUpdateSpending ctx account keyId token amount = .ok kc := by
  unfold verifyAndUpdateSpending
  split
  · rfl
  · rw [loadActiveKey_of_active ha, bind_value, he]
    rfl

theorem verifyAndUpdateSpending_ok
    (h : kc.verifyAndUpdateSpending (launchCtx ts) account keyId token amount = .ok kc') :
    (kc' = kc ∧ (keyId = 0 ∨ (kc.keys account keyId).enforceLimits = false)) ∨
    (keyId ≠ 0 ∧ (kc.keys account keyId).Active (launchCtx ts).now ∧
      (kc.keys account keyId).enforceLimits = true ∧
      ∃ row, row = kc.spendingLimits (spendingLimitKey account keyId) token ∧
        amount.toNat ≤ (row.rollover (launchCtx ts).now).remaining.toNat ∧
        kc' = (kc.setRow (spendingLimitKey account keyId) token
          (row.spend (launchCtx ts).now amount)).emitEvent (.accessKeySpend account keyId token
            amount (row.spend (launchCtx ts).now amount).remaining)) := by
  by_cases hk : keyId = 0
  · simp only [verifyAndUpdateSpending, if_pos hk, pure_eq, Except.ok.injEq] at h
    exact Or.inl ⟨h.symm, Or.inl hk⟩
  · by_cases ha : (kc.keys account keyId).Active (launchCtx ts).now
    · cases he : (kc.keys account keyId).enforceLimits with
      | false =>
        rw [verifyAndUpdateSpending_unlimited token amount ha he] at h
        exact Or.inl ⟨(Except.ok.inj h).symm, Or.inr rfl⟩
      | true =>
        rw [verifyAndUpdateSpending_enforced amount hk ha he] at h
        split at h
        · cases h
        · rename_i hle
          exact Or.inr ⟨hk, ha, rfl, _, rfl, by omega, (Except.ok.inj h).symm⟩
    · simp only [verifyAndUpdateSpending, if_neg hk, bind_ok, loadActiveKey_ok] at h
      obtain ⟨_, ⟨hactive, _⟩, _⟩ := h
      exact absurd hactive ha

/-- When a refund writes: under a session key that is active for the origin
itself and has limits. -/
def Refundable (kc : AccountKeychain) (now : U64) (account : Address) : Prop :=
  kc.transactionKey ≠ 0 ∧ account = kc.txOrigin ∧
    (kc.keys account kc.transactionKey).Active now ∧
    (kc.keys account kc.transactionKey).enforceLimits = true

instance (kc : AccountKeychain) (now : U64) (account : Address) :
    Decidable (kc.Refundable now account) := inferInstanceAs (Decidable (_ ∧ _ ∧ _ ∧ _))

theorem refundSpendingLimit_eq (ts : U256) (kc : AccountKeychain) (account token : Address)
    (amount : U256) :
    let l := spendingLimitKey account kc.transactionKey
    let row := kc.spendingLimits l token
    kc.refundSpendingLimit (launchCtx ts) account token amount =
      .ok (if kc.Refundable (launchCtx ts).now account
        then kc.setRow l token { row with remaining := row.refunded amount } else kc) := by
  intro l row
  unfold refundSpendingLimit
  by_cases hk : kc.transactionKey = 0
  · have hno : ¬kc.Refundable (launchCtx ts).now account := fun h => h.1 hk
    rw [if_pos hk, if_neg hno]
    rfl
  by_cases ho : account = kc.txOrigin
  · rw [if_neg hk, if_neg (not_not.mpr ho)]
    cases h : kc.loadActiveKey account kc.transactionKey (launchCtx ts).now with
    | error e =>
      obtain ⟨hn, he⟩ := loadActiveKey_error h
      have hno : ¬kc.Refundable (launchCtx ts).now account := fun h => hn h.2.2.1
      simp [he, if_neg hno]
    | ok key =>
      obtain ⟨ha, rfl⟩ := loadActiveKey_ok.mp h
      cases he : (kc.keys account kc.transactionKey).enforceLimits with
      | false =>
        have hno : ¬kc.Refundable (launchCtx ts).now account := by
          rintro ⟨_, _, _, henforced⟩
          simp [he] at henforced
        simp [he, if_neg hno]
      | true =>
        have hyes : kc.Refundable (launchCtx ts).now account := ⟨hk, ho, ha, he⟩
        simp only [he, Bool.true_eq_false, if_false, launchCtx_isT3, if_true, pure_eq,
          if_pos hyes]
        rfl
  · have hno : ¬kc.Refundable (launchCtx ts).now account := fun h => ho h.2.1
    rw [if_neg hk, if_pos ho, if_neg hno]
    rfl

/-- The two guarded entry points do nothing or are a plain spend. -/
theorem authorizeTransfer_cases (ctx : StorageCtx) (kc : AccountKeychain)
    (account token : Address) (amount : U256) :
    kc.authorizeTransfer ctx account token amount = .ok kc ∨
    kc.authorizeTransfer ctx account token amount =
      kc.verifyAndUpdateSpending ctx account kc.transactionKey token amount := by
  unfold authorizeTransfer
  split
  · exact Or.inl rfl
  · split
    · exact Or.inl rfl
    · exact Or.inr rfl

theorem authorizeApprove_cases (ctx : StorageCtx) (kc : AccountKeychain)
    (account token : Address) (oldApproval newApproval : U256) :
    kc.authorizeApprove ctx account token oldApproval newApproval = .ok kc ∨
    kc.authorizeApprove ctx account token oldApproval newApproval =
      kc.verifyAndUpdateSpending ctx account kc.transactionKey token
        (satSub newApproval oldApproval) := by
  unfold authorizeApprove
  split
  · exact Or.inl rfl
  · split
    · exact Or.inl rfl
    · simp only
      split
      · exact Or.inl rfl
      · exact Or.inr rfl

end AccountKeychain

/-- An operation that spends from a limit either changes nothing or is one
`verifyAndUpdateSpending`. -/
theorem KeychainOp.spend_cases {op : KeychainOp}
    (hop : (∃ a k t n, op = .verifyAndUpdateSpending a k t n) ∨
      (∃ a t n, op = .authorizeTransfer a t n) ∨ ∃ a t n m, op = .authorizeApprove a t n m)
    (h : op.apply ctx kc = .ok kc') :
    kc' = kc ∨ ∃ account keyId token amount,
      kc.verifyAndUpdateSpending ctx account keyId token amount = .ok kc' := by
  rcases hop with ⟨a, k, t, n, rfl⟩ | ⟨a, t, n, rfl⟩ | ⟨a, t, n, m, rfl⟩
  · exact Or.inr ⟨a, k, t, n, h⟩
  · rcases AccountKeychain.authorizeTransfer_cases ctx kc a t n with he | he
    · exact Or.inl (Except.ok.inj (h.symm.trans he))
    · exact Or.inr ⟨_, _, _, _, he.symm.trans h⟩
  · rcases AccountKeychain.authorizeApprove_cases ctx kc a t n m with he | he
    · exact Or.inl (Except.ok.inj (h.symm.trans he))
    · exact Or.inr ⟨_, _, _, _, he.symm.trans h⟩

end SciChain
