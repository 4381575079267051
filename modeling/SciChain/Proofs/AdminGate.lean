import SciChain.Proofs.KeychainSteps

namespace SciChain
open Library AccountKeychain

/-- The calls that administer keys; the legacy `authorizeKey` is one only until
it is refused from T3 on. -/
def KeychainCall.isAdmin : KeychainCall → Bool
  | .authorizeKey1 .. | .authorizeKey2 .. | .revokeKey .. | .updateSpendingLimit .. |
    .setAllowedCalls .. | .removeAllowedCalls .. => true
  | _ => false

/-- The operations the precompile can perform for a caller. -/
inductive Dispatches (caller : Address) : KeychainOp → Prop
  | authorizeKey {keyId signatureType config witness} :
      Dispatches caller (.authorizeKey caller keyId signatureType config witness)
  | burn {witness} : Dispatches caller (.burnKeyAuthorizationWitness caller witness)
  | revokeKey {keyId} : Dispatches caller (.revokeKey caller keyId)
  | updateSpendingLimit {keyId token newLimit} :
      Dispatches caller (.updateSpendingLimit caller keyId token newLimit)
  | setAllowedCalls {keyId scopes} : Dispatches caller (.setAllowedCalls caller keyId scopes)
  | removeAllowedCalls {keyId target} :
      Dispatches caller (.removeAllowedCalls caller keyId target)

/-- A call leaves the keychain alone or performs one operation of its caller. -/
def CallEffect (ctx : StorageCtx) (caller : Address) (kc kc' : AccountKeychain) : Prop :=
  kc' = kc ∨ ∃ op, Dispatches caller op ∧ op.apply ctx kc = .ok kc'

namespace AccountKeychain

theorem snd_view (input : PrecompileInput) (kc : AccountKeychain) (data : ReturnData) :
    (kc.view input data).2 = kc := by
  unfold view
  split <;> rfl

theorem mutateVoid_effect (hop : Dispatches input.caller op) :
    CallEffect ctx input.caller kc (kc.mutateVoid input (op.apply ctx kc)).2 := by
  unfold mutateVoid
  split
  · exact Or.inl rfl
  · split
    · cases h : op.apply ctx kc with
      | ok kc' => exact Or.inr ⟨op, hop, h⟩
      | error e => exact Or.inl rfl
    · exact Or.inl rfl

theorem dispatch_effect (ctx : StorageCtx) (input : PrecompileInput) (kc : AccountKeychain)
    (call : KeychainCall) : CallEffect ctx input.caller kc (kc.dispatch ctx input call).2 := by
  cases call with
  | authorizeKey0 keyId signatureType expiry enforceLimits limits =>
    simp only [dispatch]
    split
    · exact Or.inl rfl
    · exact mutateVoid_effect .authorizeKey
  | authorizeKey1 keyId signatureType config => exact mutateVoid_effect .authorizeKey
  | authorizeKey2 keyId signatureType config witness => exact mutateVoid_effect .authorizeKey
  | burnKeyAuthorizationWitness witness => exact mutateVoid_effect .burn
  | revokeKey keyId => exact mutateVoid_effect .revokeKey
  | updateSpendingLimit keyId token newLimit => exact mutateVoid_effect .updateSpendingLimit
  | setAllowedCalls keyId scopes => exact mutateVoid_effect .setAllowedCalls
  | removeAllowedCalls keyId target => exact mutateVoid_effect .removeAllowedCalls
  | getKey | getRemainingLimit | getRemainingLimitWithPeriod | getAllowedCalls
  | isKeyAuthorizationWitnessBurned | getTransactionKey => exact Or.inl (snd_view input kc _)

/-- Whatever the calldata, a call performs at most one operation of its caller. -/
theorem call_effect (decode : Bytes → Except AbiError KeychainCall) (ctx : StorageCtx)
    (input : PrecompileInput) (kc : AccountKeychain) :
    CallEffect ctx input.caller kc (kc.call decode ctx input).2 := by
  unfold call
  split
  · exact Or.inl rfl
  split
  · exact Or.inl rfl
  split
  · split <;> exact Or.inl rfl
  simp only
  split
  · exact Or.inl rfl
  split
  · exact dispatch_effect ctx input kc _
  · exact Or.inl rfl
  · exact Or.inl rfl

/-- The call reaches the body of the function it decodes to. -/
structure Reaches (ctx : StorageCtx) (input : PrecompileInput) : Prop where
  direct : input.isDirectCall = true
  paid : inputCost input.data.length ≤ input.gas.toNat
  selector : 4 ≤ input.data.length
  scheduled : keychainSchedules.any (·.rejects (selectorOf input.data) ctx.spec) = false
  mutable : input.isStatic = false
  storage : input.storageGas = true

theorem call_of_reaches {decode : Bytes → Except AbiError KeychainCall} {call : KeychainCall}
    (kc : AccountKeychain)
    (hr : Reaches ctx input) (hd : decode input.data = .ok call) :
    kc.call decode ctx input = kc.dispatch ctx input call := by
  have hgas : ¬input.gas.toNat < inputCost input.data.length := Nat.not_lt.mpr hr.paid
  have hlen : ¬input.data.length < 4 := Nat.not_lt.mpr hr.selector
  simp [AccountKeychain.call, hr.direct, hgas, hlen, hr.scheduled, hd]

theorem mutateVoid_error {kc : AccountKeychain}
    (hr : Reaches ctx input) : kc.mutateVoid input (.error e) = (e.toOutput, kc) := by
  simp only [mutateVoid, hr.mutable, hr.storage, Bool.false_eq_true, if_false, if_true]
  rfl

end AccountKeychain

/-- Under a session key every administrative operation fails at its gate; only
`setAllowedCalls` has an earlier check, of the hardfork. -/
theorem apply_session (ctx : StorageCtx) {op : KeychainOp}
    (hop : op.administrator = some sender) (hkey : kc.transactionKey ≠ 0) :
    ∃ e, op.apply ctx kc = .error e ∧
      (ctx.spec.isT3 = true → e = .accountKeychain .unauthorizedCaller) := by
  have hgate := ensureAdminCaller_of_session hkey ctx
  cases op <;> simp only [KeychainOp.administrator, reduceCtorEq, Option.some.injEq] at hop
  case authorizeKey =>
    exact ⟨_, by simp only [KeychainOp.apply, authorizeKey, hgate, bind_fail], fun _ => rfl⟩
  case revokeKey =>
    exact ⟨_, by simp only [KeychainOp.apply, revokeKey, hgate, bind_fail], fun _ => rfl⟩
  case updateSpendingLimit =>
    exact ⟨_, by simp [KeychainOp.apply, updateSpendingLimit, hgate],
      fun _ => rfl⟩
  case setAllowedCalls =>
    by_cases ht : ctx.spec.isT3 = false
    · refine ⟨.accountKeychain .invalidCallScope, ?_, fun h => ?_⟩
      · simp [KeychainOp.apply, setAllowedCalls, reject_pos ht]
      · simp [ht] at h
    · exact ⟨_, by simp only [KeychainOp.apply, setAllowedCalls, reject_neg ht, bind_value, hgate,
        bind_fail], fun _ => rfl⟩
  case removeAllowedCalls =>
    exact ⟨_, by simp [KeychainOp.apply, removeAllowedCalls, hgate],
      fun _ => rfl⟩

/-- The state a session key must not touch, and the mark that it is one. -/
def SameAdminState (kc kc' : AccountKeychain) : Prop :=
  kc'.keys = kc.keys ∧ kc'.spendingLimits = kc.spendingLimits ∧ kc'.keyScopes = kc.keyScopes ∧
    kc'.transactionKey = kc.transactionKey

theorem SameAdminState.refl (kc : AccountKeychain) : SameAdminState kc kc := ⟨rfl, rfl, rfl, rfl⟩

theorem SameAdminState.trans (h : SameAdminState a b) (h' : SameAdminState b c) :
    SameAdminState a c :=
  ⟨h'.1.trans h.1, h'.2.1.trans h.2.1, h'.2.2.1.trans h.2.2.1, h'.2.2.2.trans h.2.2.2⟩

/-- Burning a witness is the one operation a session key gets through, and it
writes elsewhere. -/
theorem CallEffect.session {kc : AccountKeychain} (h : CallEffect ctx caller kc kc')
    (hkey : kc.transactionKey ≠ 0) : SameAdminState kc kc' := by
  rcases h with rfl | ⟨op, hop, hok⟩
  · exact .refl _
  · cases hadmin : op.administrator with
    | some sender =>
      obtain ⟨e, he, _⟩ := apply_session ctx hadmin hkey
      rw [he] at hok
      cases hok
    | none =>
      cases hop with
      | burn =>
        obtain rfl := burnKeyAuthorizationWitness_ok hok
        exact ⟨rfl, rfl, rfl, rfl⟩
      | authorizeKey | revokeKey | updateSpendingLimit | setAllowedCalls | removeAllowedCalls =>
        cases hadmin

theorem callAll_session (decode : Bytes → Except AbiError KeychainCall)
    (hkey : kc.transactionKey ≠ 0) (calls : List (StorageCtx × PrecompileInput)) :
    SameAdminState kc (callAll decode kc calls) := by
  induction calls generalizing kc with
  | nil => exact .refl kc
  | cons call calls ih =>
    have hfirst := (call_effect decode call.1 call.2 kc).session hkey
    have hkey' : (kc.call decode call.1 call.2).2.transactionKey ≠ 0 := by rwa [hfirst.2.2.2]
    exact hfirst.trans (ih hkey')

theorem dispatch_admin_session {ctx : StorageCtx} {kc : AccountKeychain} {call : KeychainCall}
    (hadmin : call.isAdmin = true) (hr : Reaches ctx input) (ht : ctx.spec.isT3 = true)
    (hkey : kc.transactionKey ≠ 0) :
    kc.dispatch ctx input call = (.revert (.error (.accountKeychain .unauthorizedCaller)), kc) := by
  have hfail : ∀ op : KeychainOp, op.administrator = some input.caller →
      kc.mutateVoid input (op.apply ctx kc) =
        (.revert (.error (.accountKeychain .unauthorizedCaller)), kc) := by
    intro op hop
    obtain ⟨e, he, hunauthorized⟩ := apply_session ctx hop hkey
    rw [he, hunauthorized ht]
    exact mutateVoid_error hr
  cases call <;> simp only [KeychainCall.isAdmin, Bool.false_eq_true] at hadmin
  case authorizeKey1 keyId signatureType config =>
    exact hfail (.authorizeKey input.caller keyId signatureType config none) rfl
  case authorizeKey2 keyId signatureType config witness =>
    exact hfail (.authorizeKey input.caller keyId signatureType config (some witness)) rfl
  case revokeKey keyId => exact hfail (.revokeKey input.caller keyId) rfl
  case updateSpendingLimit keyId token newLimit =>
    exact hfail (.updateSpendingLimit input.caller keyId token newLimit) rfl
  case setAllowedCalls keyId scopes => exact hfail (.setAllowedCalls input.caller keyId scopes) rfl
  case removeAllowedCalls keyId target =>
    exact hfail (.removeAllowedCalls input.caller keyId target) rfl

/-- While the transaction key is a session key, no sequence of precompile calls
changes keys, limits or scopes, and each administrative call that reaches its
body is refused as unauthorized. -/
theorem session_calls_keep_admin_state (decode : Bytes → Except AbiError KeychainCall)
    (kc : AccountKeychain) (hkey : kc.transactionKey ≠ 0)
    (calls : List (StorageCtx × PrecompileInput)) :
    ((callAll decode kc calls).keys = kc.keys ∧
      (callAll decode kc calls).spendingLimits = kc.spendingLimits ∧
      (callAll decode kc calls).keyScopes = kc.keyScopes) ∧
    ∀ before ctx input after call, calls = before ++ (ctx, input) :: after →
      decode input.data = .ok call → call.isAdmin = true → Reaches ctx input →
      ctx.spec.isT3 = true →
      ((callAll decode kc before).call decode ctx input).1 =
        .revert (.error (.accountKeychain .unauthorizedCaller)) := by
  obtain ⟨hk, hr, hs, _⟩ := callAll_session decode hkey calls
  refine ⟨⟨hk, hr, hs⟩, ?_⟩
  intro before ctx input after call _ hd hadmin hreach ht
  obtain ⟨_, _, _, hkey'⟩ := callAll_session decode hkey before
  rw [call_of_reaches _ hreach hd, dispatch_admin_session hadmin hreach ht (by rwa [hkey'])]

/-- A session key asking to revoke itself. -/
def selfRevocation : PrecompileInput :=
  { data := [0x5a, 0xe7, 0xab, 0x32], caller := 1, gas := 100000, isDirectCall := true,
    isStatic := false, storageGas := true }

theorem session_calls_keep_admin_state_self_revocation :
    (AccountKeychain.call (fun _ => .ok (.revokeKey 2)) (launchCtx 100) selfRevocation
      (AccountKeychain.empty.setTransactionKey 2)).1 =
        .revert (.error (.accountKeychain .unauthorizedCaller)) :=
  (session_calls_keep_admin_state (fun _ => .ok (.revokeKey 2))
    (AccountKeychain.empty.setTransactionKey 2) (by decide)
    [(launchCtx 100, selfRevocation)]).2 [] (launchCtx 100) selfRevocation [] (.revokeKey 2)
    rfl rfl rfl ⟨rfl, by decide, by decide, by decide, rfl, rfl⟩ rfl

end SciChain
