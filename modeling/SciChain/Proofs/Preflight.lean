import SciChain.Handler.Hook
import SciChain.Proofs.Lifecycle
import SciChain.Proofs.SpendingCap

namespace SciChain
open Library AccountKeychain SpendingLimitState

section Reachability

/-- The keychains that can be reached at launch. The node never calls the
refund; here it may be called with anything, short of lifting a row over its
maximum. -/
def KeychainReachable (kc : AccountKeychain) : Prop :=
  Reachable KeychainStep.apply (fun step s => ¬UnclampedRefund step s) .empty kc

theorem KeychainReachable.of_run (steps : List KeychainStep)
    (h : ∀ step ∈ steps, step.op.isRefund = false) :
    KeychainReachable (run KeychainStep.apply .empty steps) := by
  refine Reachable.run .start (fun step hstep s => ?_)
  rintro ⟨_, _, _, he, _⟩
  have hop := h step hstep
  rw [he] at hop
  cases hop

theorem KeychainReachable.rowsBounded (h : KeychainReachable kc) : RowsBounded kc :=
  Reachable.invariant h rowsBounded_empty (fun _ _ _ hstep hs hok => hs.step hstep hok)

/-- No account ever has a key under the zero id, which stands for the main key. -/
theorem KeychainReachable.zero_absent (h : KeychainReachable kc) (account : Address) :
    (kc.keys account 0).expiry = 0 := by
  let P := fun s : AccountKeychain => (s.keys account 0).expiry = 0
  refine Reachable.invariant (P := P) h rfl (fun step s s' _ hs hok => ?_)
  rcases KeychainStep.keys_step hok account 0 with he | ⟨_, _, hz⟩
  · show (s'.keys account 0).expiry = 0
    rw [he]
    exact hs
  · exact absurd hs (hz rfl)

end Reachability

namespace SpendingLimitState

theorem not_rolls_spend {row : SpendingLimitState} (amount : U256)
    (hnow : now.toNat < 2 ^ 64 - 1) : ¬(row.spend now amount).Rolls now := by
  rintro ⟨hp, hle⟩
  have hperiod := ((Follows.refl row).spend now amount).period
  rw [hperiod] at hp
  have hlt := lt_periodEnd_spend amount hp hnow
  omega

/-- A second look at the same time sees what the spend left, without another
rollover. -/
theorem remaining_rollover_spend {row : SpendingLimitState} (hnow : now.toNat < 2 ^ 64 - 1)
    (h : amount.toNat ≤ (row.rollover now).remaining.toNat) :
    ((row.spend now amount).rollover now).remaining.toNat =
      (row.rollover now).remaining.toNat - amount.toNat := by
  rw [rollover_of_not_rolls (not_rolls_spend amount hnow), toNat_remaining_spend h]

end SpendingLimitState

section Spending

variable {ts : U256} {root sessionKey : Address}

/-- What the key may still spend of a token at this time. -/
def available (ts : U256) (root sessionKey : Address) (kc : AccountKeychain) (token : Address) :
    Nat :=
  ((rowOf root sessionKey token kc).rollover (launchCtx ts).now).remaining.toNat

theorem available_lt (hb : RowsBounded kc) (ts : U256) (root sessionKey token : Address) :
    available ts root sessionKey kc token < 2 ^ 128 := by
  have hrow := (hb (spendingLimitKey root sessionKey) token).rollover (launchCtx ts).now
  exact Nat.lt_of_le_of_lt hrow (BitVec.isLt _)

/-- The read-only view agrees with the row a spend would be checked against. -/
theorem toNat_effectiveRemainingLimit (hk : sessionKey ≠ 0)
    (ha : (kc.keys root sessionKey).Active (launchCtx ts).now) (token : Address) :
    (kc.effectiveRemainingLimit (launchCtx ts) root sessionKey token (launchCtx ts).now).toNat =
      available ts root sessionKey kc token := by
  have hzero : ¬(sessionKey = 0 ∧ (launchCtx ts).spec.isT3 = true) := fun h => hk h.1
  have hlive : ¬((kc.keys root sessionKey).isRevoked = true ∨
      (kc.keys root sessionKey).expiry = 0) := by
    rintro (hr | he)
    · simp [ha.1] at hr
    · exact ha.2.1 he
  have hexpired : ¬((kc.keys root sessionKey).expiry.toNat ≤ (launchCtx ts).now.toNat ∧
      (launchCtx ts).spec.isT3 = true) := fun h => Nat.not_le.mpr ha.2.2 h.1
  unfold effectiveRemainingLimit effectiveLimitState available rowOf
  rw [if_neg hzero]
  simp only [if_neg hlive, if_neg hexpired]
  simp only [launchCtx_isT3, Bool.true_eq_false, if_false]
  generalize kc.spendingLimits (spendingLimitKey root sessionKey) token = row
  by_cases hp : row.period = 0
  · have hstay : ¬row.Rolls (launchCtx ts).now := fun h => h.1 hp
    rw [if_pos hp, rollover_of_not_rolls hstay]
  · rw [if_neg hp]
    by_cases hend : (launchCtx ts).now.toNat < row.periodEnd.toNat
    · have hstay : ¬row.Rolls (launchCtx ts).now := fun h => Nat.not_le.mpr hend h.2
      rw [if_pos hend, rollover_of_not_rolls hstay]
    · have hroll : row.Rolls (launchCtx ts).now := ⟨hp, Nat.le_of_not_lt hend⟩
      rw [if_neg hend, rollover_of_rolls hroll]

/-- An active key whose limits are enforced. -/
def Limited (ts : U256) (root sessionKey : Address) (kc : AccountKeychain) : Prop :=
  sessionKey ≠ 0 ∧ (kc.keys root sessionKey).Active (launchCtx ts).now ∧
    (kc.keys root sessionKey).enforceLimits = true

/-- A spend within the available amount succeeds and takes exactly that. -/
theorem verifyAndUpdateSpending_available {kc : AccountKeychain}
    (hl : Limited ts root sessionKey kc) (hnow : (launchCtx ts).now.toNat < 2 ^ 64 - 1)
    (h : amount.toNat ≤ available ts root sessionKey kc token) :
    ∃ kc', kc.verifyAndUpdateSpending (launchCtx ts) root sessionKey token amount = .ok kc' ∧
      Limited ts root sessionKey kc' ∧
      ∀ t, available ts root sessionKey kc' t + (if token = t then amount.toNat else 0) =
        available ts root sessionKey kc t := by
  obtain ⟨hk, ha, he⟩ := hl
  have hle : ¬((rowOf root sessionKey token kc).rollover
      (launchCtx ts).now).remaining.toNat < amount.toNat := Nat.not_lt.mpr h
  refine ⟨_, (verifyAndUpdateSpending_enforced amount hk ha he).trans (if_neg hle), ?_, ?_⟩
  · exact ⟨hk, ha, he⟩
  · intro t
    simp only [available, rowOf, spendingLimits_emitEvent, spendingLimits_setRow, true_and]
    by_cases ht : token = t
    · subst ht
      simp only [available, rowOf] at h
      simp only [if_true]
      rw [remaining_rollover_spend hnow h]
      exact Nat.sub_add_cancel h
    · rw [if_neg (fun he => ht he.symm), if_neg ht, Nat.add_zero]

/-- A list of spends, one after the other. -/
def spendAll (ts : U256) (root sessionKey : Address) (kc : AccountKeychain)
    (spends : List (Address × U256)) : Result AccountKeychain :=
  spends.foldlM (fun kc spend =>
    kc.verifyAndUpdateSpending (launchCtx ts) root sessionKey spend.1 spend.2) kc

/-- Spends whose totals fit all succeed, in any order and with repetitions. -/
theorem spendAll_available (hl : Limited ts root sessionKey kc)
    (hnow : (launchCtx ts).now.toNat < 2 ^ 64 - 1)
    (h : ∀ t, amountOf t spends ≤ available ts root sessionKey kc t) :
    ∃ kc', spendAll ts root sessionKey kc spends = .ok kc' ∧
      Limited ts root sessionKey kc' ∧
      ∀ t, available ts root sessionKey kc' t + amountOf t spends =
        available ts root sessionKey kc t := by
  induction spends generalizing kc with
  | nil => exact ⟨kc, rfl, hl, fun t => rfl⟩
  | cons spend rest ih =>
    have hfirst : spend.2.toNat ≤ available ts root sessionKey kc spend.1 := by
      have hs := h spend.1
      simp only [amountOf_cons, if_true] at hs
      omega
    obtain ⟨mid, hmid, hlm, hav⟩ := verifyAndUpdateSpending_available hl hnow hfirst
    have hrest : ∀ t, amountOf t rest ≤ available ts root sessionKey mid t := by
      intro t
      have ht := h t
      have hm := hav t
      rw [amountOf_cons] at ht
      omega
    obtain ⟨kc', hok, hl', hav'⟩ := ih hlm hrest
    refine ⟨kc', ?_, hl', fun t => ?_⟩
    · simp only [spendAll, List.foldlM_cons, hmid, bind_value]
      exact hok
    · have hm := hav t
      have hr := hav' t
      rw [amountOf_cons]
      omega

theorem spendAll_unlimited (ha : (kc.keys root sessionKey).Active (launchCtx ts).now)
    (he : (kc.keys root sessionKey).enforceLimits = false) (spends : List (Address × U256)) :
    spendAll ts root sessionKey kc spends = .ok kc := by
  induction spends with
  | nil => rfl
  | cons spend rest ih =>
    simp only [spendAll, List.foldlM_cons,
      verifyAndUpdateSpending_unlimited spend.1 spend.2 ha he, bind_value]
    exact ih

end Spending

section Batch

variable {abi : TokenAbi} {ts : U256} {root sessionKey : Address}

variable {kc : AccountKeychain} {calls : List AaCall}

/-- What a call is metered with: its value on the zero address, and the token
amount it is recognized to move. -/
def AaCall.spends (abi : TokenAbi) (root : Address) (call : AaCall) : List (Address × U256) :=
  (0, call.value) :: (call.tokenSpend abi root).toList

/-- The exact total of a token over a batch; gas goes to the zero address. -/
def batchTotal (abi : TokenAbi) (root : Address) (calls : List AaCall) (gas : U256)
    (token : Address) : Nat :=
  (if 0 = token then gas.toNat else 0) + amountOf token (calls.flatMap (AaCall.spends abi root))

theorem toNat_totalOf_record (totals : List (Address × BitVec w)) (k : Address)
    (amount : BitVec w) (t : Address) : (totalOf (record totals k amount) t).toNat =
      min ((totalOf totals t).toNat + (if k = t then amount.toNat else 0)) (2 ^ w - 1) := by
  have h := toNat_totalOf_recordAll totals [(k, amount)] t
  simpa [recordAll] using h

/-- The loop of the hook adds each call to the totals, up to saturation. -/
theorem hookCall_totals {call : AaCall}
    (h : kc.hookCall abi (launchCtx ts) root sessionKey totals call = .ok totals') (t : Address) :
    (totalOf totals' t).toNat =
      min ((totalOf totals t).toNat + amountOf t (call.spends abi root)) (2 ^ 256 - 1) := by
  simp only [hookCall, bind_ok] at h
  obtain ⟨_, _, h⟩ := h
  have hvalue : (totalOf (if call.value = 0 then totals else record totals 0 call.value) t).toNat =
      min ((totalOf totals t).toNat + (if 0 = t then call.value.toNat else 0)) (2 ^ 256 - 1) := by
    split
    · rename_i hz
      rw [hz, show (0 : U256).toNat = 0 from rfl]
      split <;> omega
    · exact toNat_totalOf_record totals 0 call.value t
  cases hs : call.tokenSpend abi root with
  | none =>
    rw [hs] at h
    cases h
    rw [hvalue]
    simp [AaCall.spends, hs]
  | some spend =>
    rw [hs] at h
    cases h
    rw [toNat_totalOf_record, hvalue]
    simp only [AaCall.spends, hs, Option.toList_some, amountOf_cons, amountOf_nil]
    omega

theorem hookCalls_totals
    (h : calls.foldlM (kc.hookCall abi (launchCtx ts) root sessionKey) totals = .ok totals')
    (t : Address) : (totalOf totals' t).toNat =
      min ((totalOf totals t).toNat + amountOf t (calls.flatMap (AaCall.spends abi root)))
        (2 ^ 256 - 1) := by
  induction calls generalizing totals with
  | nil =>
    rw [← Except.ok.inj h, List.flatMap_nil, amountOf_nil]
    omega
  | cons call rest ih =>
    simp only [List.foldlM_cons, bind_ok] at h
    obtain ⟨mid, hmid, hrest⟩ := h
    rw [ih hrest, hookCall_totals hmid t, List.flatMap_cons, amountOf_append]
    omega

/-- The pre-flight bounds the exact totals: the limits lie so far below the
largest word that a saturated total could not have passed. -/
theorem hookChecks_totals (hb : RowsBounded kc) (hk : sessionKey ≠ 0)
    (ha : (kc.keys root sessionKey).Active (launchCtx ts).now)
    (he : (kc.keys root sessionKey).enforceLimits = true)
    (h : hookChecks abi (launchCtx ts) agents kc root sessionKey calls gas = .ok kc')
    (t : Address) : batchTotal abi root calls gas t ≤ available ts root sessionKey kc t := by
  simp only [hookChecks, bind_ok, reject_ok, not_and] at h
  obtain ⟨_, _, totals, htotals, _, hfits, _⟩ := h
  have hsum := hookCalls_totals htotals t
  generalize hall : (if gas = 0 then totals else record totals 0 gas) = all at hfits
  have hexact : (totalOf all t).toNat = min (batchTotal abi root calls gas t) (2 ^ 256 - 1) := by
    rw [← hall]
    unfold batchTotal
    split
    · rename_i hz
      rw [hsum, hz, show (0 : U256).toNat = 0 from rfl]
      simp [totalOf]
    · rw [toNat_totalOf_record, hsum, show (totalOf ([] : List (Address × U256)) t).toNat = 0
        from rfl]
      omega
  have havailable := available_lt hb ts root sessionKey t
  by_cases hz : totalOf all t = 0
  · rw [hz, show (0 : U256).toNat = 0 from rfl] at hexact
    omega
  · have hmem := mem_of_totalOf_ne_zero hz
    have hentry := hfits he
    simp only [List.any_eq_true, decide_eq_true_eq, not_exists, not_and, Nat.not_lt] at hentry
    have hle : (totalOf all t).toNat ≤ available ts root sessionKey kc t := by
      rw [← toNat_effectiveRemainingLimit hk ha t]
      exact hentry _ hmem
    omega

def valueTotal : List AaCall → Nat
  | [] => 0
  | call :: rest => call.value.toNat + valueTotal rest

theorem toNat_foldl_value (calls : List AaCall) (gas : U256) :
    (calls.foldl (fun total call => satAdd total call.value) gas).toNat =
      min (gas.toNat + valueTotal calls) (2 ^ 256 - 1) := by
  induction calls generalizing gas with
  | nil =>
    simp only [List.foldl_nil, valueTotal]
    omega
  | cons call rest ih =>
    rw [List.foldl_cons, ih, toNat_satAdd, valueTotal]
    omega

theorem amountOf_spends (calls : List AaCall) (t : Address) :
    amountOf t (calls.flatMap (AaCall.spends abi root)) =
      (if 0 = t then valueTotal calls else 0) +
        amountOf t (calls.filterMap (AaCall.tokenSpend abi root)) := by
  induction calls with
  | nil => simp [valueTotal]
  | cons call rest ih =>
    rw [List.flatMap_cons, amountOf_append, ih, AaCall.spends, amountOf_cons, valueTotal]
    cases hs : call.tokenSpend abi root with
    | none =>
      rw [List.filterMap_cons_none hs, Option.toList_none, amountOf_nil]
      dsimp only
      split <;> omega
    | some spend =>
      rw [List.filterMap_cons_some hs, Option.toList_some, amountOf_cons, amountOf_cons,
        amountOf_nil]
      dsimp only
      split <;> omega

/-- The spends of the deferred deductions, in their order. -/
def deductSpends (abi : TokenAbi) (root : Address) (calls : List AaCall) (gas : U256) :
    List (Address × U256) :=
  let sentinelTotal := calls.foldl (fun total call => satAdd total call.value) gas
  (if sentinelTotal = 0 then [] else [(0, sentinelTotal)]) ++
    calls.filterMap (AaCall.tokenSpend abi root)

theorem foldlM_deductCall (kc : AccountKeychain) (calls : List AaCall) :
    calls.foldlM (deductCall abi (launchCtx ts) root sessionKey) kc =
      spendAll ts root sessionKey kc (calls.filterMap (AaCall.tokenSpend abi root)) := by
  induction calls generalizing kc with
  | nil => rfl
  | cons call rest ih =>
    rw [List.foldlM_cons, deductCall]
    cases hs : call.tokenSpend abi root with
    | none =>
      rw [List.filterMap_cons_none hs]
      exact ih kc
    | some spend =>
      rw [List.filterMap_cons_some hs]
      simp only [spendAll, List.foldlM_cons]
      congr 1
      funext next
      exact ih next

theorem deductAll_eq_spendAll (kc : AccountKeychain) (calls : List AaCall) (gas : U256) :
    deductAll abi (launchCtx ts) kc root sessionKey calls gas =
      spendAll ts root sessionKey kc (deductSpends abi root calls gas) := by
  unfold deductAll deductSpends
  simp only
  split
  · rw [pure_eq, bind_value, foldlM_deductCall, List.nil_append]
  · simp only [List.cons_append, List.nil_append, spendAll, List.foldlM_cons]
    congr 1
    funext next
    exact foldlM_deductCall next calls

/-- Below saturation the deductions are exactly the batch totals. -/
theorem amountOf_deductSpends (h : batchTotal abi root calls gas 0 < 2 ^ 256) (t : Address) :
    amountOf t (deductSpends abi root calls gas) = batchTotal abi root calls gas t := by
  have hsentinel := toNat_foldl_value calls gas
  unfold batchTotal at h ⊢
  rw [amountOf_spends, if_pos rfl, if_pos rfl] at h
  rw [amountOf_spends]
  simp only [deductSpends, amountOf_append]
  split
  · rename_i hz
    rw [hz, show (0 : U256).toNat = 0 from rfl] at hsentinel
    by_cases ht : 0 = t
    · rw [if_pos ht, if_pos ht, amountOf_nil]
      omega
    · rw [if_neg ht, if_neg ht, amountOf_nil]
      omega
  · simp only [amountOf_cons, amountOf_nil]
    by_cases ht : 0 = t
    · rw [if_pos ht, if_pos ht, if_pos ht]
      omega
    · rw [if_neg ht, if_neg ht, if_neg ht]
      omega

theorem batchTotal_mono (hbatch : batch = calls ∨ batch = []) (hgas : used.toNat ≤ reserved.toNat)
    (t : Address) : batchTotal abi root batch used t ≤ batchTotal abi root calls reserved t := by
  unfold batchTotal
  rcases hbatch with rfl | rfl
  · split <;> omega
  · rw [List.flatMap_nil, amountOf_nil]
    split <;> omega

theorem toNat_meteredGas (gas : U64) (maxFee : U128) :
    (meteredGas true gas maxFee).toNat = gas.toNat * maxFee.toNat :=
  toNat_satMul_setWidth gas maxFee (by decide)

theorem meteredGas_mono (h : used.toNat ≤ limit.toNat) (maxFee : U128) :
    (meteredGas rootPays used maxFee).toNat ≤ (meteredGas rootPays limit maxFee).toNat := by
  cases rootPays with
  | false => exact Nat.le_refl _
  | true =>
    rw [toNat_meteredGas, toNat_meteredGas]
    exact Nat.mul_le_mul_right _ h

/-- What a passing hook has established. -/
theorem runAaKeychainHook_pass
    (h : runAaKeychainHook abi (launchCtx ts) agents kc root sessionKey calls gas =
      .ok (.pass, kc')) :
    (kc.keys root sessionKey).Active (launchCtx ts).now ∧ kc'.keys = kc.keys ∧
      kc'.spendingLimits = kc.spendingLimits ∧ kc'.transactionKey = sessionKey ∧
      (hookChecks abi (launchCtx ts) agents ((kc.setTxOrigin sessionKey).setTransactionKey 0) root
        sessionKey calls gas = .ok kc') := by
  have hactive := keyIsActive_eq (launchCtx ts) ((kc.setTxOrigin sessionKey).setTransactionKey 0)
    root sessionKey
  rw [keys_setTransactionKey, keys_setTxOrigin] at hactive
  by_cases ha : (kc.keys root sessionKey).Active (launchCtx ts).now
  · rw [decide_eq_true ha] at hactive
    simp only [runAaKeychainHook, hactive] at h
    split at h
    · rename_i checked hchecks
      obtain ⟨_, rfl⟩ := Prod.mk.inj (Except.ok.inj h)
      refine ⟨ha, ?_, ?_, ?_, hchecks⟩
      all_goals
        simp only [hookChecks, bind_ok, pure_eq, Except.ok.injEq] at hchecks
        obtain ⟨_, _, _, _, _, _, rfl⟩ := hchecks
        rfl
    · split at h
      · cases h
      · cases h
  · rw [decide_eq_false ha] at hactive
    simp only [runAaKeychainHook, hactive] at h
    cases h

theorem active_of_pass {executed : AccountKeychain} (hreach : KeychainReachable before)
    (hpass : runAaKeychainHook abi (launchCtx ts) agents before root sessionKey calls gas =
      .ok (.pass, passed)) (hkeys : executed.keys root sessionKey = passed.keys root sessionKey) :
    sessionKey ≠ 0 ∧ (executed.keys root sessionKey).Active (launchCtx ts).now ∧
      executed.keys root sessionKey = before.keys root sessionKey := by
  obtain ⟨hactive, hsamekeys, _⟩ := runAaKeychainHook_pass hpass
  have hrecord : executed.keys root sessionKey = before.keys root sessionKey := by
    rw [hkeys, hsamekeys]
  refine ⟨?_, by rwa [hrecord], hrecord⟩
  rintro rfl
  exact hactive.2.1 (hreach.zero_absent root)

theorem applyAaPostExecutionDeductions_of_spendAll
    (h : spendAll ts root sessionKey kc (deductSpends abi root batch gas) = .ok settled) :
    applyAaPostExecutionDeductions abi (launchCtx ts) kc root sessionKey batch gas =
      .ok settled := by
  rw [applyAaPostExecutionDeductions, deductAll_eq_spendAll, h]
  rfl

/-- With limits enforced, gas that passed the pre-flight was within the limit. -/
theorem reserved_lt_of_pass (hreach : KeychainReachable before)
    (hpass : runAaKeychainHook abi (launchCtx ts) agents before root sessionKey calls gas =
      .ok (.pass, passed)) (he : (before.keys root sessionKey).enforceLimits = true) :
    gas.toNat < 2 ^ 128 := by
  obtain ⟨hactive, hsamekeys, _, _, hchecks⟩ := runAaKeychainHook_pass hpass
  obtain ⟨hzero, _, _⟩ := active_of_pass hreach hpass rfl
  have htotal := hookChecks_totals hreach.rowsBounded hzero hactive he hchecks 0
  have hlt := available_lt hreach.rowsBounded ts root sessionKey 0
  unfold batchTotal at htotal
  simp only [if_true] at htotal
  omega

/-- With limits enforced, what the pre-flight admitted is booked in full. -/
theorem settle_of_pass (hreach : KeychainReachable before) (hts : ts.toNat < 2 ^ 64 - 1)
    (hbatch : batch = calls ∨ batch = []) (hgas : used.toNat ≤ reserved.toNat)
    (hpass : runAaKeychainHook abi (launchCtx ts) agents before root sessionKey calls reserved =
      .ok (.pass, passed)) (hkeys : executed.keys root sessionKey = passed.keys root sessionKey)
    (hrows : executed.spendingLimits (spendingLimitKey root sessionKey) =
      passed.spendingLimits (spendingLimitKey root sessionKey))
    (he : (executed.keys root sessionKey).enforceLimits = true) :
    ∃ settled, applyAaPostExecutionDeductions abi (launchCtx ts) executed root sessionKey batch
        used = .ok settled ∧ Limited ts root sessionKey settled ∧
      ∀ t, available ts root sessionKey settled t + batchTotal abi root batch used t =
        available ts root sessionKey executed t := by
  obtain ⟨hactive, _, hsamerows, _, hchecks⟩ := runAaKeychainHook_pass hpass
  obtain ⟨hzero, hactive', hrecord⟩ := active_of_pass hreach hpass hkeys
  have hnow : (launchCtx ts).now.toNat < 2 ^ 64 - 1 := by
    simp only [StorageCtx.now, launchCtx, toNat_satTo]
    omega
  have havailable : ∀ t, available ts root sessionKey executed t =
      available ts root sessionKey before t := by
    intro t
    simp [available, rowOf, hrows, hsamerows]
  have htotal : ∀ t, batchTotal abi root batch used t ≤
      available ts root sessionKey executed t := by
    intro t
    rw [havailable]
    refine Nat.le_trans (batchTotal_mono hbatch hgas t) ?_
    exact hookChecks_totals hreach.rowsBounded hzero hactive (by rw [← hrecord, he]) hchecks t
  have hfits : batchTotal abi root batch used 0 < 2 ^ 256 :=
    Nat.lt_of_le_of_lt (htotal 0) (BitVec.isLt _)
  obtain ⟨settled, hsettled, hlimited, hleft⟩ := spendAll_available
    (show Limited ts root sessionKey executed from ⟨hzero, hactive', he⟩) hnow
    (fun t => by rw [amountOf_deductSpends hfits]; exact htotal t)
  refine ⟨settled, applyAaPostExecutionDeductions_of_spendAll hsettled, hlimited, fun t => ?_⟩
  rw [← hleft t, amountOf_deductSpends hfits]

/-- What the pre-flight of a transaction admits, its deferred deductions book:
with the key's rows untouched by the body, they never fail and lower each
effective limit by exactly that token's total. -/
theorem preflight_implies_deduction (abi : TokenAbi) (agents : SciAgentState)
    (before passed executed : AccountKeychain) (hreach : KeychainReachable before)
    (ts : U256) (hts : ts.toNat < 2 ^ 64 - 1) (root sessionKey : Address)
    (calls batch : List AaCall) (hbatch : batch = calls ∨ batch = [])
    (rootPays : Bool) (gasLimit gasUsed : U64) (maxFee : U128)
    (hgas : gasUsed.toNat ≤ gasLimit.toNat)
    (hpass : runAaKeychainHook abi (launchCtx ts) agents before root sessionKey calls
      (meteredGas rootPays gasLimit maxFee) = .ok (.pass, passed))
    (hkeys : executed.keys root sessionKey = passed.keys root sessionKey)
    (hrows : executed.spendingLimits (spendingLimitKey root sessionKey) =
      passed.spendingLimits (spendingLimitKey root sessionKey)) :
    ∃ settled, applyAaPostExecutionDeductions abi (launchCtx ts) executed root sessionKey batch
        (meteredGas rootPays gasUsed maxFee) = .ok settled ∧
      ((executed.keys root sessionKey).enforceLimits = true → ∀ token,
        (settled.effectiveRemainingLimit (launchCtx ts) root sessionKey token
            (launchCtx ts).now).toNat +
          batchTotal abi root batch (meteredGas rootPays gasUsed maxFee) token =
        (executed.effectiveRemainingLimit (launchCtx ts) root sessionKey token
            (launchCtx ts).now).toNat) := by
  obtain ⟨hzero, hactive, _⟩ := active_of_pass hreach hpass hkeys
  cases he : (executed.keys root sessionKey).enforceLimits with
  | false =>
    have hnone := spendAll_unlimited hactive he
      (deductSpends abi root batch (meteredGas rootPays gasUsed maxFee))
    exact ⟨executed, applyAaPostExecutionDeductions_of_spendAll hnone, nofun⟩
  | true =>
    obtain ⟨settled, hsettled, hlimited, hleft⟩ := settle_of_pass hreach hts hbatch
      (meteredGas_mono hgas maxFee) hpass hkeys hrows he
    refine ⟨settled, hsettled, fun _ token => ?_⟩
    rw [toNat_effectiveRemainingLimit hzero hlimited.2.1,
      toNat_effectiveRemainingLimit hzero hactive, hleft token]

end Batch

/-- A decoder that reads the amount of a transfer from a fixed place. -/
def wordAbi : TokenAbi where
  transfer data := some (BitVec.ofNat 256 (beValue ((data.drop 36).take 32)))
  approve _ := none
  transferFrom _ := none
  transferWithMemo _ := none

/-- A sponsored key with limits of 1000 on the zero address and 100 on token 9. -/
def sponsoredKeySteps : List KeychainStep :=
  [⟨1000, .setTxOrigin 1⟩,
   ⟨1000, .authorizeKey 1 2 .Secp256k1
      { expiry := 100000, enforceLimits := true, limits := [⟨0, 1000, 0⟩, ⟨9, 100, 3600⟩],
        allowAnyCalls := true, allowedCalls := [] } none⟩]

def sponsoredKey : AccountKeychain := run KeychainStep.apply .empty sponsoredKeySteps

/-- `transfer(.., amount)` with a one-byte amount. -/
def transferCall (amount : UInt8) : AaCall where
  kind := .call 9
  value := 5
  input := [0xa9, 0x05, 0x9c, 0xbb] ++ List.replicate 63 0 ++ [amount]

/-- Two transfers of the same token, after the first window has ended. -/
theorem preflight_implies_deduction_repeated_token :
    ∃ settled, applyAaPostExecutionDeductions wordAbi (launchCtx 9000)
      ((sponsoredKey.setTransactionKey 2).setTxOrigin 2) 1 2 [transferCall 60, transferCall 40]
        (meteredGas true 7 100) = .ok settled :=
  (preflight_implies_deduction wordAbi .empty sponsoredKey
    ((sponsoredKey.setTransactionKey 2).setTxOrigin 2)
    ((sponsoredKey.setTransactionKey 2).setTxOrigin 2)
    (.of_run sponsoredKeySteps (by decide)) 9000 (by decide) 1 2 [transferCall 60, transferCall 40]
    [transferCall 60, transferCall 40] (Or.inl rfl) true 9 7 100 (by decide) (by rfl) rfl rfl).imp
    fun _ h => h.1

end SciChain
