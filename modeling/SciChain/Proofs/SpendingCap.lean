import SciChain.Proofs.LimitRows

namespace SciChain
open Library AccountKeychain SpendingLimitState

namespace SpendingLimitState

variable {row : SpendingLimitState} {now : U64}

/-- A rollover happens at `now`. -/
def Rolls (row : SpendingLimitState) (now : U64) : Prop :=
  row.period ≠ 0 ∧ row.periodEnd.toNat ≤ now.toNat

instance (row : SpendingLimitState) (now : U64) : Decidable (row.Rolls now) :=
  inferInstanceAs (Decidable (_ ∧ _))

theorem rollover_of_rolls (h : row.Rolls now) :
    row.rollover now = { row with
      remaining := row.max.setWidth 256, periodEnd := row.computeNextPeriodEnd now } := if_pos h

theorem rollover_of_not_rolls (h : ¬row.Rolls now) : row.rollover now = row := if_neg h

/-- The next window ends a whole number of periods later, up to saturation. -/
theorem toNat_computeNextPeriodEnd (row : SpendingLimitState) (now : U64) :
    ∃ n, (row.computeNextPeriodEnd now).toNat =
      min (row.periodEnd.toNat + n * row.period.toNat) (2 ^ 64 - 1) := by
  refine ⟨min ((now.toNat - row.periodEnd.toNat) / row.period.toNat + 1) (2 ^ 64 - 1), ?_⟩
  simp only [computeNextPeriodEnd, toNat_satAdd, toNat_satMul, toNat_satSub, BitVec.toNat_udiv]
  rw [show (1 : U64).toNat = 1 from rfl, Nat.mul_comm row.period.toNat]
  omega

theorem lt_computeNextPeriodEnd (h : row.Rolls now) (hnow : now.toNat < 2 ^ 64 - 1) :
    now.toNat < (row.computeNextPeriodEnd now).toNat := by
  have hp : 0 < row.period.toNat := by
    apply Nat.pos_of_ne_zero
    intro hz
    exact h.1 (BitVec.eq_of_toNat_eq (by simpa using hz))
  have hstep := Nat.lt_mul_div_succ (now.toNat - row.periodEnd.toNat) hp
  have hdiv := Nat.div_le_self (now.toNat - row.periodEnd.toNat) row.period.toNat
  -- The count of periods does not saturate below the last timestamp.
  have hcount : min ((now.toNat - row.periodEnd.toNat) / row.period.toNat + 1) (2 ^ 64 - 1) =
      (now.toNat - row.periodEnd.toNat) / row.period.toNat + 1 := by omega
  simp only [computeNextPeriodEnd, toNat_satAdd, toNat_satMul, toNat_satSub, BitVec.toNat_udiv]
  rw [show (1 : U64).toNat = 1 from rfl, hcount]
  have hend := h.2
  omega

/-- A row reached from `start` by spends alone. -/
structure Follows (start row : SpendingLimitState) : Prop where
  max : row.max = start.max
  period : row.period = start.period
  periodEnd : ∃ k, row.periodEnd.toNat =
    min (start.periodEnd.toNat + k * start.period.toNat) (2 ^ 64 - 1)

theorem Follows.refl (start : SpendingLimitState) : Follows start start := by
  exact ⟨rfl, rfl, 0, by omega⟩

theorem Follows.spend (h : Follows start row) (now : U64)
    (amount : U256) : Follows start (row.spend now amount) := by
  by_cases hr : row.Rolls now
  · obtain ⟨k, hk⟩ := h.periodEnd
    obtain ⟨n, hn⟩ := row.toNat_computeNextPeriodEnd now
    unfold SpendingLimitState.spend
    rw [rollover_of_rolls hr]
    refine ⟨h.max, h.period, k + n, ?_⟩
    rw [hn, hk, h.period, Nat.add_mul]
    omega
  · unfold SpendingLimitState.spend
    rw [rollover_of_not_rolls hr]
    exact ⟨h.max, h.period, h.periodEnd⟩

/-- After a spend the window is the one holding the current time. -/
theorem lt_periodEnd_spend (amount : U256) (hp : row.period ≠ 0) (hnow : now.toNat < 2 ^ 64 - 1) :
    now.toNat < (row.spend now amount).periodEnd.toNat := by
  by_cases hr : row.Rolls now
  · unfold spend
    rw [rollover_of_rolls hr]
    exact lt_computeNextPeriodEnd hr hnow
  · unfold spend
    rw [rollover_of_not_rolls hr]
    exact Nat.lt_of_not_le (fun hle => hr ⟨hp, hle⟩)

end SpendingLimitState

/-- A call of `verify_and_update_spending` at a block time. -/
structure Spend where
  timestamp : U256
  account : Address
  keyId : Address
  token : Address
  amount : U256
  deriving DecidableEq, Repr

namespace Spend

def now (s : Spend) : U64 := (launchCtx s.timestamp).now

def apply (s : Spend) (kc : AccountKeychain) : Result AccountKeychain :=
  kc.verifyAndUpdateSpending (launchCtx s.timestamp) s.account s.keyId s.token s.amount

theorem toNat_now {s : Spend} (h : s.timestamp.toNat < 2 ^ 64 - 1) :
    s.now.toNat = s.timestamp.toNat := by
  simp only [now, StorageCtx.now, launchCtx, toNat_satTo]
  omega

end Spend

/-- A successful deduction from one row. -/
structure Deduction where
  now : U64
  amount : U256
  rolled : Bool
  periodEnd : U64
  deriving DecidableEq, Repr

def totalAmount : List Deduction → Nat
  | [] => 0
  | d :: ds => d.amount.toNat + totalAmount ds

section Row

variable (account keyId token : Address)

def rowOf (kc : AccountKeychain) : SpendingLimitState :=
  kc.spendingLimits (spendingLimitKey account keyId) token

/-- The deductions a run of spends makes from the row, with the window each of
them leaves. -/
def deductions (kc : AccountKeychain) : List Spend → List Deduction
  | [] => []
  | s :: rest =>
    let next := attempt Spend.apply kc s
    if (s.account = account ∧ s.keyId = keyId ∧ s.token = token) ∧ (s.apply kc).isOk = true then
      { now := s.now, amount := s.amount,
        rolled := decide ((rowOf account keyId token kc).Rolls s.now),
        periodEnd := (rowOf account keyId token next).periodEnd } :: deductions next rest
    else deductions next rest

variable {account keyId token}

theorem attempt_spend_keys (kc : AccountKeychain) (s : Spend) :
    (attempt Spend.apply kc s).keys = kc.keys := by
  refine attempt_invariant (P := fun k : AccountKeychain => k.keys = kc.keys) ?_ rfl
  intro kc' h
  rcases verifyAndUpdateSpending_ok h with ⟨rfl, _⟩ | ⟨_, _, _, _, _, _, rfl⟩ <;> rfl

theorem enforces_attempt (he : (kc.keys account keyId).enforceLimits = true) (s : Spend) :
    ((attempt Spend.apply kc s).keys account keyId).enforceLimits = true := by
  rw [attempt_spend_keys, he]

theorem rowOf_attempt_hit (hkey : keyId ≠ 0) (he : (kc.keys account keyId).enforceLimits = true)
    (hit : s.account = account ∧ s.keyId = keyId ∧ s.token = token)
    (hok : (s.apply kc).isOk = true) :
    s.amount.toNat ≤ ((rowOf account keyId token kc).rollover s.now).remaining.toNat ∧
    rowOf account keyId token (attempt Spend.apply kc s) =
      (rowOf account keyId token kc).spend s.now s.amount := by
  have happly := apply_eq_attempt hok
  obtain ⟨rfl, rfl, rfl⟩ := hit
  rcases verifyAndUpdateSpending_ok happly with ⟨_, hz | hn⟩ | ⟨_, _, _, row, rfl, hle, hnext⟩
  · exact absurd hz hkey
  · rw [he] at hn
    cases hn
  · refine ⟨hle, ?_⟩
    rw [hnext, rowOf, spendingLimits_emitEvent, spendingLimits_setRow, if_pos ⟨rfl, rfl⟩]
    rfl

theorem rowOf_attempt_miss (hmiss : ¬((s.account = account ∧ s.keyId = keyId ∧ s.token = token) ∧
      (s.apply kc).isOk = true)) :
    rowOf account keyId token (attempt Spend.apply kc s) = rowOf account keyId token kc := by
  cases hs : s.apply kc with
  | error e => rw [attempt_of_error hs]
  | ok kc' =>
    rw [attempt_of_ok hs]
    have hother : ¬(s.account = account ∧ s.keyId = keyId ∧ s.token = token) :=
      fun hit => hmiss ⟨hit, by rw [hs]; rfl⟩
    rcases verifyAndUpdateSpending_ok hs with ⟨rfl, _⟩ | ⟨_, _, _, row, _, _, rfl⟩
    · rfl
    · rw [rowOf, spendingLimits_emitEvent, spendingLimits_setRow, if_neg, rowOf]
      rintro ⟨hl, rfl⟩
      obtain ⟨rfl, rfl⟩ := LimitKey.mk.inj hl
      exact hother ⟨rfl, rfl, rfl⟩

section

variable {kc : AccountKeychain} (hkey : keyId ≠ 0)
  (he : (kc.keys account keyId).enforceLimits = true)
include hkey he

/-- The windows of all deductions lie on the grid of the first row and hold
the time of their deduction. -/
theorem deductions_windows {start : SpendingLimitState} (hp : start.period ≠ 0)
    (hrow : start.Follows (rowOf account keyId token kc))
    (hnow : ∀ s ∈ spends, s.timestamp.toNat < 2 ^ 64 - 1) :
    ∀ d ∈ deductions account keyId token kc spends,
      (∃ k, d.periodEnd.toNat =
        min (start.periodEnd.toNat + k * start.period.toNat) (2 ^ 64 - 1)) ∧
      d.now.toNat < d.periodEnd.toNat := by
  induction spends generalizing kc with
  | nil => simp [deductions]
  | cons s rest ih =>
    have hrest : ∀ r ∈ rest, r.timestamp.toNat < 2 ^ 64 - 1 :=
      fun r hr => hnow r (List.mem_cons_of_mem _ hr)
    have hs : s.now.toNat < 2 ^ 64 - 1 := by
      rw [Spend.toNat_now (hnow s List.mem_cons_self)]
      exact hnow s List.mem_cons_self
    simp only [deductions]
    split
    · rename_i hit
      obtain ⟨_, hnext⟩ := rowOf_attempt_hit hkey he hit.1 hit.2
      have hfollows := hrow.spend s.now s.amount
      rw [← hnext] at hfollows
      intro d hd
      rcases List.mem_cons.mp hd with rfl | hd
      · refine ⟨hfollows.periodEnd, ?_⟩
        simp only [hnext]
        exact lt_periodEnd_spend _ (by rw [hrow.period]; exact hp) hs
      · exact ih (enforces_attempt he s) hfollows hrest d hd
    · rename_i hmiss
      exact ih (enforces_attempt he s) (by rw [rowOf_attempt_miss hmiss]; exact hrow) hrest

/-- Deductions without a rollover draw on what the row had left. -/
theorem deductions_within_window
    (hd : deductions account keyId token kc spends = window ++ later)
    (hw : ∀ d ∈ window, d.rolled = false) :
    totalAmount window ≤ (rowOf account keyId token kc).remaining.toNat := by
  induction spends generalizing kc window with
  | nil =>
    obtain ⟨rfl, _⟩ := List.append_eq_nil_iff.mp hd.symm
    exact Nat.zero_le _
  | cons s rest ih =>
    simp only [deductions] at hd
    split at hd
    · rename_i hit
      obtain ⟨hle, hnext⟩ := rowOf_attempt_hit hkey he hit.1 hit.2
      cases window with
      | nil => exact Nat.zero_le _
      | cons d window =>
        obtain ⟨rfl, htail⟩ := List.cons.inj hd
        have hstay : ¬(rowOf account keyId token kc).Rolls s.now := by
          simpa using hw _ List.mem_cons_self
        have hsum := ih (enforces_attempt he s) htail (fun e he => hw e (List.mem_cons_of_mem _ he))
        rw [hnext, toNat_remaining_spend hle] at hsum
        rw [rollover_of_not_rolls hstay] at hsum hle
        simp only [totalAmount] at hsum ⊢
        omega
    · rename_i hmiss
      have hsum := ih (enforces_attempt he s) hd hw
      rwa [rowOf_attempt_miss hmiss] at hsum

/-- From a rollover to the next one no more than the maximum is deducted. -/
theorem deductions_between_rollovers {start : SpendingLimitState}
    (hrow : start.Follows (rowOf account keyId token kc))
    (hd : deductions account keyId token kc spends = earlier ++ d :: (window ++ later))
    (hroll : d.rolled = true) (hw : ∀ e ∈ window, e.rolled = false) :
    totalAmount (d :: window) ≤ start.max.toNat := by
  induction spends generalizing kc earlier with
  | nil => simp [deductions] at hd
  | cons s rest ih =>
    simp only [deductions] at hd
    split at hd
    · rename_i hit
      obtain ⟨hle, hnext⟩ := rowOf_attempt_hit hkey he hit.1 hit.2
      cases earlier with
      | nil =>
        obtain ⟨rfl, htail⟩ := List.cons.inj hd
        have hrolls : (rowOf account keyId token kc).Rolls s.now := by simpa using hroll
        have hsum := deductions_within_window hkey (enforces_attempt he s) htail hw
        rw [hnext, toNat_remaining_spend hle] at hsum
        rw [rollover_of_rolls hrolls] at hsum hle
        simp only [toNat_max_setWidth, hrow.max] at hsum hle
        simp only [totalAmount] at hsum ⊢
        omega
      | cons e earlier =>
        obtain ⟨_, htail⟩ := List.cons.inj hd
        refine ih (enforces_attempt he s) ?_ htail
        rw [hnext]
        exact hrow.spend s.now s.amount
    · rename_i hmiss
      exact ih (enforces_attempt he s) (by rw [rowOf_attempt_miss hmiss]; exact hrow) hd

theorem deductions_never_roll (hp : (rowOf account keyId token kc).period = 0)
    (spends : List Spend) :
    ∀ d ∈ deductions account keyId token kc spends, d.rolled = false := by
  induction spends generalizing kc with
  | nil => simp [deductions]
  | cons s rest ih =>
    have hstay : ¬(rowOf account keyId token kc).Rolls s.now := fun h => h.1 hp
    simp only [deductions]
    split
    · rename_i hit
      obtain ⟨_, hnext⟩ := rowOf_attempt_hit hkey he hit.1 hit.2
      have hperiod := ((SpendingLimitState.Follows.refl (rowOf account keyId token kc)).spend
        s.now s.amount).period
      rw [← hnext, hp] at hperiod
      intro d hd
      rcases List.mem_cons.mp hd with rfl | hd
      · simpa using hstay
      · exact ih (enforces_attempt he s) hperiod d hd
    · rename_i hmiss
      exact ih (enforces_attempt he s) (by rw [rowOf_attempt_miss hmiss, hp])

end

/-- The cap a limit row puts on a run of spends of any length, at any times
below the last timestamp: the windows lie on the grid of the initial one, each
deduction falls into its window, a window never yields more than the maximum,
and a row without a period never yields more than it had. -/
theorem spending_cap_over_runs (kc : AccountKeychain) (account keyId token : Address)
    (spends : List Spend) (hkey : keyId ≠ 0)
    (henforce : (kc.keys account keyId).enforceLimits = true)
    (hnow : ∀ s ∈ spends, s.timestamp.toNat < 2 ^ 64 - 1) :
    let row := kc.spendingLimits (spendingLimitKey account keyId) token
    let ds := deductions account keyId token kc spends
    (row.period ≠ 0 →
      (∀ d ∈ ds,
        (∃ k, d.periodEnd.toNat =
          min (row.periodEnd.toNat + k * row.period.toNat) (2 ^ 64 - 1)) ∧
        d.now.toNat < d.periodEnd.toNat) ∧
      ∀ earlier d window later, ds = earlier ++ d :: (window ++ later) → d.rolled = true →
        (∀ e ∈ window, e.rolled = false) → totalAmount (d :: window) ≤ row.max.toNat) ∧
    (row.period = 0 → totalAmount ds ≤ row.remaining.toNat) := by
  intro row ds
  have hfollows := SpendingLimitState.Follows.refl row
  refine ⟨fun hp => ⟨deductions_windows hkey henforce hp hfollows hnow, ?_⟩, fun hp => ?_⟩
  · intro earlier d window later hd hroll hw
    exact deductions_between_rollovers hkey henforce hfollows hd hroll hw
  · have hnone : ∀ d ∈ ds, d.rolled = false := deductions_never_roll hkey henforce hp spends
    exact deductions_within_window hkey henforce (List.append_nil _).symm hnone

end Row

/-- A key with an hourly limit of 100 on token 9, authorized at time 1000. -/
def hourlyKey : AccountKeychain :=
  run KeychainStep.apply .empty
    [⟨1000, .setTxOrigin 1⟩,
     ⟨1000, .authorizeKey 1 2 .Secp256k1
        { expiry := 100000, enforceLimits := true, limits := [⟨9, 100, 3600⟩],
          allowAnyCalls := true, allowedCalls := [] } none⟩]

/-- Two spends in the first window, a gap of two hours, two more spends. -/
def hourlySpends : List Spend :=
  [⟨1100, 1, 2, 9, 60⟩, ⟨1200, 1, 2, 9, 40⟩, ⟨9000, 1, 2, 9, 70⟩, ⟨9100, 1, 2, 9, 30⟩]

example : (deductions 1 2 9 hourlyKey hourlySpends).map (fun d => (d.rolled, d.periodEnd.toNat)) =
    [(false, 4600), (false, 4600), (true, 11800), (false, 11800)] := by decide

theorem spending_cap_over_runs_hourly :
    totalAmount [⟨9000, 70, true, 11800⟩, ⟨9100, 30, false, 11800⟩] ≤ 100 :=
  ((spending_cap_over_runs hourlyKey 1 2 9 hourlySpends (by decide) (by decide) (by decide)).1
    (by decide)).2 [⟨1100, 60, false, 4600⟩, ⟨1200, 40, false, 4600⟩] ⟨9000, 70, true, 11800⟩
    [⟨9100, 30, false, 11800⟩] [] (by decide) rfl (by decide)

end SciChain
