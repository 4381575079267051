import SciChain.Proofs.KeychainSteps

namespace SciChain
open Library AccountKeychain

namespace SpendingLimitState

/-- No more is left to spend than the configured maximum. -/
def Bounded (row : SpendingLimitState) : Prop := row.remaining.toNat ≤ row.max.toNat

instance (row : SpendingLimitState) : Decidable row.Bounded := inferInstanceAs (Decidable (_ ≤ _))

theorem toNat_max_setWidth (row : SpendingLimitState) :
    (row.max.setWidth 256).toNat = row.max.toNat := BitVec.toNat_setWidth_of_le (by omega)

theorem Bounded.rollover {row : SpendingLimitState} (h : row.Bounded) (now : U64) :
    (row.rollover now).Bounded := by
  unfold SpendingLimitState.rollover
  split
  · exact Nat.le_of_eq row.toNat_max_setWidth
  · exact h

theorem toNat_remaining_spend {row : SpendingLimitState}
    (h : amount.toNat ≤ (row.rollover now).remaining.toNat) :
    (row.spend now amount).remaining.toNat = (row.rollover now).remaining.toNat - amount.toNat :=
  BitVec.toNat_sub_of_le (BitVec.le_def.mpr h)

theorem Bounded.spend {row : SpendingLimitState} (h : row.Bounded)
    (ha : amount.toNat ≤ (row.rollover now).remaining.toNat) : (row.spend now amount).Bounded := by
  have hr := h.rollover now
  unfold Bounded at hr ⊢
  rw [toNat_remaining_spend ha]
  exact Nat.le_trans (Nat.sub_le _ _) hr

/-- A row with a non-zero maximum clamps whatever is refunded to it. -/
theorem refunded_le_max {row : SpendingLimitState} (amount : U256) (h : row.max ≠ 0) :
    (row.refunded amount).toNat ≤ row.max.toNat := by
  simp only [refunded, if_neg h]
  split
  · assumption
  · exact Nat.le_of_eq row.toNat_max_setWidth

theorem refunded_of_max_zero {row : SpendingLimitState} (amount : U256) (h : row.max = 0) :
    row.refunded amount = satAdd row.remaining amount := if_pos h

end SpendingLimitState

/-- What one operation at `now` does to one row. -/
inductive RowChange (kc : AccountKeychain) (op : KeychainOp) (now : U64) (l : LimitKey)
    (t : Address) : SpendingLimitState → Prop
  | keep : RowChange kc op now l t (kc.spendingLimits l t)
  | configure {row : SpendingLimitState} : Configured row → RowChange kc op now l t row
  | spend {amount : U256} :
      amount.toNat ≤ ((kc.spendingLimits l t).rollover now).remaining.toNat →
      RowChange kc op now l t ((kc.spendingLimits l t).spend now amount)
  | refund {account : Address} {amount : U256} : op = .refundSpendingLimit account t amount →
      kc.Refundable now account → l = spendingLimitKey account kc.transactionKey →
      RowChange kc op now l t
        { kc.spendingLimits l t with remaining := (kc.spendingLimits l t).refunded amount }

theorem RowChange.of_eq {kc' : AccountKeychain} (h : kc'.spendingLimits = kc.spendingLimits) :
    RowChange kc op now l t (kc'.spendingLimits l t) := by
  rw [h]
  exact .keep

theorem verifyAndUpdateSpending_rows
    (h : kc.verifyAndUpdateSpending (launchCtx ts) account keyId token amount = .ok kc')
    (l : LimitKey) (t : Address) :
    RowChange kc op (launchCtx ts).now l t (kc'.spendingLimits l t) := by
  rcases verifyAndUpdateSpending_ok h with ⟨rfl, _⟩ | ⟨_, _, _, row, rfl, hle, rfl⟩
  · exact .keep
  · rw [spendingLimits_emitEvent, spendingLimits_setRow]
    split
    · rename_i hlt
      obtain ⟨rfl, rfl⟩ := hlt
      exact .spend hle
    · exact .keep

/-- Every way a successful operation touches a row. -/
theorem KeychainStep.rows_step {step : KeychainStep}
    (h : step.apply kc = .ok kc') (l : LimitKey) (t : Address) :
    RowChange kc step.op (launchCtx step.timestamp).now l t (kc'.spendingLimits l t) := by
  obtain ⟨ts, op⟩ := step
  simp only [KeychainStep.apply] at h
  cases op with
  | authorizeKey sender keyId signatureType config witness =>
    obtain ⟨_, _, _, _, _, _, _, _, _, _, _, _, hrows⟩ := authorizeKey_ok h
    rcases hrows l t with he | ⟨_, hc⟩
    · rw [he]
      exact .keep
    · exact .configure hc
  | burnKeyAuthorizationWitness sender witness =>
    obtain rfl := burnKeyAuthorizationWitness_ok h
    exact .of_eq rfl
  | revokeKey sender keyId =>
    obtain ⟨_, _, rfl⟩ := revokeKey_ok h
    exact .of_eq rfl
  | updateSpendingLimit sender keyId token newLimit =>
    obtain ⟨_, _, _, _, _, _, row, hc, _, hrows⟩ := updateSpendingLimit_ok h
    rw [hrows, spendingLimits_setRow]
    split
    · exact .configure hc
    · exact .keep
  | setAllowedCalls sender keyId scopes =>
    obtain ⟨_, _, _, _, _, _, rfl⟩ := setAllowedCalls_ok h
    exact .of_eq rfl
  | removeAllowedCalls sender keyId target =>
    obtain ⟨_, _, ⟨_, rfl⟩ | ⟨_, rfl⟩⟩ := removeAllowedCalls_ok h <;> exact .of_eq rfl
  | verifyAndUpdateSpending account keyId token amount => exact verifyAndUpdateSpending_rows h l t
  | refundSpendingLimit account token amount =>
    simp only [KeychainOp.apply, refundSpendingLimit_eq, Except.ok.injEq] at h
    subst h
    split
    · rename_i hr
      rw [spendingLimits_setRow]
      split
      · rename_i hlt
        obtain ⟨rfl, rfl⟩ := hlt
        exact .refund rfl hr rfl
      · exact .keep
    · exact .keep
  | authorizeTransfer account token amount =>
    rcases KeychainOp.spend_cases (Or.inr (Or.inl ⟨_, _, _, rfl⟩)) h with rfl | ⟨_, _, _, _, h⟩
    · exact .keep
    · exact verifyAndUpdateSpending_rows h l t
  | authorizeApprove account token oldApproval newApproval =>
    rcases KeychainOp.spend_cases (Or.inr (Or.inr ⟨_, _, _, _, rfl⟩)) h with
      rfl | ⟨_, _, _, _, h⟩
    · exact .keep
    · exact verifyAndUpdateSpending_rows h l t
  | setTransactionKey keyId =>
    cases h
    exact .keep
  | setTxOrigin origin =>
    cases h
    exact .keep

def RowsBounded (kc : AccountKeychain) : Prop := ∀ l t, (kc.spendingLimits l t).Bounded

/-- The one operation that can lift a row above its maximum: a refund to a row
whose maximum is zero, which the code takes for a row without one. -/
def UnclampedRefund (step : KeychainStep) (kc : AccountKeychain) : Prop :=
  ∃ account token amount, step.op = .refundSpendingLimit account token amount ∧
    kc.Refundable (launchCtx step.timestamp).now account ∧
    (kc.spendingLimits (spendingLimitKey account kc.transactionKey) token).max = 0 ∧ amount ≠ 0

theorem rowsBounded_empty : RowsBounded .empty := fun _ _ => Nat.le_refl _

theorem RowsBounded.step {step : KeychainStep} (h : RowsBounded kc)
    (hstep : ¬UnclampedRefund step kc) (hok : step.apply kc = .ok kc') : RowsBounded kc' := by
  intro l t
  have hc := KeychainStep.rows_step hok l t
  generalize kc'.spendingLimits l t = row at hc
  cases hc with
  | keep => exact h l t
  | configure hrow => exact Nat.le_of_eq hrow
  | spend hle => exact (h l t).spend hle
  | @refund account amount hop href hl =>
    by_cases hmax : (kc.spendingLimits l t).max = 0
    · have hzero : amount = 0 := by
        by_contra hne
        exact hstep ⟨account, t, amount, hop, href, by rw [← hl, hmax], hne⟩
      have hrow := h l t
      simp only [SpendingLimitState.Bounded] at hrow ⊢
      rw [SpendingLimitState.refunded_of_max_zero amount hmax, hzero, toNat_satAdd]
      exact Nat.le_trans (Nat.min_le_left _ _) hrow
    · exact SpendingLimitState.refunded_le_max amount hmax

theorem RowsBounded.attempt {step : KeychainStep} (h : RowsBounded kc)
    (hstep : ¬UnclampedRefund step kc) : RowsBounded (Library.attempt KeychainStep.apply kc step) :=
  attempt_invariant (P := RowsBounded) (fun _ hok => h.step hstep hok) h

theorem UnclampedRefund.breaks {step : KeychainStep} (h : UnclampedRefund step kc)
    (hb : RowsBounded kc) : ¬RowsBounded (Library.attempt KeychainStep.apply kc step) := by
  obtain ⟨account, token, amount, hop, href, hmax, hne⟩ := h
  have hok := refundSpendingLimit_eq step.timestamp kc account token amount
  simp only [if_pos href] at hok
  have hstep : step.apply kc =
      kc.refundSpendingLimit (launchCtx step.timestamp) account token amount := by
    rw [KeychainStep.apply, hop]
    rfl
  rw [attempt_of_ok (hstep.trans hok)]
  intro hafter
  have hbefore := hb (spendingLimitKey account kc.transactionKey) token
  have hrow := hafter (spendingLimitKey account kc.transactionKey) token
  simp only [spendingLimits_setRow, and_self, if_true, SpendingLimitState.Bounded,
    SpendingLimitState.refunded_of_max_zero amount hmax, toNat_satAdd, hmax] at hrow hbefore
  have hpos : amount.toNat ≠ 0 := fun hz => hne (BitVec.eq_of_toNat_eq (by simpa using hz))
  have hzero : (0 : U128).toNat = 0 := rfl
  omega

/-- From the empty keychain, every row of every state a run passes through
stays within its maximum exactly when no step refunds a non-zero amount to a
row whose maximum is zero. -/
theorem limit_rows_bounded_iff (steps : List KeychainStep) :
    (∀ kc ∈ states KeychainStep.apply .empty steps, RowsBounded kc) ↔
      ∀ before step after, steps = before ++ step :: after →
        ¬UnclampedRefund step (run KeychainStep.apply .empty before) :=
  states_invariant_iff (fun _ _ hb hstep => hb.attempt hstep) (fun _ _ hb hstep => hstep.breaks hb)
    rowsBounded_empty steps

/-- A key authorized with an hourly limit of zero, then refunded five. -/
def zeroLimitRefund : List KeychainStep :=
  [⟨100, .setTxOrigin 1⟩,
   ⟨100, .authorizeKey 1 2 .Secp256k1
      { expiry := 3700, enforceLimits := true, limits := [⟨9, 0, 3600⟩], allowAnyCalls := true,
        allowedCalls := [] } none⟩,
   ⟨100, .setTransactionKey 2⟩,
   ⟨100, .refundSpendingLimit 1 9 5⟩]

theorem refund_exceeds_zero_limit :
    ¬∀ kc ∈ states KeychainStep.apply .empty zeroLimitRefund, RowsBounded kc := by
  intro h
  have hlast : run KeychainStep.apply .empty zeroLimitRefund ∈
      states KeychainStep.apply .empty zeroLimitRefund := by
    simp [zeroLimitRefund, states]
  exact absurd (h _ hlast ⟨1, 2⟩ 9) (by decide)

end SciChain
