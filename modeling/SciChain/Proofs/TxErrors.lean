import SciChain.Proofs.KeychainSteps
import SciChain.Proofs.Sponsor

namespace SciChain
open Library AccountKeychain SciHandler

section Hook

variable {abi : TokenAbi} {ctx : StorageCtx} {kc : AccountKeychain} {root sessionKey : Address}
  {e : TempoPrecompileError}

/-- A call outside the scope is always refused with the same error. -/
theorem validateCall_error {scope : KeyScope} (h : scope.validateCall target input = .error e) :
    e = .accountKeychain .callNotAllowed := by
  unfold KeyScope.validateCall at h
  dsimp only at h
  split at h
  · cases h
  rcases reject_bind_error h with he | h
  · exact he
  split at h
  · cases h
  rcases reject_bind_error h with he | h
  · exact he
  rcases reject_bind_error h with he | h
  · exact he
  split at h
  · cases h
  rcases reject_bind_error h with he | h
  · exact he
  rcases reject_bind_error h with he | h
  · exact he
  exact ((reject_error ..).mp h).2.symm

theorem validateCallScopeForTransaction_error {kind : TxKind}
    (h : kc.validateCallScopeForTransaction ctx root sessionKey kind input = .error e) :
    e = .accountKeychain .callNotAllowed := by
  unfold validateCallScopeForTransaction at h
  split at h
  · cases h
  cases kind with
  | create => exact (Except.error.inj h).symm
  | call target => exact validateCall_error h

/-- The checks of the hook fail only with errors that reject the transaction. -/
theorem hookChecks_error (h : hookChecks abi ctx agents kc root sessionKey calls gas = .error e) :
    e.isSystemError = false := by
  unfold hookChecks at h
  rcases reject_bind_error h with rfl | h
  · rfl
  simp only [bind_error] at h
  rcases h with hcalls | ⟨totals, _, h⟩
  · obtain ⟨_, call, _, hcall⟩ := foldlM_error hcalls
    simp only [hookCall, bind_error] at hcall
    rcases hcall with hscope | ⟨_, _, hrest⟩
    · rw [validateCallScopeForTransaction_error hscope]
      rfl
    · split at hrest <;> cases hrest
  · rcases h with hlimit | ⟨_, _, hpure⟩
    · rw [← ((reject_error ..).mp hlimit).2]
      rfl
    · cases hpure

/-- Over storage that can be read, the hook passes or rejects. -/
theorem runAaKeychainHook_ne_error :
    runAaKeychainHook abi ctx agents kc root sessionKey calls gas ≠ .error fault := by
  intro h
  simp only [runAaKeychainHook, keyIsActive_eq] at h
  split at h
  · rename_i hactive
    cases hactive
  · cases h
  · split at h
    · cases h
    · rename_i hchecks
      rw [if_neg (by rw [hookChecks_error hchecks]; decide)] at h
      cases h

end Hook

section Validation

variable {World : Type} {rt : Runtime World} {ctx : Context World} {aa : BaseAaTransaction}
  {signer payer : Address} {payload : Bytes}

theorem authorize_error (h : SciHandler.authorize rt ctx = .error e) : e.isTxError = true := by
  unfold authorize at h
  dsimp only at h
  split at h
  · cases h
  split at h
  · split at h
    · rename_i hfault
      exact absurd hfault runAaKeychainHook_ne_error
    · obtain rfl := Except.error.inj h
      rfl
    · cases h
  · cases h

theorem prefundSigner_error (h : SciHandler.prefundSigner rt ctx payer = .error e) :
    e.isTxError = false := by
  unfold prefundSigner prefund at h
  simp only [bind_error, bind_ok, mapError_eq_error, mapError_eq_ok, pure_eq, reduceCtorEq,
    and_false, exists_false, or_false] at h
  rcases h with ⟨_, _, rfl⟩ | ⟨_, _, _, _, rfl⟩ <;> rfl

/-- The sponsored deduction blames the transaction unless the advance failed. -/
theorem deductSponsored_error (hrt : rt.Lawful) (htx : ctx.tx = .fromAa aa signer payload)
    (hchain : ctx.chain.Bounded) (hne : payer ≠ signer)
    (hpre : SciHandler.prefundSigner rt ctx payer = .ok pre)
    (h : SciHandler.deductSponsored rt ctx payer = .error e) : e.isTxError = true := by
  unfold deductSponsored at h
  simp only [hpre, bind_value, bind_error, pure_eq, reduceCtorEq, and_false, exists_false,
    or_false] at h
  rcases h with hdeduct | ⟨deducted, hdeduct, hreconcile⟩
  · obtain ⟨most, hfunded⟩ := prefundSigner_ok hrt htx hchain hne hpre
    exact BaseHandler.deduct_error (fromAa_envelopedTx (hfunded.sameTx.tx.trans htx)) hdeduct
  · obtain ⟨journal, hok⟩ := reconcile_after_deduct hrt htx hchain hne hpre hdeduct
    rw [fromAa_caller htx, hok] at hreconcile
    cases hreconcile

end Validation

/-- The sponsor of the transaction can pay the advance: its maximal spending can
be computed, the sponsor holds that and the quoted cost, and the signer can
receive it. -/
def AdvanceCovered {World : Type} (rt : Runtime World) (ctx : Context World)
    (payer : Address) : Prop :=
  ∃ most, rt.maxBalanceSpending ctx.tx = .ok most ∧
    most.toNat + ctx.quotedCost ≤ (ctx.journal.balance payer).toNat ∧
    (ctx.journal.balance ctx.tx.base.caller).toNat + (most.toNat + ctx.quotedCost) < 2 ^ 256

/-- Validation of an AA transaction fails only in ways that let the builder skip
it, exactly when its advance is covered in case the root sponsors it. -/
theorem aa_validation_skippable_iff {World : Type} (rt : Runtime World) (hrt : rt.Lawful)
    (aa : BaseAaTransaction) (signer : Address) (payload : Bytes) (ctx : Context World)
    (htx : ctx.tx = .fromAa aa signer payload) (hchain : ctx.chain.Bounded) :
    (∀ e, SciHandler.validateAgainstStateAndDeductCaller rt ctx = .error e →
      e.isTxError = true) ↔
    ∀ payer, aa.feePayer = some payer → aa.root = some payer → payer ≠ signer →
      AdvanceCovered rt ctx payer := by
  obtain rfl := fromAa_caller htx
  constructor
  · intro hskip payer hpayer hroot hne
    have hcheck : ¬(ctx.tx.feePayer.isSome = true ∧ ctx.tx.feePayer ≠ ctx.tx.root) := by
      rw [fromAa_feePayer htx, fromAa_root htx, hpayer, hroot]
      exact fun h => h.2 rfl
    cases hpre : prefundSigner rt ctx payer with
    | ok pre => exact (prefundSigner_isOk hrt htx hchain hne).mp ⟨pre, hpre⟩
    | error e =>
      have hfail : validateAgainstStateAndDeductCaller rt ctx = .error e := by
        unfold validateAgainstStateAndDeductCaller deductCaller
        rw [reject_neg hcheck, bind_value, sponsor_of_root htx hpayer hne]
        simp [deductSponsored, hpre]
      have htrue := hskip e hfail
      rw [prefundSigner_error hpre] at htrue
      cases htrue
  · intro hcover e h
    unfold validateAgainstStateAndDeductCaller at h
    simp only [bind_error, reject_error, reject_ok] at h
    rcases h with ⟨_, rfl⟩ | ⟨_, hcheck, hdeduct | ⟨_, _, hauthorize⟩⟩
    · rfl
    · unfold deductCaller at hdeduct
      split at hdeduct
      · rename_i payer hsponsor
        -- A sponsor that passed the first check is the root.
        obtain ⟨hpayer, hne⟩ := Option.filter_eq_some_iff.mp hsponsor
        have hroot : ctx.tx.root = some payer := by
          by_contra hroot
          exact hcheck ⟨by rw [hpayer]; rfl, fun h => hroot (by rw [← h, hpayer])⟩
        rw [fromAa_feePayer htx] at hpayer
        rw [fromAa_root htx] at hroot
        rw [decide_eq_true_eq] at hne
        obtain ⟨pre, hpre⟩ := (prefundSigner_isOk hrt htx hchain hne).mpr
          (hcover payer hpayer hroot hne)
        exact deductSponsored_error hrt htx hchain hne hpre hdeduct
      · exact BaseHandler.deduct_error (fromAa_envelopedTx htx) hdeduct
    · exact authorize_error hauthorize

/-- A gas limit the root's balance does not cover. -/
def unaffordableTransfer : BaseAaTransaction := { agentTransfer with gasLimit := 600000000 }

/-- The root cannot cover the advance, and the error is one that stops the builder. -/
theorem unaffordable_advance_is_custom :
    SciHandler.validateAgainstStateAndDeductCaller (plainRuntime noTokens fun _ => .ok)
        (smallContext unaffordableTransfer 2) =
      .error (.custom (.feePayerCannotCoverGas 1 .outOfFunds)) ∧
    (EVMError.custom (.feePayerCannotCoverGas 1 .outOfFunds)).isTxError = false :=
  ⟨eq_error_of_failsWith (by decide +kernel), rfl⟩

/-- The gas limit of a plain transfer is covered. -/
theorem aa_validation_skippable_iff_transfer :
    AdvanceCovered (plainRuntime noTokens fun _ => .ok) (smallContext agentTransfer 2) 1 ∧
    ∀ e, SciHandler.validateAgainstStateAndDeductCaller (plainRuntime noTokens fun _ => .ok)
      (smallContext agentTransfer 2) = .error e → e.isTxError = true := by
  have hcovered : AdvanceCovered (plainRuntime noTokens fun _ => .ok)
      (smallContext agentTransfer 2) 1 :=
    ⟨60000, rfl, by decide +kernel, by decide +kernel⟩
  refine ⟨hcovered, (aa_validation_skippable_iff _ plainRuntime_lawful agentTransfer 2 []
    (smallContext agentTransfer 2) rfl L1BlockInfo.bounded_empty).mpr ?_⟩
  intro payer hpayer _ _
  cases hpayer
  exact hcovered

end SciChain
