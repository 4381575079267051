import SciChain.Proofs.Quota
import SciChain.Proofs.ScopeRefinement

namespace SciChain
open Library AccountKeychain SciHandler

/-- Deductions write the rows of their own key and nothing else. -/
theorem spendAll_frame (h : spendAll ts root sessionKey kc spends = .ok kc') :
    kc'.keys = kc.keys ∧ ∀ l, l ≠ spendingLimitKey root sessionKey →
      kc'.spendingLimits l = kc.spendingLimits l := by
  let P := fun s : AccountKeychain => s.keys = kc.keys ∧
    ∀ l, l ≠ spendingLimitKey root sessionKey → s.spendingLimits l = kc.spendingLimits l
  refine foldlM_invariant (P := P) (fun s spend s' _ hs hok => ?_) ⟨rfl, fun _ _ => rfl⟩ h
  rcases verifyAndUpdateSpending_ok hok with ⟨rfl, _⟩ | ⟨_, _, _, row, _, _, rfl⟩
  · exact hs
  · refine ⟨hs.1, fun l hl => ?_⟩
    rw [← hs.2 l hl]
    funext t
    simp [hl]

section Agents

variable {World : Type} {rt : Runtime World} {ctx committed : Context World}
  {aa : BaseAaTransaction} {signer root : Address} {payload : Bytes} {result : ExecutionResult}
  (hrt : rt.Lawful) (htx : ctx.tx = .fromAa aa signer payload) (hroot : aa.root = some root)
  (hreach : KeychainReachable ctx.journal.keychain)
  (h : SciHandler.run rt ctx = .ok (result, committed))
include hrt htx hroot hreach h

/-- Whatever its calls do, a committed transaction of an agent leaves the key records of
all accounts alone, and all spending limits but those of the key that signed it. -/
theorem agent_transaction_frame :
    committed.journal.keychain.keys = ctx.journal.keychain.keys ∧
    ∀ l, l ≠ spendingLimitKey root signer →
      committed.journal.keychain.spendingLimits l = ctx.journal.keychain.spendingLimits l := by
  obtain ⟨p⟩ := exists_phases hrt htx h
  obtain ⟨passed, hpass, hadmin⟩ := p.keychain_spec hrt htx hroot hreach
  obtain ⟨_, hkeys, hrows, _⟩ := runAaKeychainHook_pass hpass
  obtain ⟨settled, hsettle, _, _, hjournal⟩ := executionResult_ok p.result_ok
  obtain ⟨keychain, happly, rfl⟩ :=
    settle_apply ((p.rewarded_sameTx hrt htx).tx.trans htx) hroot hsettle
  rw [applyAaPostExecutionDeductions, mapError_eq_ok] at happly
  have hframe := spendAll_frame ((deductAll_eq_spendAll ..).symm.trans happly)
  rw [hadmin.1, hkeys, hadmin.2.1, hrows] at hframe
  rw [hjournal]
  exact hframe

/-- Every call of a committed transaction of an agent is one that the operations on the
keychain so far allow its key. -/
theorem agent_calls_within_policy
    (hrun : runOk KeychainStep.apply .empty steps = .ok ctx.journal.keychain) {call : AaCall}
    (hcall : call ∈ aa.calls) :
    (CallPolicy.afterAll root signer steps).Accepts call.kind call.input := by
  obtain ⟨p⟩ := exists_phases hrt htx h
  obtain ⟨passed, hpass, _⟩ := p.keychain_spec hrt htx hroot hreach
  obtain ⟨hzero, _, _⟩ := active_of_pass hreach hpass rfl
  obtain ⟨_, _, _, _, hchecks⟩ := runAaKeychainHook_pass hpass
  have hstart : ScopeRepresents root signer .empty .unrestricted := KeyScope.represents_default
  simp only [hookChecks, bind_ok] at hchecks
  obtain ⟨_, _, totals, hfold, _⟩ := hchecks
  obtain ⟨_, _, hstep⟩ := foldlM_mem hfold hcall
  simp only [hookCall, bind_ok, validateCallScopeForTransaction] at hstep
  obtain ⟨_, hscope, _⟩ := hstep
  rw [if_neg (by simpa using hzero)] at hscope
  cases hkind : call.kind with
  | create => simp [hkind] at hscope
  | call target =>
    rw [hkind] at hscope
    exact ((scope_run hstart hrun).validateCall_iff target call.input).mp hscope

end Agents

theorem run_agentTransfer : ∃ committed,
    SciHandler.run (plainRuntime noTokens fun _ => .ok) (smallContext agentTransfer 2) = .ok committed :=
  exists_of_isOk (by decide +kernel)

theorem agent_transaction_frame_transfer : ∃ committed,
    SciHandler.run (plainRuntime noTokens fun _ => .ok) (smallContext agentTransfer 2) = .ok committed ∧
      committed.2.journal.keychain.keys = (smallContext agentTransfer 2).journal.keychain.keys := by
  obtain ⟨committed, h⟩ := run_agentTransfer
  exact ⟨committed, h, (agent_transaction_frame plainRuntime_lawful rfl rfl
    (.of_run agentKeySteps (by decide)) h).1⟩

/-- A transfer of the token that the key is restricted to. -/
def scopedTransfer : BaseAaTransaction :=
  { agentTransfer with calls := [⟨.call 9, 0, transferToSeven⟩] }

def scopedContext : Context Unit :=
  { smallContext scopedTransfer 2 with journal := { (smallContext scopedTransfer 2).journal with
      keychain := run KeychainStep.apply .empty scopedKeyRun } }

theorem agent_calls_within_policy_scoped : ∃ call ∈ scopedTransfer.calls,
    (CallPolicy.afterAll 1 2 scopedKeyRun).Accepts call.kind call.input := by
  obtain ⟨committed, h⟩ : ∃ committed,
      SciHandler.run (plainRuntime noTokens fun _ => .ok) scopedContext = .ok committed :=
    exists_of_isOk (by decide +kernel)
  exact ⟨_, .head _, agent_calls_within_policy plainRuntime_lawful rfl rfl
    (.of_run scopedKeyRun (by decide)) h (runOk_eq_run (by decide +kernel)) (.head _)⟩

end SciChain
