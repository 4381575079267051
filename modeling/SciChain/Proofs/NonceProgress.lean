import SciChain.Proofs.Phases
import SciChain.Proofs.Preflight
import SciChain.Proofs.TxErrors

namespace SciChain
open Library SciHandler AccountKeychain

variable {World : Type} {rt : Runtime World} {ctx : Context World} {aa : BaseAaTransaction}
  {signer : Address} {payload : Bytes}

/-- The first call of the batch creates a contract. -/
def BaseAaTransaction.startsWithCreate (aa : BaseAaTransaction) : Bool :=
  aa.calls.head?.any fun call => call.kind = .create

section Loop

theorem runCalls_nonce_le (hrt : rt.Lawful) (hs : n ≤ (s.ctx.journal.nonce a).toNat)
    (h : runCalls rt caller s calls = .ok (.inl s')) : n ≤ (s'.ctx.journal.nonce a).toNat :=
  runCalls_invariant (P := fun ctx => n ≤ (ctx.journal.nonce a).toNat)
    (fun _ _ _ hctx hexit => Nat.le_trans hctx (hrt.frame_nonce hexit a)) hs h

theorem runCalls_create_lt (hrt : rt.Lawful) {s s' : BatchState World} {call : AaCall}
    (hcreate : call.kind = .create) (hlt : (s.ctx.journal.nonce caller).toNat < 2 ^ 64 - 1)
    (h : runCalls rt caller s (call :: rest) = .ok (.inl s')) :
    (s.ctx.journal.nonce caller).toNat < (s'.ctx.journal.nonce caller).toNat := by
  simp only [runCalls, bind_ok] at h
  obtain ⟨exit, hexit, h⟩ := h
  split at h
  · rename_i hok
    simp only [BatchState.input, Journal.frameInput, hcreate] at hexit
    have hbump := hrt.create_nonce hexit (Or.inl hok) hlt
    exact runCalls_nonce_le hrt (s := s.next exit) hbump h
  · cases h

end Loop

section Agents

theorem authorize_no_create (htx : ctx.tx = .fromAa aa signer payload)
    (hreach : KeychainReachable ctx.journal.keychain) (hroot : aa.root = some root)
    (h : authorize rt ctx = .ok ctx') {call : AaCall} (hcall : call ∈ aa.calls) :
    call.kind ≠ .create := by
  intro hcreate
  obtain ⟨passed, hpass, _⟩ := authorize_pass htx hroot h
  obtain ⟨_, _, _, _, hchecks⟩ := runAaKeychainHook_pass hpass
  obtain ⟨hzero, _, _⟩ := active_of_pass hreach hpass rfl
  have hmain : ¬(signer = 0 ∨ (launchCtx ctx.block.timestamp).spec.isT3 = false) := by
    rintro (hz | ht)
    · exact hzero hz
    · cases ht
  simp only [hookChecks, bind_ok] at hchecks
  obtain ⟨_, _, totals, hfold, _⟩ := hchecks
  obtain ⟨_, _, hstep⟩ := foldlM_mem hfold hcall
  simp only [hookCall, bind_ok, hcreate, validateCallScopeForTransaction] at hstep
  obtain ⟨_, hscope, _⟩ := hstep
  rw [if_neg hmain] at hscope
  cases hscope

end Agents

section Kind

theorem fromAa_kind {tx : BaseTransaction} (h : tx = .fromAa aa signer payload) :
    tx.base.kind = (aa.calls.head?.map (·.kind)).getD .create := by
  rw [h]
  simp only [BaseTransaction.fromAa, TxEnv.fromRecoveredTx, BaseAaTransaction.toEip1559FirstCall]
  cases aa.calls.head? <;> rfl

variable {result : ExecutionResult} {committed : Context World}

section

variable (hrt : rt.Lawful) (p : Phases rt ctx result committed)
  (htx : ctx.tx = .fromAa aa signer payload)
include hrt p htx

/-- The nonce the body ends with, for a batch that begins with a call. -/
theorem Phases.nonce_of_call {call : AaCall} (hcalls : aa.calls = call :: rest)
    (hkind : call.kind.isCall = true) :
    (satAdd (ctx.journal.nonce signer) 1).toNat ≤ (p.executed.journal.nonce signer).toNat := by
  have hdeducted : p.deducted.journal.nonce signer = satAdd (ctx.journal.nonce signer) 1 := by
    rw [validate_nonce htx p.deduct_ok, fromAa_kind htx, hcalls]
    exact if_pos hkind
  refine p.body_invariant (P := fun j => (satAdd (ctx.journal.nonce signer) 1).toNat ≤
    (j.nonce signer).toNat) hrt htx (fun _ _ _ hle hexit => ?_)
    (Nat.le_of_eq (congrArg BitVec.toNat hdeducted.symm))
  exact Nat.le_trans hle (hrt.frame_nonce hexit signer)

theorem Phases.nonce_of_empty (hcalls : aa.calls = [])
    (hlt : (ctx.journal.nonce signer).toNat < 2 ^ 64 - 1) :
    (ctx.journal.nonce signer).toNat < (p.executed.journal.nonce signer).toNat := by
  have hdeducted : p.deducted.journal.nonce signer = ctx.journal.nonce signer := by
    rw [validate_nonce htx p.deduct_ok, fromAa_kind htx, hcalls]
    rfl
  rcases p.body_cases htx with ⟨_, hbody⟩ | ⟨hne, _⟩
  · have htx' := p.tx_eq htx
    have hkind : p.deducted.tx.base.kind = .create := by
      rw [fromAa_kind htx', hcalls]
      rfl
    simp only [BaseHandler.execution, bind_ok, pure_eq, Except.ok.injEq, Prod.mk.injEq, hkind,
      Journal.frameInput, fromAa_caller htx', fromAa_value htx'] at hbody
    obtain ⟨exit, hexit, _, hexecuted⟩ := hbody
    rw [← hexecuted, ← hdeducted]
    refine hrt.create_nonce hexit (Or.inr rfl) ?_
    rw [hdeducted]
    exact hlt
  · exact absurd hcalls hne

end

/-- The batch as it stands when its body starts: the caller is charged, and all
the gas that the initial gas leaves is there. -/
def Context.batchStart (rt : Runtime World) (ctx : Context World) : BatchState World where
  ctx := ctx.deducted rt
  remaining := ctx.tx.base.gasLimit.toNat -
    (okOr ⟨0, 0⟩ (rt.validateInitialTxGas ctx.tx ctx.cfg)).initialGas
  refund := 0
  last := none

theorem Phases.batchStart_eq (p : Phases rt ctx result committed)
    (htx : ctx.tx = .fromAa aa signer payload) :
    ctx.batchStart rt =
      ⟨p.deducted, p.deducted.tx.base.gasLimit.toNat - p.initial.initialGas, 0, none⟩ := by
  have hsame : p.deducted.tx = ctx.tx := (p.tx_eq htx).trans htx.symm
  rw [Context.batchStart, p.deducted_eq, okOr_of_eq p.initial_ok, hsame]

/-- A batch that begins with a creation raises the nonce if all its calls
succeed, and loses the creation's bump with the rest of the batch if they do not. -/
theorem Phases.nonce_of_create (hrt : rt.Lawful) (p : Phases rt ctx result committed)
    (htx : ctx.tx = .fromAa aa signer payload) (hreach : KeychainReachable ctx.journal.keychain)
    {call : AaCall} (hcalls : aa.calls = call :: rest) (hkind : call.kind = .create) :
    (CallsSucceed rt (aa.root.getD signer) (ctx.batchStart rt) aa.calls →
      (ctx.journal.nonce signer).toNat < 2 ^ 64 - 1 →
      (ctx.journal.nonce signer).toNat < (p.executed.journal.nonce signer).toNat) ∧
    (¬CallsSucceed rt (aa.root.getD signer) (ctx.batchStart rt) aa.calls →
      p.executed.journal.nonce signer = ctx.journal.nonce signer) := by
  have hdeducted : p.deducted.journal.nonce signer = ctx.journal.nonce signer := by
    rw [validate_nonce htx p.deduct_ok, fromAa_kind htx, hcalls]
    simp [hkind, TxKind.isCall]
  have hroot : aa.root = none := by
    cases hroot : aa.root with
    | none => rfl
    | some root =>
      obtain ⟨charged, hdeduct, hauthorize⟩ := validate_ok p.deduct_ok
      obtain ⟨hsame, _, hkeychain, _⟩ := deductCaller_ok htx hdeduct
      have hmem : call ∈ aa.calls := by rw [hcalls]; exact List.mem_cons_self
      exact absurd hkind (authorize_no_create (hsame.tx.trans htx) (by rw [hkeychain]; exact hreach)
        hroot hauthorize hmem)
  rcases p.body_cases htx with ⟨hnil, _⟩ | ⟨_, hbatch⟩
  · rw [hcalls] at hnil
    cases hnil
  · have hends := (executeAaBatch_cases hrt hbatch).2
    rw [fromAa_caller (p.tx_eq htx), ← p.batchStart_eq htx] at hends
    rcases hends with ⟨_, s, hrun, hexecuted⟩ | ⟨_, hjournal, hfails⟩
    · refine ⟨fun _ hlt => ?_, fun hne => absurd (runCalls_inl_iff.mp ⟨s, hrun⟩) hne⟩
      rw [hcalls, hroot, Option.getD_none, p.batchStart_eq htx] at hrun
      rw [hexecuted, ← hdeducted]
      refine runCalls_create_lt hrt hkind ?_ hrun
      rw [hdeducted]
      exact hlt
    · refine ⟨fun hok => absurd hok hfails, fun _ => ?_⟩
      rw [hjournal, hdeducted]

end Kind

/-- A committed AA transaction raises its signer's nonce exactly when the nonce
can still be raised and, if the batch begins with a creation, the EVM carries out
every call of it. -/
theorem aa_nonce_advances_iff (rt : Runtime World) (hrt : rt.Lawful) (aa : BaseAaTransaction)
    (signer : Address) (payload : Bytes) (ctx : Context World)
    (htx : ctx.tx = .fromAa aa signer payload)
    (hreach : KeychainReachable ctx.journal.keychain) (result : ExecutionResult)
    (committed : Context World) (h : SciHandler.run rt ctx = .ok (result, committed)) :
    (ctx.journal.nonce signer).toNat < (committed.journal.nonce signer).toNat ↔
      (ctx.journal.nonce signer).toNat < 2 ^ 64 - 1 ∧
        (aa.startsWithCreate = true →
          CallsSucceed rt (aa.root.getD signer) (ctx.batchStart rt) aa.calls) := by
  obtain ⟨p⟩ := exists_phases hrt htx h
  rw [p.nonce_eq hrt signer]
  cases hcalls : aa.calls with
  | nil =>
    have hfirst : aa.startsWithCreate = false := by
      simp [BaseAaTransaction.startsWithCreate, hcalls]
    have hempty := p.nonce_of_empty hrt htx hcalls
    rw [hfirst]
    constructor
    · intro hlt
      exact ⟨by omega, nofun⟩
    · rintro ⟨hlt, _⟩
      exact hempty hlt
  | cons call rest =>
    cases hkind : call.kind with
    | call target =>
      have hfirst : aa.startsWithCreate = false := by
        simp [BaseAaTransaction.startsWithCreate, hcalls, hkind]
      have hle := p.nonce_of_call hrt htx hcalls (by rw [hkind]; rfl)
      rw [toNat_satAdd, show (1 : U64).toNat = 1 from rfl] at hle
      rw [hfirst]
      constructor
      · intro hlt
        exact ⟨by omega, nofun⟩
      · rintro ⟨hlt, _⟩
        omega
    | create =>
      have hfirst : aa.startsWithCreate = true := by
        simp [BaseAaTransaction.startsWithCreate, hcalls, hkind]
      obtain ⟨hsuccess, hfailure⟩ := p.nonce_of_create hrt htx hreach hcalls hkind
      rw [hcalls] at hsuccess hfailure
      rw [hfirst]
      constructor
      · intro hlt
        refine ⟨by omega, fun _ => ?_⟩
        by_contra hne
        rw [hfailure hne] at hlt
        exact Nat.lt_irrefl _ hlt
      · rintro ⟨hlt, hok⟩
        exact hsuccess (hok rfl) hlt

/-- A plain batch of account 1 that begins with a creation. -/
def creatingBatch : BaseAaTransaction :=
  { agentTransfer with calls := [⟨.create, 0, []⟩], root := none, feePayer := none }

/-- The batch is committed as reverted, the nonce stays at zero, and the same
transaction is committed a second time. -/
theorem reverted_creation_replays :
    (SciHandler.run (plainRuntime noTokens fun _ => .revert)
      (smallContext creatingBatch 1)).toOption.map (fun r => (r.1, r.2.journal.nonce 1)) =
        some (.revert 21000, 0) ∧
    ((SciHandler.run (plainRuntime noTokens fun _ => .revert)
      (smallContext creatingBatch 1)).toOption.bind fun r =>
        (SciHandler.run (plainRuntime noTokens fun _ => .revert) r.2).toOption.map (·.1)) =
        some (.revert 21000) := by
  decide +kernel

/-- The agent's transfer raises the nonce of its session key. -/
theorem aa_nonce_advances_iff_transfer :
    ∃ result committed, SciHandler.run (plainRuntime noTokens fun _ => .ok)
        (smallContext agentTransfer 2) = .ok (result, committed) ∧
      ((smallContext agentTransfer 2).journal.nonce 2).toNat <
        (committed.journal.nonce 2).toNat := by
  obtain ⟨⟨result, committed⟩, h⟩ := exists_of_isOk (show (SciHandler.run
    (plainRuntime noTokens fun _ => .ok) (smallContext agentTransfer 2)).isOk = true by
      decide +kernel)
  refine ⟨result, committed, h, (aa_nonce_advances_iff _ plainRuntime_lawful agentTransfer 2 []
    (smallContext agentTransfer 2) rfl (.of_run agentKeySteps (by decide)) result committed h).mpr
    ⟨by decide, fun hc => ?_⟩⟩
  cases hc

end SciChain
