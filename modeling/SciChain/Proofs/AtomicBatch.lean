import SciChain.Proofs.Batch

namespace SciChain
open Library SciHandler

variable {World : Type} {rt : Runtime World}

/-- The context the next frame runs in. -/
def FrameExit.after (exit : FrameExit World) (ctx : Context World) : Context World :=
  { ctx with journal := exit.journal, error := exit.error }

/-- The frames of a batch: in the order of the calls, each with exactly the gas
the one before left, up to the first that fails or to the last call. -/
inductive Ran (rt : Runtime World) (caller : Address) :
    Context World → Nat → List AaCall → List (FrameExit World) → Prop
  | last {ctx gas call rest exit}
      (run : rt.runExecLoop ctx
        (ctx.journal.frameInput caller call.kind call.value call.input gas) = .ok exit)
      (stops : exit.frame.result = .ok → rest = []) : Ran rt caller ctx gas (call :: rest) [exit]
  | next {ctx gas call rest exit exits}
      (run : rt.runExecLoop ctx
        (ctx.journal.frameInput caller call.kind call.value call.input gas) = .ok exit)
      (succeeded : exit.frame.result = .ok)
      (tail : Ran rt caller (exit.after ctx) exit.frame.gas.remaining rest exits) :
      Ran rt caller ctx gas (call :: rest) (exit :: exits)

/-- Every frame ends with a result and leaves no more gas than it was given. -/
def Runtime.Frames (rt : Runtime World) : Prop :=
  ∀ ctx input, ∃ exit, rt.runExecLoop ctx input = .ok exit ∧
    exit.frame.gas.remaining ≤ input.gasLimit

/-- The refunds as the loop adds them up. -/
def refundTotal (acc : Int) (exits : List (FrameExit World)) : Int :=
  exits.foldl (fun acc exit => satAddI64 acc exit.frame.gas.refunded) acc

def refundSum : List (FrameExit World) → Int
  | [] => 0
  | exit :: exits => exit.frame.gas.refunded + refundSum exits

def InI64 (n : Int) : Prop := -(2 ^ 63) ≤ n ∧ n < 2 ^ 63

theorem satAddI64_eq (h : InI64 (a + b)) : satAddI64 a b = a + b := by
  obtain ⟨hlo, hhi⟩ := h
  unfold satAddI64
  omega

theorem refundTotal_eq {exits : List (FrameExit World)}
    (h : ∀ n, InI64 (acc + refundSum (exits.take n))) :
    refundTotal acc exits = acc + refundSum exits := by
  induction exits generalizing acc with
  | nil => simp [refundTotal, refundSum]
  | cons exit exits ih =>
    have hone := h 1
    rw [List.take_succ_cons, List.take_zero, refundSum, refundSum, Int.add_zero] at hone
    have hrest : ∀ n, InI64 (acc + exit.frame.gas.refunded + refundSum (exits.take n)) := by
      intro n
      have hn := h (n + 1)
      rwa [List.take_succ_cons, refundSum, ← Int.add_assoc] at hn
    rw [refundTotal, List.foldl_cons, satAddI64_eq hone]
    exact (ih hrest).trans (by rw [refundSum, Int.add_assoc])

/-- How the loop ends, in terms of the frames that ran. -/
theorem runCalls_ran (hframes : rt.Frames) (caller : Address) (s : BatchState World)
    (hcalls : calls ≠ []) :
    ∃ exits final, Ran rt caller s.ctx s.remaining calls exits ∧ exits.getLast? = some final ∧
      final.frame.gas.remaining ≤ s.remaining ∧
      ((final.frame.result = .ok ∧ exits.length = calls.length ∧
          runCalls rt caller s calls = .ok (.inl ⟨final.after s.ctx,
            final.frame.gas.remaining, refundTotal s.refund exits, some final.frame⟩)) ∨
        (final.frame.result ≠ .ok ∧
          runCalls rt caller s calls = .ok (.inr (final.frame, final.after s.ctx)))) := by
  induction calls generalizing s with
  | nil => exact absurd rfl hcalls
  | cons call rest ih =>
    obtain ⟨exit, hexit, hgas⟩ := hframes s.ctx (s.input caller call)
    rw [BatchState.input, gasLimit_frameInput] at hgas
    by_cases hok : exit.frame.result = .ok
    · cases rest with
      | nil =>
        refine ⟨[exit], exit, .last hexit fun _ => rfl, rfl, hgas, Or.inl ⟨hok, rfl, ?_⟩⟩
        simp only [runCalls, hexit, bind_value, hok]
        rfl
      | cons call' rest' =>
        obtain ⟨exits, final, hran, hlast, hleft, hend⟩ := ih (s.next exit) (by simp)
        refine ⟨exit :: exits, final, .next hexit hok hran, ?_, Nat.le_trans hleft hgas, ?_⟩
        · rw [List.getLast?_cons, hlast]
          rfl
        · rw [runCalls, hexit, bind_value]
          simp only [hok]
          rcases hend with ⟨hres, hlen, hrun⟩ | ⟨hres, hrun⟩
          · exact Or.inl ⟨hres, by simp [hlen], hrun⟩
          · exact Or.inr ⟨hres, hrun⟩
    · refine ⟨[exit], exit, .last hexit fun h => absurd h hok, rfl, hgas, Or.inr ⟨hok, ?_⟩⟩
      rw [runCalls, hexit, bind_value]
      split
      · exact absurd ‹_› hok
      · rfl

theorem gas_finalizeBatchGas (frame : FrameResult) (gasLimit remaining : Nat) (refund : Int) :
    (finalizeBatchGas frame gasLimit remaining refund).gas =
      ⟨gasLimit, remaining, max 0 refund⟩ := by
  simp only [finalizeBatchGas, Gas.newSpent, Gas.eraseCost, Gas.recordRefund, Nat.zero_add]
  split <;> simp only [Int.zero_add, Gas.mk.injEq, true_and] <;> omega

/-- A batch commits the changes of all its calls or none, reports as spent what
the last frame did not leave, and records the refunds of a batch that went
through as the 64-bit counter adds them up, never below zero. -/
theorem batch_is_atomic (hframes : rt.Frames) (ctx : Context World) (initial : InitialAndFloorGas)
    {aa : AaTransactionParts} (hcalls : aa.calls ≠ []) :
    ∃ exits final frame executed,
      executeAaBatch rt ctx initial aa = .ok (frame, executed) ∧
      Ran rt (aa.root.getD ctx.tx.base.caller) ctx
        (ctx.tx.base.gasLimit.toNat - initial.initialGas) aa.calls exits ∧
      exits.getLast? = some final ∧ frame.result = final.frame.result ∧
      frame.gas.limit = ctx.tx.base.gasLimit.toNat ∧
      frame.gas.spent = ctx.tx.base.gasLimit.toNat - frame.gas.remaining ∧
      frame.gas.remaining =
        (if final.frame.result = .halt then 0 else final.frame.gas.remaining) ∧
      frame.gas.remaining ≤ ctx.tx.base.gasLimit.toNat - initial.initialGas ∧
      ((final.frame.result = .ok ∧ exits.length = aa.calls.length ∧
          executed.journal = final.journal ∧
          frame.gas.refunded = max 0 (refundTotal 0 exits) ∧
          ((∀ n, InI64 (refundSum (exits.take n))) → 0 ≤ refundSum exits →
            frame.gas.refunded = refundSum exits)) ∨
        (final.frame.result ≠ .ok ∧ executed.journal = ctx.journal ∧ frame.gas.refunded = 0)) := by
  obtain ⟨exits, final, hran, hlast, hleft, hend⟩ :=
    runCalls_ran hframes (aa.root.getD ctx.tx.base.caller)
      ⟨ctx, ctx.tx.base.gasLimit.toNat - initial.initialGas, 0, none⟩ hcalls
  rcases hend with ⟨hres, hlen, hrun⟩ | ⟨hres, hrun⟩
  · refine ⟨exits, final, finalizeBatchGas final.frame ctx.tx.base.gasLimit.toNat
      final.frame.gas.remaining (refundTotal 0 exits), final.after ctx,
      by simp only [executeAaBatch, hrun, bind_value]; rfl, hran, hlast, rfl, ?_⟩
    rw [gas_finalizeBatchGas]
    refine ⟨rfl, rfl, by simp [hres], hleft, Or.inl ⟨hres, hlen, rfl, rfl, ?_⟩⟩
    intro hin hpos
    rw [refundTotal_eq (by simpa using hin)]
    simp only [Int.zero_add]
    omega
  · refine ⟨exits, final, finalizeBatchGas final.frame ctx.tx.base.gasLimit.toNat
      (if final.frame.result = .revert then final.frame.gas.remaining else 0) 0,
      { final.after ctx with journal := ctx.journal },
      by simp only [executeAaBatch, hrun, bind_value]; rfl, hran, hlast, rfl, ?_⟩
    rw [gas_finalizeBatchGas]
    refine ⟨rfl, rfl, ?_, ?_, Or.inr ⟨hres, rfl, rfl⟩⟩
    · cases hr : final.frame.result with
      | ok => exact absurd hr hres
      | revert => simp
      | halt => simp
    · dsimp only
      split <;> omega

/-- A chain whose frames all succeed, use the given part of their gas and earn
the given refund. -/
def refundingRuntime (used : Nat) (refund : Int) : Runtime Unit :=
  { plainRuntime noTokens fun _ => .ok with
    runExecLoop := fun ctx input =>
      .ok ⟨⟨.ok, input.gasLimit, input.gasLimit - used, refund⟩, ctx.journal, none⟩ }

/-- The recorded refund is not the sum of the frames' refunds when that sum is
negative, or when it is beyond the 64-bit counter. -/
theorem refund_not_the_sum :
    (∃ frame executed, executeAaBatch (refundingRuntime 0 (-1)) (smallContext agentTransfer 2)
        ⟨21000, 21000⟩ ⟨[⟨.call 7, 0, []⟩], none, none⟩ = .ok (frame, executed) ∧
      frame.result = .ok ∧ frame.gas.refunded = 0) ∧
    ∃ frame executed, executeAaBatch (refundingRuntime (2 ^ 63 - 1) (2 ^ 63 - 1))
        (smallContext { agentTransfer with gasLimit := maxWord 64 } 2) ⟨0, 0⟩
        ⟨[⟨.call 7, 0, []⟩, ⟨.call 7, 0, []⟩], none, none⟩ = .ok (frame, executed) ∧
      frame.result = .ok ∧ frame.gas.refunded = 2 ^ 63 - 1 :=
  ⟨⟨_, _, rfl, rfl, rfl⟩, ⟨_, _, rfl, rfl, by decide⟩⟩

/-- Calls to account 8 revert. -/
def reverting : FrameInput → InstructionResult
  | .call inputs => if inputs.targetAddress = 8 then .revert else .ok
  | .create _ => .ok

/-- A transfer, and a call that reverts. -/
def transferThenRevert : AaTransactionParts :=
  ⟨[⟨.call 7, 5, []⟩, ⟨.call 8, 0, []⟩], some 1, none⟩

theorem batch_is_atomic_reverted : ∃ frame executed,
    executeAaBatch (plainRuntime noTokens reverting) (smallContext agentTransfer 2)
        ⟨21000, 21000⟩ transferThenRevert = .ok (frame, executed) ∧
      frame.result = .revert ∧ executed.journal = (smallContext agentTransfer 2).journal ∧
      frame.gas.refunded = 0 := by
  have hframes : (plainRuntime noTokens reverting).Frames := fun ctx input =>
    ⟨plainFrame reverting ctx input, rfl, plainFrame_gas ctx input⟩
  obtain ⟨_, final, frame, executed, h, -, -, hresult, -, -, -, -, hend⟩ :=
    batch_is_atomic hframes (smallContext agentTransfer 2) ⟨21000, 21000⟩
      (show transferThenRevert.calls ≠ [] by simp [transferThenRevert])
  have hrevert : frame.result = .revert := by
    have hrun : (executeAaBatch (plainRuntime noTokens reverting) (smallContext agentTransfer 2)
      ⟨21000, 21000⟩ transferThenRevert).map (·.1.result) = .ok .revert := rfl
    rw [h] at hrun
    exact Except.ok.inj hrun
  rcases hend with ⟨hok, -⟩ | ⟨-, hjournal, hrefund⟩
  · rw [hresult, hok] at hrevert
    cases hrevert
  · exact ⟨frame, executed, h, hrevert, hjournal, hrefund⟩

end SciChain
