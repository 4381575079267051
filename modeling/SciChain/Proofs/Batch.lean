import SciChain.Proofs.Sponsor

namespace SciChain
open Library SciHandler

variable {World : Type} {rt : Runtime World}

theorem gasLimit_frameInput (j : Journal World) (caller : Address) (kind : TxKind) (value : U256)
    (input : Bytes) (gasLimit : Nat) :
    (j.frameInput caller kind value input gasLimit).gasLimit = gasLimit := by
  unfold Journal.frameInput
  split <;> rfl

/-- The rule of the loop: `P` is kept by every frame that succeeds, and `Q` is
what the first failing one leaves. -/
theorem runCalls_rule {caller : Address} {P : BatchState World → Prop}
    {Q : FrameResult → Context World → Prop}
    (hok : ∀ s call exit, P s → rt.runExecLoop s.ctx (s.input caller call) = .ok exit →
      exit.frame.result = .ok → P (s.next exit))
    (hfail : ∀ s call exit, P s → rt.runExecLoop s.ctx (s.input caller call) = .ok exit →
      exit.frame.result ≠ .ok → Q exit.frame (s.next exit).ctx) {calls : List AaCall}
    {out : BatchState World ⊕ FrameResult × Context World} (hs : P s)
    (h : runCalls rt caller s calls = .ok out) : Sum.elim P (fun r => Q r.1 r.2) out := by
  induction calls generalizing s with
  | nil =>
    cases h
    exact hs
  | cons call rest ih =>
    simp only [runCalls, bind_ok] at h
    obtain ⟨exit, hexit, h⟩ := h
    split at h
    · rename_i hresult
      exact ih (hok s call exit hs hexit hresult) h
    · rename_i hresult
      cases h
      exact hfail s call exit hs hexit hresult

theorem runCalls_invariant {caller : Address} {P : Context World → Prop}
    (hstep : ∀ ctx input exit, P ctx → rt.runExecLoop ctx input = .ok exit →
      P { ctx with journal := exit.journal, error := exit.error })
    {s s' : BatchState World} {calls : List AaCall} (hs : P s.ctx)
    (h : runCalls rt caller s calls = .ok (.inl s')) : P s'.ctx :=
  runCalls_rule (P := fun s => P s.ctx) (Q := fun _ _ => True)
    (fun _ _ _ hs hexit _ => hstep _ _ _ hs hexit) (fun _ _ _ _ _ _ => trivial) hs h

/-- Every call succeeds when the EVM runs it after the ones before it. -/
def CallsSucceed (rt : Runtime World) (caller : Address) : BatchState World → List AaCall → Prop
  | _, [] => True
  | s, call :: rest => ∃ exit, rt.runExecLoop s.ctx (s.input caller call) = .ok exit ∧
      exit.frame.result = .ok ∧ CallsSucceed rt caller (s.next exit) rest

/-- The loop runs to its end when every call succeeds, and only then. -/
theorem runCalls_inl_iff :
    (∃ s', runCalls rt caller s calls = .ok (.inl s')) ↔ CallsSucceed rt caller s calls := by
  induction calls generalizing s with
  | nil => exact ⟨fun _ => trivial, fun _ => ⟨s, rfl⟩⟩
  | cons call rest ih =>
    simp only [runCalls, bind_ok, CallsSucceed]
    constructor
    · rintro ⟨s', exit, hexit, h⟩
      split at h
      · rename_i hok
        exact ⟨exit, hexit, hok, ih.mp ⟨s', h⟩⟩
      · cases h
    · rintro ⟨exit, hexit, hok, hrest⟩
      obtain ⟨s', h⟩ := ih.mpr hrest
      exact ⟨s', exit, hexit, by simpa only [hok] using h⟩

/-- The state of the loop with respect to where the batch began. -/
structure InBatch (start : Context World) (gas : Nat) (s : BatchState World) : Prop where
  sameTx : start.SameTx s.ctx
  chain : s.ctx.chain = start.chain
  remaining : s.remaining ≤ gas
  last : ∀ frame, s.last = some frame → frame.result = .ok

theorem InBatch.next (hrt : rt.Lawful) (hs : InBatch start gas s)
    (h : rt.runExecLoop s.ctx (s.input caller call) = .ok exit) :
    start.SameTx (s.next exit).ctx ∧ (s.next exit).ctx.chain = start.chain ∧
      exit.frame.gas.remaining ≤ gas := by
  have hgas := hrt.frame_gas h
  rw [BatchState.input, gasLimit_frameInput] at hgas
  exact ⟨⟨hs.sameTx.block, hs.sameTx.tx, hs.sameTx.cfg⟩, hs.chain,
    Nat.le_trans hgas hs.remaining⟩

/-- A batch either ran to its end or left the journal as it was; in both cases
it keeps within the gas after the initial gas. -/
theorem executeAaBatch_cases (hrt : rt.Lawful) {ctx executed : Context World}
    {initial : InitialAndFloorGas} {parts : AaTransactionParts} {frame : FrameResult}
    (h : executeAaBatch rt ctx initial parts = .ok (frame, executed)) :
    (ctx.SameTx executed ∧ executed.chain = ctx.chain ∧
      frame.gas.limit = ctx.tx.base.gasLimit.toNat ∧
      frame.gas.remaining ≤ ctx.tx.base.gasLimit.toNat - initial.initialGas) ∧
    ((frame.result = .ok ∧ ∃ s, runCalls rt (parts.root.getD ctx.tx.base.caller)
        ⟨ctx, ctx.tx.base.gasLimit.toNat - initial.initialGas, 0, none⟩ parts.calls =
          .ok (.inl s) ∧ executed = s.ctx) ∨
      (frame.result ≠ .ok ∧ executed.journal = ctx.journal ∧
        ¬CallsSucceed rt (parts.root.getD ctx.tx.base.caller)
          ⟨ctx, ctx.tx.base.gasLimit.toNat - initial.initialGas, 0, none⟩ parts.calls)) := by
  unfold executeAaBatch at h
  simp only [bind_ok] at h
  obtain ⟨out, hrun, h⟩ := h
  have hstart : InBatch ctx (ctx.tx.base.gasLimit.toNat - initial.initialGas)
      ⟨ctx, ctx.tx.base.gasLimit.toNat - initial.initialGas, 0, none⟩ :=
    ⟨.refl ctx, rfl, Nat.le_refl _, nofun⟩
  have hend := runCalls_rule (P := InBatch ctx (ctx.tx.base.gasLimit.toNat - initial.initialGas))
    (Q := fun frame ctx' => ctx.SameTx ctx' ∧ ctx'.chain = ctx.chain ∧
      frame.gas.remaining ≤ ctx.tx.base.gasLimit.toNat - initial.initialGas ∧
      frame.result ≠ .ok)
    (fun s call exit hs hexit hok => by
      obtain ⟨hsame, hchain, hgas⟩ := hs.next hrt hexit
      refine ⟨hsame, hchain, hgas, fun frame hframe => ?_⟩
      cases hframe
      exact hok)
    (fun s call exit hs hexit hfailed => by
      obtain ⟨hsame, hchain, hgas⟩ := hs.next hrt hexit
      exact ⟨hsame, hchain, hgas, hfailed⟩)
    hstart hrun
  split at h
  · rename_i failing failed
    cases h
    obtain ⟨hsame, hchain, hgas, hfailed⟩ := hend
    dsimp only at hgas
    refine ⟨⟨⟨hsame.block, hsame.tx, hsame.cfg⟩, hchain, ?_, ?_⟩, Or.inr ⟨hfailed, rfl, ?_⟩⟩
    · simp [finalizeBatchGas, Gas.eraseCost, Gas.newSpent]
    · simp only [finalizeBatchGas, Gas.eraseCost, Gas.newSpent, Int.lt_irrefl, if_false]
      split <;> omega
    · rw [← runCalls_inl_iff, hrun]
      rintro ⟨_, hinl⟩
      cases hinl
  · rename_i s
    cases h
    refine ⟨⟨hend.sameTx, hend.chain, ?_, ?_⟩, Or.inl ⟨?_, s, hrun, rfl⟩⟩
    · simp only [finalizeBatchGas, Gas.eraseCost, Gas.newSpent, Gas.recordRefund]
      split <;> rfl
    · have hgas := hend.remaining
      simp only [finalizeBatchGas, Gas.eraseCost, Gas.newSpent, Gas.recordRefund]
      split <;> simpa using hgas
    · simp only [finalizeBatchGas]
      cases hl : s.last with
      | none => rfl
      | some last => exact hend.last last hl

end SciChain
