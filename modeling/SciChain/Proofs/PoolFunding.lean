import SciChain.Proofs.Sponsor
import SciChain.TxPool.Validator

namespace SciChain
open Library SciHandler TxPool BaseTransaction

variable {World : Type} {rt : Runtime World} {ctx : Context World}

/-- The library's spending of a transaction fails only where the gas limit at the fee cap does
not fit 128 bits, or its sum with the value a word. -/
def Runtime.ChecksSpending (rt : Runtime World) : Prop :=
  ∀ tx, tx.base.gasLimit.toNat * tx.base.gasPrice.toNat < 2 ^ 128 →
    tx.base.gasLimit.toNat * tx.base.gasPrice.toNat + tx.base.value.toNat < 2 ^ 256 →
    ∃ most, rt.maxBalanceSpending tx = .ok most

def callValues : List AaCall → Nat
  | [] => 0
  | call :: calls => call.value.toNat + callValues calls

theorem callValues_take_le (calls : List AaCall) (n : Nat) :
    callValues (calls.take n) ≤ callValues calls := by
  induction calls generalizing n with
  | nil => simp
  | cons call calls ih =>
    cases n with
    | zero => exact Nat.zero_le _
    | succ n => exact Nat.add_le_add_left (ih n) _

/-- What the signer pays for the gas limit at a price and for the values of the
first calls of the batch: nothing for gas with a sponsor, nothing for values
unless the batch runs in the signer's own name. -/
def signerDebit (aa : BaseAaTransaction) (signer : Address) (payload : Bytes) (price ran : Nat) :
    Nat :=
  (if (BaseTransaction.fromAa aa signer payload).sponsor = none
    then price * aa.gasLimit.toNat else 0) +
  (if aa.root.getD signer = signer then callValues (aa.calls.take ran) else 0)

theorem signerDebit_mono (aa : BaseAaTransaction) (signer : Address) (payload : Bytes)
    (h : price ≤ aa.maxFeePerGas.toNat) (ran : Nat) :
    signerDebit aa signer payload price ran ≤
      signerDebit aa signer payload aa.maxFeePerGas.toNat aa.calls.length := by
  have hgas := Nat.mul_le_mul_right aa.gasLimit.toNat h
  have hvalues := callValues_take_le aa.calls ran
  unfold signerDebit
  rw [List.take_length]
  split <;> split <;> omega

/-- What frames at depth zero send in the name of an account. -/
def sentBy (a : Address) : List FrameInput → Nat
  | [] => 0
  | .call inputs :: rest => (if inputs.caller = a then inputs.value.toNat else 0) + sentBy a rest
  | .create inputs :: rest => (if inputs.caller = a then inputs.value.toNat else 0) + sentBy a rest

/-- The frames the loop over the calls runs, the one that fails included. -/
def frameInputs (rt : Runtime World) (caller : Address) :
    BatchState World → List AaCall → List FrameInput
  | _, [] => []
  | s, call :: rest => s.input caller call ::
    match rt.runExecLoop s.ctx (s.input caller call) with
    | .error _ => []
    | .ok exit => if exit.frame.result = .ok then frameInputs rt caller (s.next exit) rest else []

theorem sentBy_cons (a caller : Address) (s : BatchState World) (call : AaCall)
    (rest : List FrameInput) : sentBy a (s.input caller call :: rest) =
      (if caller = a then call.value.toNat else 0) + sentBy a rest := by
  unfold BatchState.input Journal.frameInput
  cases call.kind <;> rfl

theorem sentBy_frameInputs (a caller : Address) (s : BatchState World) (calls : List AaCall) :
    sentBy a (frameInputs rt caller s calls) =
      if caller = a then callValues (calls.take (frameInputs rt caller s calls).length) else 0 := by
  induction calls generalizing s with
  | nil => simp [frameInputs, sentBy, callValues]
  | cons call rest ih =>
    rw [frameInputs, sentBy_cons, List.length_cons, List.take_succ_cons, callValues]
    cases rt.runExecLoop s.ctx (s.input caller call) with
    | error e => simp [sentBy, callValues]
    | ok exit =>
      dsimp only
      by_cases hok : exit.frame.result = .ok
      · rw [if_pos hok, ih]
        split <;> omega
      · rw [if_neg hok]
        simp [sentBy, callValues]

theorem length_frameInputs (h : runCalls rt caller s calls = .ok (.inl s')) :
    (frameInputs rt caller s calls).length = calls.length := by
  induction calls generalizing s with
  | nil => rfl
  | cons call rest ih =>
    simp only [runCalls, bind_ok] at h
    obtain ⟨exit, hrun, h⟩ := h
    simp only [frameInputs, hrun, List.length_cons]
    cases hr : exit.frame.result with
    | ok =>
      rw [hr] at h
      rw [if_pos rfl, ih h]
    | revert =>
      rw [hr] at h
      cases h
    | halt =>
      rw [hr] at h
      cases h

theorem toNat_addValues (cost : U256) (calls : List AaCall) :
    (addValues cost calls).toNat = min (cost.toNat + callValues calls) (2 ^ 256 - 1) := by
  induction calls generalizing cost with
  | nil =>
    simp only [addValues, List.foldl_nil, callValues]
    omega
  | cons call calls ih =>
    have hstep := ih (satAdd cost call.value)
    rw [toNat_satAdd] at hstep
    simp only [addValues, List.foldl_cons, callValues] at hstep ⊢
    omega

theorem toNat_gasCost (aa : BaseAaTransaction) :
    (gasCost aa).toNat = aa.maxFeePerGas.toNat * aa.gasLimit.toNat :=
  toNat_satMul_setWidth _ _ (by decide)

section

variable (aa : BaseAaTransaction) (signer : Address) (payload : Bytes)
include aa signer payload

theorem sponsor_fromAa :
    (BaseTransaction.fromAa aa signer payload).sponsor =
      aa.feePayer.filter fun payer => payer ≠ signer := rfl

theorem sponsor_eq_none :
    (BaseTransaction.fromAa aa signer payload).sponsor = none ↔
      aa.feePayer = none ∨ aa.feePayer = some signer := by
  rw [sponsor_fromAa]
  cases aa.feePayer <;> simp

theorem toNat_aaSignerPoolCost :
    (aaSignerPoolCost aa signer).toNat =
      min (signerDebit aa signer payload aa.maxFeePerGas.toNat aa.calls.length)
        (2 ^ 256 - 1) := by
  have hroot : aa.root.getD signer = signer ↔ aa.root = none ∨ aa.root = some signer := by
    cases aa.root <;> simp
  have hgas := toNat_gasCost aa
  have hzero : (0 : U256).toNat = 0 := rfl
  simp only [aaSignerPoolCost, signerDebit, sponsor_eq_none, hroot, List.take_length]
  split <;> split <;> simp only [toNat_addValues, toNat_satAdd, hzero] <;> omega

end

namespace TxPool.Validator

variable {v : Validator} {tx : PooledTransaction} {keccak256 : Bytes → B256}

/-- The pool and a block about to run the transaction share state, L1
information and upgrade. -/
structure Sees (v : Validator) (tx : PooledTransaction) (ctx : Context World) : Prop where
  tx_eq : ctx.tx = .fromAa tx.aa tx.sender tx.payload
  balance : ∀ a, v.accountBalance a = ctx.journal.balance a
  info : ctx.fetchL1Block.chain = v.l1BlockInfo
  spec : ctx.cfg.spec = v.specId
  bounded : ctx.chain.Bounded

theorem Sees.l1Cost_eq (h : v.Sees tx ctx) : (v.l1Cost tx).toNat = ctx.quotedCost := by
  unfold Context.quotedCost L1BlockInfo.additionalCost L1BlockInfo.txCostWithTx
  rw [h.info, h.spec, h.tx_eq]
  rfl

theorem Sees.sponsor_eq (h : v.Sees tx ctx) : ctx.tx.sponsor = tx.sponsor := by
  rw [h.tx_eq]
  rfl

theorem validateAa_ok (hl1 : v.requiresL1DataGasFee = true)
    (h : v.validateAa keccak256 tx = .ok ()) :
    (tx.sponsor = none → (satAdd tx.cost (v.l1Cost tx)).toNat ≤
      (v.accountBalance tx.sender).toNat) ∧
    ∀ payer, tx.sponsor = some payer →
      (satAdd (satAdd (gasCost tx.aa) (addValues 0 tx.aa.calls)) (v.l1Cost tx)).toNat ≤
        (v.accountBalance payer).toNat := by
  simp only [validateAa, bind_ok] at h
  obtain ⟨_, hbase, _, hsponsor, -⟩ := h
  constructor
  · intro hnone
    simp only [applyBaseChecks, hl1, Bool.true_eq_false, if_false, reject_bind_ok, reject_ok]
      at hbase
    exact Nat.le_of_not_lt fun hlt => hbase.2 ⟨hnone, hlt⟩
  · intro payer hpayer
    simp only [checkAaSponsorBalance, hpayer, hl1, if_true, reject_ok] at hsponsor
    exact Nat.le_of_not_lt hsponsor

end TxPool.Validator

/-- The advance leaves the signer's account as it was, its balance apart. -/
theorem prefundSigner_account (hne : payer ≠ ctx.tx.base.caller)
    (h : prefundSigner rt ctx payer = .ok pre) :
    ∃ balance, pre.journal.accounts ctx.tx.base.caller =
      { ctx.journal.accounts ctx.tx.base.caller with balance } := by
  obtain ⟨chain, hfetch, -, -⟩ := ctx.fetchL1Block_eq
  unfold prefundSigner at h
  simp only [hfetch, bind_ok, mapError_eq_ok, pure_eq, Except.ok.injEq] at h
  obtain ⟨_, -, journal, hmove, rfl⟩ := h
  simp only [Journal.transfer, if_neg hne, reject_bind_ok, pure_eq, Except.ok.injEq] at hmove
  obtain ⟨-, -, rfl⟩ := hmove
  simp only [Journal.setBalance, Function.update_self, Function.update_of_ne hne.symm]
  exact ⟨_, rfl⟩

section Admission

variable {v : Validator} {tx : PooledTransaction} {keccak256 : Bytes → B256}

section

variable (hrt : rt.Lawful) (hspending : rt.ChecksSpending) (hsees : v.Sees tx ctx)
  (hgas : tx.aa.gasLimit.toNat * tx.aa.maxFeePerGas.toNat < 2 ^ 128)
include hrt hspending hsees hgas

/-- What the handler takes for the most that an AA transaction can spend on gas. -/
theorem spending_eq : ∃ most, rt.maxBalanceSpending ctx.tx = .ok most ∧
    most.toNat = tx.aa.maxFeePerGas.toNat * tx.aa.gasLimit.toNat := by
  have htx := hsees.tx_eq
  have hvalue : ctx.tx.base.value.toNat = 0 := by
    rw [fromAa_value htx]
    rfl
  rw [← fromAa_gasLimit htx, ← fromAa_gasPrice htx] at hgas ⊢
  obtain ⟨most, hmost⟩ := hspending ctx.tx hgas (by omega)
  have hspent := hrt.maxBalanceSpending_eq hmost
  rw [hvalue, Nat.mul_comm] at hspent
  exact ⟨most, hmost, hspent⟩

theorem deduct_unsponsored (hcharges : ctx.cfg.Charges) (hnone : tx.sponsor = none)
    (hfunds : (satAdd tx.cost (v.l1Cost tx)).toNat ≤ (v.accountBalance tx.sender).toNat)
    (hnonce : rt.validateAccountNonceAndCode (ctx.journal.accounts tx.sender) ctx.tx ctx.cfg =
      .ok ()) :
    ∃ ctx', BaseHandler.validateAgainstStateAndDeductCaller rt ctx = .ok ctx' ∧
      (ctx'.journal.balance tx.sender).toNat +
          (rt.effectiveGasPrice ctx.tx (ctx.block.basefee.setWidth 128)).toNat *
            tx.aa.gasLimit.toNat + ctx.quotedCost =
        (ctx.journal.balance tx.sender).toNat := by
  have htx := hsees.tx_eq
  have hcaller : ctx.tx.base.caller = tx.sender := fromAa_caller htx
  obtain ⟨most, hmost, hspent⟩ := spending_eq hrt hspending hsees hgas
  have hquote : ctx.additionalCost = ctx.quotedCost := by
    simp [Context.additionalCost, hcharges.1]
  -- The pooled cost is at least the gas at the fee cap, and the advance fits a word.
  have hadvance := toNat_advance hrt htx hsees.bounded hmost
  have hcost := toNat_aaSignerPoolCost tx.aa tx.sender tx.payload
  have hpooled : tx.aa.maxFeePerGas.toNat * tx.aa.gasLimit.toNat ≤
      signerDebit tx.aa tx.sender tx.payload tx.aa.maxFeePerGas.toNat tx.aa.calls.length := by
    rw [signerDebit, if_pos (show (fromAa ..).sponsor = none from hnone)]
    exact Nat.le_add_right _ _
  have hle : most.toNat + ctx.additionalCost ≤
      (ctx.journal.balance ctx.tx.base.caller).toNat := by
    have hword := BitVec.isLt
      (satAdd most (ctx.fetchL1Block.chain.additionalCost ctx.tx ctx.cfg.spec))
    rw [toNat_satAdd, hsees.l1Cost_eq] at hfunds
    unfold PooledTransaction.cost at hfunds
    rw [hcaller, ← hsees.balance, hquote]
    omega
  obtain ⟨ctx', hdeduct⟩ := BaseHandler.deduct_of_funds hrt (fromAa_isDeposit htx)
    (fromAa_envelopedTx htx) (by rw [hcaller]; exact hnonce) hmost hle
  refine ⟨ctx', hdeduct, ?_⟩
  obtain ⟨funds, left, hleft, hfee, hded⟩ := BaseHandler.deduct_ok (fromAa_isDeposit htx) hdeduct
  have hexact := hrt.callerFee_exact hcharges hfee
  rw [fromAa_gasLimit htx] at hexact
  rw [hcaller] at hleft
  rw [← hcaller, hded.balance, hcaller]
  omega

/-- A sponsor that covers the whole cost can advance the gas, and is paid back. -/
theorem deduct_sponsored (hpayer : tx.sponsor = some payer)
    (hfunds : (satAdd (satAdd (gasCost tx.aa) (addValues 0 tx.aa.calls)) (v.l1Cost tx)).toNat ≤
      (v.accountBalance payer).toNat) (hnonce : ∀ balance, rt.validateAccountNonceAndCode
      { ctx.journal.accounts tx.sender with balance } ctx.tx ctx.cfg = .ok ())
    (hroom : (ctx.journal.balance tx.sender).toNat + (ctx.journal.balance payer).toNat < 2 ^ 256) :
    ∃ ctx', deductSponsored rt ctx payer = .ok ctx' ∧
      ctx'.journal.balance tx.sender = ctx.journal.balance tx.sender := by
  have htx := hsees.tx_eq
  have hcaller : ctx.tx.base.caller = tx.sender := fromAa_caller htx
  have hne : payer ≠ tx.sender := by
    have := sponsor_ne (hsees.sponsor_eq.trans hpayer)
    rwa [hcaller] at this
  obtain ⟨most, hmost, hspent⟩ := spending_eq hrt hspending hsees hgas
  have hadvance := toNat_advance hrt htx hsees.bounded hmost
  have hcovers : most.toNat + ctx.quotedCost ≤ (ctx.journal.balance payer).toNat := by
    have hword := BitVec.isLt
      (satAdd most (ctx.fetchL1Block.chain.additionalCost ctx.tx ctx.cfg.spec))
    rw [toNat_satAdd, toNat_satAdd, hsees.l1Cost_eq, toNat_gasCost] at hfunds
    rw [← hsees.balance]
    omega
  obtain ⟨pre, hpre⟩ := (prefundSigner_isOk hrt htx hsees.bounded hne).mpr
    ⟨most, hmost, hcovers, by omega⟩
  obtain ⟨balance, haccount⟩ := prefundSigner_account (by rw [hcaller]; exact hne) hpre
  rw [hcaller] at haccount
  obtain ⟨ctx', hctx'⟩ := deductSponsored_of_prefund hrt htx hsees.bounded hne hpre
    (by rw [haccount]; exact hnonce balance)
  obtain ⟨_, _, -, -, hsponsored, -⟩ := deductSponsored_ok hrt htx hsees.bounded hne hctx'
  have hsame := hsponsored.signer_eq
  rw [hcaller] at hsame
  exact ⟨ctx', hctx', hsame⟩

end

/-- What the pool admits on funds the handler can charge: pre-funding, inner
deduction and reconciliation succeed and take from the signer, besides the
quoted cost, what its debit says for gas; the frames of the batch send in its
name what the debit says for values; and its pooled cost is the largest debit. -/
theorem admission_mirrors_funding (hrt : rt.Lawful) (hspending : rt.ChecksSpending)
    (hsees : v.Sees tx ctx) (hgas : tx.aa.gasLimit.toNat * tx.aa.maxFeePerGas.toNat < 2 ^ 128)
    (hcharges : ctx.cfg.Charges) (hl1 : v.requiresL1DataGasFee = true)
    (haccept : v.validateAa keccak256 tx = .ok ())
    (hnonce : ∀ balance, rt.validateAccountNonceAndCode
      { ctx.journal.accounts tx.sender with balance } ctx.tx ctx.cfg = .ok ())
    (hroom : ∀ payer, tx.sponsor = some payer →
      (ctx.journal.balance tx.sender).toNat + (ctx.journal.balance payer).toNat < 2 ^ 256) :
    (∃ ctx', deductCaller rt ctx = .ok ctx' ∧
      (ctx'.journal.balance tx.sender).toNat +
          signerDebit tx.aa tx.sender tx.payload
            (rt.effectiveGasPrice ctx.tx (ctx.block.basefee.setWidth 128)).toNat 0 +
          (if tx.sponsor = none then ctx.quotedCost else 0) =
        (ctx.journal.balance tx.sender).toNat) ∧
    (rt.effectiveGasPrice ctx.tx (ctx.block.basefee.setWidth 128)).toNat ≤
      tx.aa.maxFeePerGas.toNat ∧
    (∀ s : BatchState World,
      sentBy tx.sender (frameInputs rt (tx.aa.root.getD tx.sender) s tx.aa.calls) =
        signerDebit tx.aa tx.sender tx.payload 0
          (frameInputs rt (tx.aa.root.getD tx.sender) s tx.aa.calls).length ∧
      ∀ s', runCalls rt (tx.aa.root.getD tx.sender) s tx.aa.calls = .ok (.inl s') →
        (frameInputs rt (tx.aa.root.getD tx.sender) s tx.aa.calls).length =
          tx.aa.calls.length) ∧
    (∀ price ≤ tx.aa.maxFeePerGas.toNat, ∀ ran,
      signerDebit tx.aa tx.sender tx.payload price ran ≤
        signerDebit tx.aa tx.sender tx.payload tx.aa.maxFeePerGas.toNat tx.aa.calls.length) ∧
    tx.cost.toNat = min (signerDebit tx.aa tx.sender tx.payload tx.aa.maxFeePerGas.toNat
      tx.aa.calls.length) (2 ^ 256 - 1) := by
  obtain ⟨hsigner, hsponsor⟩ := Validator.validateAa_ok hl1 haccept
  refine ⟨?_, ?_, fun s => ⟨?_, fun s' => length_frameInputs⟩, fun _ h => signerDebit_mono _ _ _ h,
    toNat_aaSignerPoolCost _ _ _⟩
  · unfold deductCaller
    rw [hsees.sponsor_eq]
    cases hpayer : tx.sponsor with
    | none =>
      have haccount := hnonce (ctx.journal.accounts tx.sender).balance
      obtain ⟨ctx', hdeduct, hbalance⟩ := deduct_unsponsored hrt hspending hsees hgas hcharges
        hpayer (hsigner hpayer) haccount
      refine ⟨ctx', hdeduct, ?_⟩
      rw [signerDebit, if_pos (show (fromAa ..).sponsor = none from hpayer)]
      simpa [callValues] using hbalance
    | some payer =>
      obtain ⟨ctx', hdeduct, hbalance⟩ := deduct_sponsored hrt hspending hsees hgas hpayer
        (hsponsor payer hpayer) hnonce (hroom payer hpayer)
      refine ⟨ctx', hdeduct, ?_⟩
      have hsome : (fromAa tx.aa tx.sender tx.payload).sponsor ≠ none := by
        rw [show (fromAa ..).sponsor = some payer from hpayer]
        simp
      rw [signerDebit, if_neg hsome, hbalance]
      simp [callValues]
  · have hle := hrt.effectiveGasPrice_le ctx.tx (ctx.block.basefee.setWidth 128)
    rwa [fromAa_gasPrice hsees.tx_eq] at hle
  · rw [sentBy_frameInputs]
    simp [signerDebit]

end Admission

/-- A pool at the tip that a context of the small chain builds on. -/
def smallValidator (ctx : Context Unit) : Validator where
  requiresL1DataGasFee := true
  l1BlockInfo := ctx.fetchL1Block.chain
  specId := ctx.cfg.spec
  isJovianActive := true
  blockTimestamp := 2000
  blockGasLimit := 30000000
  accountBalance := ctx.journal.balance
  keychainStorage := none

theorem plainRuntime_checksSpending (abi : TokenAbi) (verdict : FrameInput → InstructionResult) :
    (plainRuntime abi verdict).ChecksSpending :=
  fun _ hgas hsum => ⟨_, if_pos ⟨hgas, hsum⟩⟩

/-- The session key without funds, sponsored by its root. -/
theorem admission_mirrors_funding_agent :
    (∃ ctx', deductCaller (plainRuntime noTokens fun _ => .ok) (smallContext agentTransfer 2) =
      .ok ctx') ∧ (aaSignerPoolCost agentTransfer 2).toNat = 0 := by
  have hsees : (smallValidator (smallContext agentTransfer 2)).Sees ⟨agentTransfer, 2, [], 100⟩
      (smallContext agentTransfer 2) :=
    ⟨rfl, fun _ => rfl, rfl, rfl, L1BlockInfo.bounded_empty⟩
  have haccept : (smallValidator (smallContext agentTransfer 2)).validateAa (fun _ => 0)
      ⟨agentTransfer, 2, [], 100⟩ = .ok () := by decide
  obtain ⟨⟨ctx', h, -⟩, -, -, -, hcost⟩ := admission_mirrors_funding plainRuntime_lawful
    (plainRuntime_checksSpending noTokens fun _ => .ok) hsees (by decide) ⟨rfl, rfl⟩ rfl haccept
    (fun _ => by rfl) (fun payer hpayer => by cases hpayer; decide)
  exact ⟨⟨ctx', h⟩, hcost⟩

/-- The small chain with a signer that holds the largest word. -/
def fullContext : Context Unit :=
  { smallContext agentTransfer 2 with
    journal := (smallContext agentTransfer 2).journal.setBalance 2 (maxWord 256) }

def earlyTransfer : BaseAaTransaction := { agentTransfer with nonce := 1 }

/-- A fee cap of 2¹²⁷. -/
def costlyTransfer : BaseAaTransaction :=
  { agentTransfer with maxFeePerGas := BitVec.ofNat 128 (2 ^ 127) }

/-- The small chain with a payer that holds 2¹⁵⁰. -/
def richContext : Context Unit :=
  { smallContext costlyTransfer 2 with
    journal := (smallContext costlyTransfer 2).journal.setBalance 1
      (BitVec.ofNat 256 (2 ^ 150)) }

/-- Admitted all the same: a sponsor's advance that the signer's balance has no
room for, a nonce that is not yet due, and gas that the payer can cover but that does not fit
128 bits. -/
theorem admitted_not_charged :
    ((smallValidator fullContext).validateAa (fun _ => 0) ⟨agentTransfer, 2, [], 100⟩ = .ok () ∧
      deductCaller (plainRuntime noTokens fun _ => .ok) fullContext =
        .error (.custom (.feePayerCannotCoverGas 1 .overflowPayment))) ∧
    ((smallValidator (smallContext earlyTransfer 2)).validateAa (fun _ => 0)
        ⟨earlyTransfer, 2, [], 100⟩ = .ok () ∧
      deductCaller (plainRuntime noTokens fun _ => .ok) (smallContext earlyTransfer 2) =
        .error (.invalid (.nonceTooHigh 1 0))) ∧
    (smallValidator richContext).validateAa (fun _ => 0) ⟨costlyTransfer, 2, [], 100⟩ = .ok () ∧
      deductCaller (plainRuntime noTokens fun _ => .ok) richContext =
        .error (.custom (.maxGasOverflow .overflowPaymentInTransaction)) :=
  ⟨⟨by decide, by rfl⟩, ⟨by decide, by rfl⟩, by decide, by rfl⟩

end SciChain
