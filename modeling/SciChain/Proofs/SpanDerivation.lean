import SciChain.Derive.RawSpanBatch

namespace SciChain.Derive
open Library SpanBatchTransactions

section Reading

variable {α : Type} {read : Bytes → Except SpanFailure (α × Bytes)} {n : Nat} {buf rest : Bytes}

theorem length_readMany (h : readMany read n buf = .ok (items, rest)) : items.length = n := by
  induction n generalizing buf rest items with
  | zero =>
    obtain ⟨rfl, -⟩ := Prod.mk.inj (Except.ok.inj h)
    rfl
  | succ n ih =>
    obtain ⟨⟨item, buf'⟩, -, h⟩ := (bind_ok _ _ _).mp h
    obtain ⟨⟨items', buf''⟩, hitems, h⟩ := (bind_ok _ _ _).mp h
    obtain ⟨rfl, -⟩ := Prod.mk.inj (Except.ok.inj h)
    rw [List.length_cons, ih hitems]

theorem SpanBatchBits.length_decode (h : SpanBatchBits.decode buf n = .ok (bits, rest)) :
    bits.length = SpanBatchBits.bufferLen n := by
  unfold SpanBatchBits.decode at h
  dsimp only at h
  split at h
  · cases h
  · obtain ⟨rfl, -⟩ := Prod.mk.inj (Except.ok.inj h)
    rw [List.length_append, List.length_take, List.length_replicate]
    omega

theorem SpanBatchBits.getBit_of_lt (h : bits.length = SpanBatchBits.bufferLen n) (hi : i < n) :
    ∃ b, SpanBatchBits.getBit bits i = some b := by
  have hlt : i / 8 < bits.length := by
    rw [h, SpanBatchBits.bufferLen]
    split
    · omega
    · omega
  exact ⟨_, if_pos hlt⟩

end Reading

/-- The lengths that decoding fixes. -/
structure RawSpanBatch.WellFormed (raw : RawSpanBatch) : Prop where
  blocks : 0 < raw.payload.blockCount.toNat
  bits : raw.payload.originBits.length = SpanBatchBits.bufferLen raw.payload.blockCount.toNat
  counts : raw.payload.blockTxCounts.length = raw.payload.blockCount.toNat
  total : SpanBatchPayload.totalTxCount 0 raw.payload.blockTxCounts =
    .ok raw.payload.txs.totalBlockTxCount.toNat
  data : raw.payload.txs.txData.length = raw.payload.txs.totalBlockTxCount.toNat

section Decoded

variable {buf rest : Bytes}

theorem SpanBatchTransactions.of_decode
    (h : SpanBatchTransactions.decode total buf = .ok (txs, rest)) :
    txs.totalBlockTxCount.toNat = total ∧ txs.txData.length = total := by
  unfold decode at h
  obtain ⟨hmax, h⟩ := (reject_bind_ok _ _ _ _).mp h
  obtain ⟨⟨creations, buf₁⟩, -, h⟩ := (bind_ok _ _ _).mp h
  obtain ⟨⟨sigs, buf₂⟩, -, h⟩ := (bind_ok _ _ _).mp h
  obtain ⟨-, h⟩ := (reject_bind_ok _ _ _ _).mp h
  obtain ⟨⟨tos, buf₃⟩, -, h⟩ := (bind_ok _ _ _).mp h
  obtain ⟨⟨items, buf₄⟩, hitems, h⟩ := (bind_ok _ _ _).mp h
  obtain ⟨⟨nonces, buf₅⟩, -, h⟩ := (bind_ok _ _ _).mp h
  obtain ⟨⟨gases, buf₆⟩, -, h⟩ := (bind_ok _ _ _).mp h
  obtain ⟨-, h⟩ := (reject_bind_ok _ _ _ _).mp h
  obtain ⟨⟨protecteds, buf₇⟩, -, h⟩ := (bind_ok _ _ _).mp h
  obtain ⟨rfl, -⟩ := Prod.mk.inj (Except.ok.inj h)
  refine ⟨?_, ?_⟩
  · have hlt : total < 2 ^ 64 := by
      unfold maxSpanBatchElements at hmax
      omega
    rw [BitVec.toNat_ofNat, Nat.mod_eq_of_lt hlt]
  · rw [List.length_map, length_readMany hitems]

theorem RawSpanBatch.wellFormed_of_decode (h : RawSpanBatch.decode buf = .ok (raw, rest)) :
    raw.WellFormed := by
  unfold RawSpanBatch.decode at h
  obtain ⟨⟨header, buf₁⟩, -, h⟩ := (bind_ok _ _ _).mp h
  obtain ⟨⟨payload, buf₂⟩, hpayload, h⟩ := (bind_ok _ _ _).mp h
  obtain ⟨rfl, -⟩ := Prod.mk.inj (Except.ok.inj h)
  unfold SpanBatchPayload.decode at hpayload
  obtain ⟨⟨blockCount, buf₃⟩, hcount, h⟩ := (bind_ok _ _ _).mp hpayload
  obtain ⟨⟨originBits, buf₄⟩, hbits, h⟩ := (bind_ok _ _ _).mp h
  obtain ⟨⟨counts, buf₅⟩, hcounts, h⟩ := (bind_ok _ _ _).mp h
  obtain ⟨⟨txs, buf₆⟩, htxs, h⟩ := (bind_ok _ _ _).mp h
  obtain ⟨rfl, -⟩ := Prod.mk.inj (Except.ok.inj h)
  unfold SpanBatchPayload.decodeTxs at htxs
  obtain ⟨-, htxs⟩ := (reject_bind_ok _ _ _ _).mp htxs
  obtain ⟨total, htotal, htxs⟩ := (bind_ok _ _ _).mp htxs
  obtain ⟨-, htxs⟩ := (reject_bind_ok _ _ _ _).mp htxs
  obtain ⟨htotal', hdata⟩ := of_decode htxs
  have hpos : 0 < blockCount.toNat := by
    unfold SpanBatchPayload.decodeBlockCount at hcount
    obtain ⟨⟨count, buf₇⟩, -, h⟩ := (bind_ok _ _ _).mp hcount
    obtain ⟨-, h⟩ := (reject_bind_ok _ _ _ _).mp h
    obtain ⟨hne, h⟩ := (reject_bind_ok _ _ _ _).mp h
    obtain ⟨rfl, -⟩ := Prod.mk.inj (Except.ok.inj h)
    rcases Nat.eq_zero_or_pos count.toNat with hzero | hpos
    · exact absurd (BitVec.eq_of_toNat_eq hzero) hne
    · exact hpos
  exact ⟨hpos, SpanBatchBits.length_decode hbits, length_readMany hcounts,
    by rw [htotal']; exact htotal, by rw [hdata, htotal']⟩

end Decoded

section SignedTxs

variable {chainId : U64} {txs : SpanBatchTransactions}

theorem column_ne_panics {α : Type} (xs : List α) (index : Nat) :
    SpanBatchTransactions.column xs index ≠ .error .panics := by
  unfold column
  split
  · simp [spanDecoding, spanError]
  · simp

theorem signedTx_ne_panics (index toIdx protectedIdx : Nat) (data : SpanBatchTransactionData) :
    txs.signedTx chainId index toIdx protectedIdx data ≠ .error .panics := by
  unfold signedTx
  refine bind_ne_error (column_ne_panics _ _) fun nonce => ?_
  refine bind_ne_error (column_ne_panics _ _) fun gas => ?_
  refine bind_ne_error ?_ fun creates => ?_
  · cases SpanBatchBits.getBit txs.contractCreationBits index with
    | none => simp [spanDecoding, spanError]
    | some creates => simp
  refine bind_ne_error ?_ fun recipient => ?_
  · split
    · simp
    · cases hto : column txs.txTos toIdx with
      | error e =>
        have hne := column_ne_panics txs.txTos toIdx
        rw [hto] at hne
        simpa [Except.map] using hne
      | ok address => simp [Except.map]
  refine bind_ne_error (column_ne_panics _ _) fun signature => ?_
  refine bind_ne_error ?_ fun tx => by simp
  cases data.toSignedTx nonce gas recipient chainId signature _ with
  | error e => simp [Except.mapError]
  | ok tx => simp [Except.mapError]

/-- The prices and fees that the data of a transaction states. -/
def SpanBatchTransactionData.prices : SpanBatchTransactionData → List U256
  | .legacy data => [data.gasPrice]
  | .eip2930 data => [data.gasPrice]
  | .eip1559 data => [data.maxPriorityFeePerGas, data.maxFeePerGas]
  | .eip7702 data => [data.maxPriorityFeePerGas, data.maxFeePerGas]

def TxEnvelope.prices : TxEnvelope → List U128
  | .legacy tx _ => [tx.gasPrice]
  | .eip2930 tx _ => [tx.gasPrice]
  | .eip1559 tx _ => [tx.maxPriorityFeePerGas, tx.maxFeePerGas]
  | .eip7702 tx _ => [tx.maxPriorityFeePerGas, tx.maxFeePerGas]

theorem prices_toSignedTx {data : SpanBatchTransactionData}
    (h : data.toSignedTx nonce gas recipient chainId signature isProtected = .ok tx) :
    tx.prices = data.prices.map (·.setWidth 128) := by
  cases data with
  | legacy data => rw [← Except.ok.inj h]; rfl
  | eip2930 data => rw [← Except.ok.inj h]; rfl
  | eip1559 data => rw [← Except.ok.inj h]; rfl
  | eip7702 data =>
    cases recipient with
    | none => cases h
    | some address => rw [← Except.ok.inj h]; rfl

theorem prices_signedTx
    (h : txs.signedTx chainId index toIdx protectedIdx data = .ok (tx, creates)) :
    tx.prices = data.prices.map (·.setWidth 128) := by
  simp only [signedTx, bind_ok, mapError_eq_ok] at h
  obtain ⟨nonce, -, gas, -, creates', -, recipient, -, signature, -, tx', htx, h⟩ := h
  obtain ⟨rfl, -⟩ := Prod.mk.inj (Except.ok.inj h)
  exact prices_toSignedTx htx

/-- A transaction is the data's, with its prices cut to 128 bits. -/
def RebuiltFrom (bytes : Bytes) (tx : TxEnvelope) : Prop :=
  ∃ data, SpanBatchTransactionData.decode bytes = some data ∧
    tx.prices = data.prices.map (·.setWidth 128)

theorem signedTxsFrom_spec (chainId : U64) (txs : SpanBatchTransactions)
    (h : index + left = txs.txData.length) (toIdx protectedIdx : Nat) :
    txs.signedTxsFrom chainId left index toIdx protectedIdx ≠ .error .panics ∧
    ∀ full, txs.signedTxsFrom chainId left index toIdx protectedIdx = .ok full →
      List.Forall₂ RebuiltFrom (txs.txData.drop index) full := by
  induction left generalizing index toIdx protectedIdx with
  | zero =>
    refine ⟨by simp [signedTxsFrom], fun full hfull => ?_⟩
    rw [← Except.ok.inj hfull, List.drop_of_length_le (by omega)]
    exact .nil
  | succ left ih =>
    have hlt : index < txs.txData.length := by omega
    unfold signedTxsFrom
    rw [List.getElem?_eq_getElem hlt, List.drop_eq_getElem_cons hlt]
    dsimp only
    cases hdata : SpanBatchTransactionData.decode txs.txData[index] with
    | none => simp [spanDecoding, spanError]
    | some data =>
      dsimp only
      refine ⟨?_, fun full hfull => ?_⟩
      · refine bind_ne_error (signedTx_ne_panics _ _ _ _) fun built => ?_
        exact bind_ne_error (ih (by omega) _ _).1 fun rest => by simp
      · obtain ⟨⟨tx, creates⟩, htx, hfull⟩ := (bind_ok _ _ _).mp hfull
        obtain ⟨rest, hrest, hfull⟩ := (bind_ok _ _ _).mp hfull
        rw [← Except.ok.inj hfull]
        exact .cons ⟨data, hdata, prices_signedTx htx⟩ ((ih (by omega) _ _).2 rest hrest)

/-- The prices of a transaction are those of its data. -/
def KeepsPrices (bytes : Bytes) (tx : TxEnvelope) : Prop :=
  ∃ data, SpanBatchTransactionData.decode bytes = some data ∧
    tx.prices.map BitVec.toNat = data.prices.map BitVec.toNat

/-- The prices of some data fit 128 bits. -/
def PricesFit (bytes : Bytes) : Prop :=
  ∀ data, SpanBatchTransactionData.decode bytes = some data →
    ∀ price ∈ data.prices, price.toNat < 2 ^ 128

theorem keepsPrices_iff (h : RebuiltFrom bytes tx) : KeepsPrices bytes tx ↔ PricesFit bytes := by
  obtain ⟨data, hdata, hprices⟩ := h
  simp [KeepsPrices, PricesFit, hdata, hprices]

theorem keepsPrices_all_iff (h : List.Forall₂ RebuiltFrom data full) :
    List.Forall₂ KeepsPrices data full ↔ ∀ bytes ∈ data, PricesFit bytes := by
  induction h with
  | nil => simp
  | cons hrebuilt _ ih => simp [List.forall₂_cons, keepsPrices_iff hrebuilt, ih]

end SignedTxs

namespace RawSpanBatch

/-- The number of blocks after the first, up to the `n`-th, that begin a new epoch. -/
def originSteps (bits : SpanBatchBits) : Nat → Nat
  | 0 => 0
  | i + 1 => originSteps bits i +
    if SpanBatchBits.getBit bits i = some true ∧ 0 < i then 1 else 0

/-- Counting the origin down underflows just when there are more steps than L1 blocks. -/
theorem blockOriginNums_eq (hbits : ∀ i < n, ∃ b, SpanBatchBits.getBit bits i = some b)
    (number : U64) :
    (originSteps bits n ≤ number.toNat →
      ∃ nums, blockOriginNums bits n number = .ok nums ∧ nums.length = n) ∧
    (number.toNat < originSteps bits n → blockOriginNums bits n number = .error .panics) := by
  induction n generalizing number with
  | zero => exact ⟨fun _ => ⟨[], rfl, rfl⟩, fun h => absurd h (Nat.not_lt_zero _)⟩
  | succ i ih =>
    obtain ⟨advances, hbit⟩ := hbits i (Nat.lt_succ_self i)
    have ih := ih fun j hj => hbits j (Nat.lt_succ_of_lt hj)
    unfold blockOriginNums originSteps
    rw [hbit]
    dsimp only
    by_cases hstep : advances = true ∧ 0 < i
    · rw [if_pos (by simpa using hstep), if_pos hstep]
      by_cases hzero : number = 0
      · rw [reject_pos ⟨hstep.1, hstep.2, hzero⟩, bind_fail]
        refine ⟨fun h => ?_, fun _ => rfl⟩
        rw [hzero] at h
        simp at h
      · have hpos : number.toNat ≠ 0 := fun h => hzero (BitVec.eq_of_toNat_eq h)
        have hnumber : (number - 1).toNat = number.toNat - 1 :=
          toNat_sub_of_toNat_le (show (1 : U64).toNat ≤ number.toNat from Nat.pos_of_ne_zero hpos)
        rw [reject_neg (fun h => hzero h.2.2), bind_value]
        refine ⟨fun h => ?_, fun h => ?_⟩
        · have hle : originSteps bits i ≤ (number - 1).toNat := by
            rw [hnumber]
            omega
          obtain ⟨nums, hnums, hlen⟩ := (ih (number - 1)).1 hle
          rw [hnums]
          exact ⟨_, rfl, by simp [hlen]⟩
        · rw [(ih (number - 1)).2 (by rw [hnumber]; omega)]
          rfl
    · rw [if_neg (by simpa using hstep), if_neg hstep, reject_neg (fun h => hstep ⟨h.1, h.2.1⟩),
        bind_value, Nat.add_zero]
      refine ⟨fun h => ?_, fun h => ?_⟩
      · obtain ⟨nums, hnums, hlen⟩ := (ih number).1 h
        rw [hnums]
        exact ⟨_, rfl, by simp [hlen]⟩
      · rw [(ih number).2 h]
        rfl

theorem totalTxCount_le (h : SpanBatchPayload.totalTxCount acc counts = .ok total) :
    acc ≤ total := by
  induction counts generalizing acc with
  | nil => exact Nat.le_of_eq (Except.ok.inj h)
  | cons count counts ih =>
    obtain ⟨-, h⟩ := (reject_bind_ok _ _ _ _).mp h
    have hle := ih h
    omega

/-- As many transactions as the counts say are dealt out without a rest. -/
theorem dealTransactions_eq (h : SpanBatchPayload.totalTxCount acc counts = .ok total)
    (htxs : acc + txs.length = total) :
    ∃ blocks, dealTransactions counts counts.length txs = .ok blocks ∧
      blocks.length = counts.length := by
  induction counts generalizing acc txs with
  | nil => exact ⟨[], rfl, rfl⟩
  | cons count counts ih =>
    obtain ⟨-, h⟩ := (reject_bind_ok _ _ _ _).mp h
    have hle := totalTxCount_le h
    have hrest : acc + count.toNat + (txs.drop count.toNat).length = total := by
      rw [List.length_drop]
      omega
    obtain ⟨blocks, hblocks, hlen⟩ := ih h hrest
    rw [List.length_cons, dealTransactions, reject_neg (by omega), bind_value, hblocks, bind_value]
    exact ⟨_, rfl, by rw [List.length_cons, hlen]⟩

/-- The last timestamp decides whether one overflows. -/
theorem elements_eq (genesisTime relTimestamp blockTime : U64) (i : Nat)
    (horigins : origins.length = n) (hblocks : blocks.length = n) (hn : 0 < n) :
    (genesisTime.toNat + relTimestamp.toNat + blockTime.toNat * (i + n - 1) < 2 ^ 64 →
      ∃ batches, elements genesisTime relTimestamp blockTime i origins blocks = .ok batches) ∧
    (2 ^ 64 ≤ genesisTime.toNat + relTimestamp.toNat + blockTime.toNat * (i + n - 1) →
      elements genesisTime relTimestamp blockTime i origins blocks = .error .panics) := by
  induction n generalizing i origins blocks with
  | zero => omega
  | succ n ih =>
    obtain ⟨epochNum, origins, rfl⟩ := List.exists_cons_of_length_eq_add_one horigins
    obtain ⟨transactions, blocks, rfl⟩ := List.exists_cons_of_length_eq_add_one hblocks
    have horigins : origins.length = n := by simpa using horigins
    have hblocks : blocks.length = n := by simpa using hblocks
    have hlast : i + (n + 1) - 1 = i + n := by omega
    have hmono : blockTime.toNat * i ≤ blockTime.toNat * (i + n) :=
      Nat.mul_le_mul_left _ (Nat.le_add_right i n)
    rw [hlast, elements, blockTimestamp]
    by_cases hfits : genesisTime.toNat + relTimestamp.toNat + blockTime.toNat * i < 2 ^ 64
    · rw [if_pos hfits, bind_value]
      rcases Nat.eq_zero_or_pos n with rfl | hn
      · obtain rfl := List.eq_nil_of_length_eq_zero horigins
        exact ⟨fun _ => ⟨_, rfl⟩, fun h => absurd hfits (Nat.not_lt.mpr h)⟩
      · have hstep := ih (i + 1) horigins hblocks hn
        rw [show i + 1 + n - 1 = i + n by omega] at hstep
        refine ⟨fun h => ?_, fun h => ?_⟩
        · obtain ⟨batches, hbatches⟩ := hstep.1 h
          rw [hbatches]
          exact ⟨_, rfl⟩
        · rw [hstep.2 h]
          rfl
    · rw [if_neg hfits, bind_fail]
      exact ⟨fun h => absurd (Nat.lt_of_le_of_lt (Nat.add_le_add_left hmono _) h) hfits,
        fun _ => rfl⟩

/-- Deriving the batch of an accepted byte string panics just when the origin is counted down below
zero, or its transactions can be rebuilt and the timestamp of the last block does not fit. -/
theorem derive_ne_panics_iff (encode2718 : TxEnvelope → Bytes) {raw : RawSpanBatch}
    (h : raw.WellFormed) (blockTime genesisTime chainId : U64) :
    raw.derive encode2718 blockTime genesisTime chainId ≠ .error .panics ↔
      originSteps raw.payload.originBits raw.payload.blockCount.toNat ≤
        raw.header.l1OriginNum.toNat ∧
      ∀ txs, raw.payload.txs.signedTxs chainId = .ok txs →
        genesisTime.toNat + raw.header.relTimestamp.toNat +
          blockTime.toNat * (raw.payload.blockCount.toNat - 1) < 2 ^ 64 := by
  obtain ⟨hblocks, hbits, hcounts, htotal, hdata⟩ := h
  obtain ⟨hcounted, hunderflow⟩ := blockOriginNums_eq
    (fun i hi => SpanBatchBits.getBit_of_lt hbits hi) raw.header.l1OriginNum
  obtain ⟨hrebuilds, hspec⟩ := signedTxsFrom_spec chainId raw.payload.txs
    (by rw [Nat.zero_add, hdata]) 0 0
  have hne : raw.payload.blockCount ≠ 0 := fun hzero => by
    rw [hzero] at hblocks
    exact absurd hblocks (by decide)
  unfold derive
  rw [reject_neg hne, bind_value]
  dsimp only
  by_cases hsteps : originSteps raw.payload.originBits raw.payload.blockCount.toNat ≤
      raw.header.l1OriginNum.toNat
  · obtain ⟨origins, horigins, hlen⟩ := hcounted hsteps
    rw [horigins, bind_value, fullTxs]
    cases hfull : raw.payload.txs.signedTxs chainId with
    | error e =>
      refine ⟨fun _ => ⟨hsteps, nofun⟩, fun _ he => ?_⟩
      obtain rfl : e = .panics := Except.error.inj he
      exact hrebuilds hfull
    | ok txs =>
      have hlength := (hspec txs hfull).length_eq
      rw [List.drop_zero, hdata] at hlength
      obtain ⟨blocks, hdeal, hdealt⟩ := dealTransactions_eq htotal
        ((Nat.zero_add _).trans ((List.length_map encode2718).trans hlength.symm))
      rw [hcounts] at hdeal hdealt
      obtain ⟨hfits, hover⟩ := elements_eq genesisTime raw.header.relTimestamp blockTime 0
        hlen hdealt hblocks
      rw [show (Except.ok txs : Except SpanFailure _).map (List.map encode2718) =
        .ok (txs.map encode2718) from rfl, bind_value, hdeal, bind_value]
      rw [Nat.zero_add] at hfits hover
      by_cases hlast : genesisTime.toNat + raw.header.relTimestamp.toNat +
          blockTime.toNat * (raw.payload.blockCount.toNat - 1) < 2 ^ 64
      · obtain ⟨batches, hbatches⟩ := hfits hlast
        rw [hbatches, bind_value]
        exact ⟨fun _ => ⟨hsteps, fun _ _ => hlast⟩, nofun⟩
      · rw [hover (Nat.not_lt.mp hlast), bind_fail]
        exact ⟨fun h => absurd rfl h, fun h => absurd (h.2 txs rfl) hlast⟩
  · rw [hunderflow (Nat.not_le.mp hsteps), bind_fail]
    exact ⟨fun h => absurd rfl h, fun h => absurd h.1 hsteps⟩

/-- Deriving the batch of an accepted byte string neither panics nor changes a price just when the
origin is not counted down below zero and, if its transactions can be rebuilt, the timestamp of the
last block fits and so does every price. -/
theorem derive_safe_iff (encode2718 : TxEnvelope → Bytes) {buf rest : Bytes} {raw : RawSpanBatch}
    (h : RawSpanBatch.decode buf = .ok (raw, rest)) (blockTime genesisTime chainId : U64) :
    (raw.derive encode2718 blockTime genesisTime chainId ≠ .error .panics ∧
      ∀ txs, raw.payload.txs.signedTxs chainId = .ok txs →
        List.Forall₂ KeepsPrices raw.payload.txs.txData txs) ↔
      originSteps raw.payload.originBits raw.payload.blockCount.toNat ≤
        raw.header.l1OriginNum.toNat ∧
      ∀ txs, raw.payload.txs.signedTxs chainId = .ok txs →
        genesisTime.toNat + raw.header.relTimestamp.toNat +
          blockTime.toNat * (raw.payload.blockCount.toNat - 1) < 2 ^ 64 ∧
        ∀ bytes ∈ raw.payload.txs.txData, PricesFit bytes := by
  have hformed := wellFormed_of_decode h
  have hprices (txs : List TxEnvelope) (htxs : raw.payload.txs.signedTxs chainId = .ok txs) :
      List.Forall₂ KeepsPrices raw.payload.txs.txData txs ↔
        ∀ bytes ∈ raw.payload.txs.txData, PricesFit bytes :=
    keepsPrices_all_iff ((signedTxsFrom_spec chainId raw.payload.txs
      (by rw [Nat.zero_add, hformed.data]) 0 0).2 txs htxs)
  rw [derive_ne_panics_iff encode2718 hformed]
  constructor
  · rintro ⟨⟨hsteps, hfits⟩, hkept⟩
    exact ⟨hsteps, fun txs htxs => ⟨hfits txs htxs, (hprices txs htxs).mp (hkept txs htxs)⟩⟩
  · rintro ⟨hsteps, hsafe⟩
    exact ⟨⟨hsteps, fun txs htxs => (hsafe txs htxs).1⟩,
      fun txs htxs => (hprices txs htxs).mpr (hsafe txs htxs).2⟩

/-- The data of a legacy transaction with nothing but a gas price. -/
def pricedData (price : Bytes) : Bytes :=
  let fields := [0x80] ++ Rlp.encodeString price ++ [0x80]
  Rlp.encodeHeader ⟨true, fields.length⟩ ++ fields

/-- A span of two blocks, the second of a new epoch and with a transaction of that price. -/
def twoBlocks (l1OriginNum : UInt8) (price : Bytes) : Bytes :=
  [10, l1OriginNum] ++ List.replicate 40 0 ++ [2, 2, 0, 1, 1, 0] ++ List.replicate 64 0 ++
    pricedData price ++ [0, 21, 0]

/-- What the span above is decoded to. -/
def twoBlocksRaw (l1OriginNum : U64) (price : Bytes) : RawSpanBatch :=
  ⟨⟨10, l1OriginNum, 0, 0⟩, ⟨2, [2], [0, 1],
    { totalBlockTxCount := 1, contractCreationBits := [1], txSigs := [⟨0, 0, false⟩]
      txNonces := [0], txGases := [21], txTos := [], txData := [pricedData price]
      protectedBits := [0], txTypes := [.legacy], legacyTxCount := 1 }⟩⟩

theorem derive_safe_two_blocks :
    RawSpanBatch.decode (twoBlocks 100 [9]) = .ok (twoBlocksRaw 100 [9], []) ∧
    ((twoBlocksRaw 100 [9]).derive (fun _ => []) 2 1700000000 10 ≠ .error .panics ∧
      ∀ txs, (twoBlocksRaw 100 [9]).payload.txs.signedTxs 10 = .ok txs →
        List.Forall₂ KeepsPrices (twoBlocksRaw 100 [9]).payload.txs.txData txs) := by
  have hdecode : RawSpanBatch.decode (twoBlocks 100 [9]) = .ok (twoBlocksRaw 100 [9], []) := by
    decide +kernel
  refine ⟨hdecode, (derive_safe_iff (fun _ => []) hdecode 2 1700000000 10).mpr
    ⟨by decide, fun _ _ => ⟨by decide, fun bytes hbytes data hdata => ?_⟩⟩⟩
  have hlegacy : SpanBatchTransactionData.decode (pricedData [9]) = some (.legacy ⟨0, 9, []⟩) := by
    decide +kernel
  rw [List.mem_singleton.mp hbytes, hlegacy] at hdata
  simp [← Option.some.inj hdata, SpanBatchTransactionData.prices]

/-- The bytes of 2¹²⁸ + 5. -/
def longPrice : Bytes := 1 :: List.replicate 15 0 ++ [5]

/-- An origin of zero that is counted down, and a gas price of which the rebuilt transaction has
the low half. -/
theorem origin_underflows_price_cut :
    (RawSpanBatch.decode (twoBlocks 0 [9]) = .ok (twoBlocksRaw 0 [9], []) ∧
      (twoBlocksRaw 0 [9]).derive (fun _ => []) 2 1700000000 10 = .error .panics) ∧
    RawSpanBatch.decode (twoBlocks 100 longPrice) = .ok (twoBlocksRaw 100 longPrice, []) ∧
      (SpanBatchTransactionData.decode (pricedData longPrice)).map
        SpanBatchTransactionData.prices = some [BitVec.ofNat 256 (2 ^ 128 + 5)] ∧
      ((twoBlocksRaw 100 longPrice).payload.txs.signedTxs 10).map (List.map TxEnvelope.prices) =
        .ok [[5]] := by
  decide +kernel

end RawSpanBatch
end SciChain.Derive
