import SciChain.Derive.Deposits
import SciChain.Proofs.ConfigUpdates

namespace SciChain.Derive.Deposits
open Library

theorem sliceAt_eq_some :
    sliceAt data lo hi = some part ↔
      (lo ≤ hi ∧ hi ≤ data.length) ∧ (data.drop lo).take (hi - lo) = part := by
  unfold sliceAt
  split
  · rename_i h
    simp [h]
  · rename_i h
    simp [h]

theorem sliceAt_of (hlo : lo ≤ hi) (hhi : hi ≤ data.length) :
    sliceAt data lo hi = some ((data.drop lo).take (hi - lo)) :=
  sliceAt_eq_some.mpr ⟨⟨hlo, hhi⟩, rfl⟩

theorem sliceAt_middle (hlo : before.length = lo) (hhi : lo + part.length = hi) :
    sliceAt (before ++ (part ++ after)) lo hi = some part := by
  subst hlo hhi
  rw [sliceAt_eq_some, List.drop_left' rfl, Nat.add_sub_cancel_left, List.take_left' rfl]
  simp

theorem beValue_append (a b : Bytes) :
    beValue (a ++ b) = beValue a * 256 ^ b.length + beValue b := by
  induction b using List.reverseRecOn with
  | nil => simp
  | append_singleton b x ih =>
    rw [← List.append_assoc, beValue_concat, ih, beValue_concat, List.length_append,
      List.length_singleton, Nat.pow_succ, Nat.add_mul, Nat.mul_assoc, Nat.add_assoc]

theorem unmarshalV0_of_long (h : 73 ≤ data.length) (tx : TxDeposit) (target : Address) :
    unmarshalV0 tx target data = some (.ok { tx with
      mint := BitVec.ofNat 128 (beValue ((data.drop 16).take 16))
      value := BitVec.ofNat 256 (beValue ((data.drop 32).take 32))
      gasLimit := BitVec.ofNat 64 (beValue ((data.drop 64).take 8))
      kind := if data.getD 72 0 = 0 then .call target else .create
      input := data.drop 73 }) := by
  have hflag : data[72]? = some (data.getD 72 0) := by
    simp [List.getD, show 72 < data.length by omega]
  have hinput : sliceAt data 73 data.length = some (data.drop 73) := by
    rw [sliceAt_of h (Nat.le_refl _), List.take_of_length_le (by simp)]
  unfold unmarshalV0
  rw [if_neg (by omega), sliceAt_of (by decide) (by omega), sliceAt_of (by decide) (by omega),
    sliceAt_of (by decide) (by omega), hflag, hinput]
  rfl

theorem low_half {data : Bytes} (h : 32 ≤ data.length) :
    beValue ((data.drop 16).take 16) = beValue (data.take 32) % 2 ^ 128 := by
  have hsplit : data.take 32 = data.take 16 ++ (data.drop 16).take 16 := by
    rw [← List.take_add]
  have hlow : ((data.drop 16).take 16).length = 16 := by simp; omega
  have hlt := beValue_lt ((data.drop 16).take 16)
  rw [hlow] at hlt
  rw [hsplit, beValue_append, hlow]
  omega

theorem toNat_ceil32 (len : U64) : (satMul (satAdd len 31 / 32) 32).toNat =
    min ((min (len.toNat + 31) (2 ^ 64 - 1)) / 32 * 32) (2 ^ 64 - 1) := by
  rw [toNat_satMul, BitVec.toNat_udiv, toNat_satAdd]
  rfl

/-- Once the end of the padding was computed, no sum overflows. -/
theorem paddingEnd_eq {len paddingEnd : U64}
    (h : Overflow.panics.add 64 (satMul (satAdd len 31 / 32) 32) = some paddingEnd) :
    paddingEnd.toNat = 64 + (len.toNat + 31) / 32 * 32 ∧ 64 + len.toNat < 2 ^ 64 := by
  have hceil := toNat_ceil32 len
  generalize satMul (satAdd len 31 / 32) 32 = ceil at h hceil
  unfold Overflow.add at h
  split at h
  · rename_i hlt
    rw [show (64 : U64).toNat = 64 from rfl] at hlt
    rw [← Option.some.inj h, BitVec.toNat_add, show (64 : U64).toNat = 64 from rfl,
      Nat.mod_eq_of_lt hlt]
    omega
  · cases h

theorem paddingEnd_of (len : U64) (h : len.toNat < 2 ^ 63) : ∃ paddingEnd,
    Overflow.panics.add 64 (satMul (satAdd len 31 / 32) 32) = some paddingEnd := by
  have hceil := toNat_ceil32 len
  generalize satMul (satAdd len 31 / 32) 32 = ceil at hceil
  have hlt : (64 : U64).toNat + ceil.toNat < 2 ^ 64 := by
    rw [show (64 : U64).toNat = 64 from rfl]
    omega
  exact ⟨_, Overflow.add_of_lt _ hlt⟩

theorem paddedContent_total (h : 64 + len.toNat < 2 ^ 64) :
    ∃ r, paddedContent data len paddingEnd = some r ∧ ∀ opaqueData, r = .ok opaqueData →
      ∃ n, 64 + n ≤ data.length ∧ opaqueData = (data.drop 64).take n := by
  have hadd : Overflow.panics.add 64 len = some (64 + len) := Overflow.add_of_lt _ h
  have hstop : (64 + len : U64).toNat = 64 + len.toNat := BitVec.toNat_add_of_lt h
  unfold paddedContent
  rw [hadd, Option.bind_some, hstop]
  split
  · exact ⟨_, rfl, nofun⟩
  · rename_i opaqueData hslice
    obtain ⟨⟨-, hle⟩, hdata⟩ := sliceAt_eq_some.mp hslice
    rw [Nat.add_sub_cancel_left] at hdata
    split
    · refine ⟨_, rfl, fun opaqueData' h => ⟨len.toNat, hle, ?_⟩⟩
      rw [← Except.ok.inj h, hdata]
    · rw [sliceAt_of hle (Nat.le_refl _)]
      exact ⟨_, rfl, nofun⟩

theorem length_of_checkTopics (h : checkTopics log = .ok fields) : 64 ≤ log.data.length := by
  unfold checkTopics at h
  split at h
  · simp only [bind_ok, reject_ok] at h
    omega
  · cases h

/-- Reading the opaque data does not panic, and what it returns lies behind its length. -/
theorem opaqueContent_total (h : 64 ≤ data.length) :
    ∃ r, opaqueContent data = some r ∧ ∀ opaqueData, r = .ok opaqueData →
      ∃ n, 64 + n ≤ data.length ∧ opaqueData = (data.drop 64).take n := by
  unfold opaqueContent
  rw [sliceAt_of (Nat.zero_le _) (by omega), Option.bind_some]
  split
  · exact ⟨_, rfl, nofun⟩
  · rw [sliceAt_of (by decide) h, Option.bind_some]
    split
    · exact ⟨_, rfl, nofun⟩
    · dsimp only
      split
      · exact ⟨_, rfl, nofun⟩
      · rename_i paddingEnd hpadding
        obtain ⟨-, hlen⟩ := paddingEnd_eq hpadding
        generalize (BitVec.ofNat 64 _ : U64) = len at hlen
        exact paddedContent_total hlen

/-- No log makes the decoder panic, and an accepted one gives the low half of its mint
word as the mint. -/
theorem decodeTx_total (keccak256 : Bytes → B256) (blockHash : B256) (index : U64) (log : Log) :
    ∃ r, decodeTx keccak256 blockHash index log = some r ∧ ∀ tx, r = .ok tx →
      tx.mint.toNat = abiWord log.data 2 % 2 ^ 128 := by
  unfold decodeTx
  cases hcheck : checkTopics log with
  | error e => exact ⟨_, rfl, fun _ h => by cases h⟩
  | ok fields =>
    obtain ⟨sender, target, version⟩ := fields
    obtain ⟨content, hcontent, hpart⟩ := opaqueContent_total (length_of_checkTopics hcheck)
    simp only [hcontent, Option.bind_some]
    cases content with
    | error e => exact ⟨_, rfl, fun _ h => by cases h⟩
    | ok opaqueData =>
      dsimp only
      split
      · exact ⟨_, rfl, fun _ h => by cases h⟩
      · by_cases hlong : 73 ≤ opaqueData.length
        · rw [unmarshalV0_of_long hlong]
          refine ⟨_, rfl, fun tx htx => ?_⟩
          obtain ⟨n, hn, hbytes⟩ := hpart opaqueData rfl
          have h32 : 32 ≤ n := by
            rw [hbytes, List.length_take] at hlong
            omega
          have hword : beValue (opaqueData.take 32) = abiWord log.data 2 := by
            rw [hbytes, List.take_take, Nat.min_eq_left h32, abiWord]
          rw [← Except.ok.inj htx, BitVec.toNat_ofNat, low_half (by omega), hword, Nat.mod_mod]
        · unfold unmarshalV0
          rw [if_pos (by omega)]
          exact ⟨_, rfl, fun _ h => by cases h⟩

/-- The opaque data of a deposit, as the contract packs it. -/
def packed (mint value : U256) (gasLimit : U64) (isCreation : Bool) (input : Bytes) : Bytes :=
  beBytes 32 mint.toNat ++ (beBytes 32 value.toNat ++ (beBytes 8 gasLimit.toNat ++
    ((if isCreation then 1 else 0) :: input)))

/-- The log that the contract emits for a deposit. -/
def depositLog (address sender target : Address) (mint value : U256) (gasLimit : U64)
    (isCreation : Bool) (input : Bytes) : Log :=
  let opaqueData := packed mint value gasLimit isCreation input
  ⟨address, [eventAbiHash, sender.setWidth 256, target.setWidth 256, 0],
    abiWords [32, opaqueData.length] ++ (opaqueData ++
      List.replicate ((opaqueData.length + 31) / 32 * 32 - opaqueData.length) 0)⟩

section Emitted

variable {mint value : U256} {gasLimit : U64} {isCreation : Bool} {input : Bytes}

theorem length_packed :
    (packed mint value gasLimit isCreation input).length = 73 + input.length := by
  simp only [packed, List.length_append, length_beBytes, List.length_cons]
  omega

/-- Each field stands where the decoder looks for it. -/
theorem packed_fields (mint value : U256) (gasLimit : U64) (isCreation : Bool) (input : Bytes) :
    let data := packed mint value gasLimit isCreation input
    data.take 32 = beBytes 32 mint.toNat ∧
    (data.drop 32).take 32 = beBytes 32 value.toNat ∧
    (data.drop 64).take 8 = beBytes 8 gasLimit.toNat ∧
    data.drop 72 = (if isCreation then 1 else 0) :: input := by
  have hdrop32 : (packed mint value gasLimit isCreation input).drop 32 =
      beBytes 32 value.toNat ++ (beBytes 8 gasLimit.toNat ++
        ((if isCreation then 1 else 0) :: input)) := List.drop_left' (by simp)
  have hdrop64 : (packed mint value gasLimit isCreation input).drop 64 =
      beBytes 8 gasLimit.toNat ++ ((if isCreation then 1 else 0) :: input) := by
    refine Eq.trans (List.drop_drop (i := 32) (j := 32)).symm ?_
    rw [hdrop32, List.drop_left' (by simp)]
  refine ⟨List.take_left' (by simp), ?_, ?_, ?_⟩
  · rw [hdrop32, List.take_left' (by simp)]
  · rw [hdrop64, List.take_left' (by simp)]
  · refine Eq.trans (List.drop_drop (i := 8) (j := 64)).symm ?_
    rw [hdrop64, List.drop_left' (by simp)]

/-- Opaque data with its length in front and zeros behind it is read back. -/
theorem opaqueContent_of (h : opaqueData.length < 2 ^ 63) :
    opaqueContent (abiWords [32, opaqueData.length] ++ (opaqueData ++
      List.replicate ((opaqueData.length + 31) / 32 * 32 - opaqueData.length) 0)) =
      some (.ok opaqueData) := by
  generalize hzeros : List.replicate
    ((opaqueData.length + 31) / 32 * 32 - opaqueData.length) (0 : UInt8) = zeros
  generalize hn : opaqueData.length = n at h hzeros
  have hzeroslen : zeros.length = (n + 31) / 32 * 32 - n := by
    rw [← hzeros, List.length_replicate]
  have hwords : abiWords [32, n] ++ (opaqueData ++ zeros) =
      beBytes 32 32 ++ (beBytes 32 n ++ (opaqueData ++ zeros)) := by
    simp [abiWords]
  have hoffset : sliceAt (abiWords [32, n] ++ (opaqueData ++ zeros)) 0 32 =
      some (beBytes 32 32) := by
    rw [hwords]
    exact sliceAt_eq_some.mpr ⟨⟨by decide, by simp⟩, List.take_left' (by simp)⟩
  have hlength : sliceAt (abiWords [32, n] ++ (opaqueData ++ zeros)) 32 64 =
      some (beBytes 32 n) := by
    rw [hwords]
    exact sliceAt_middle (by simp) (by simp)
  have hvalue : beValue (beBytes 32 n) = n :=
    beValue_beBytes (Nat.lt_trans h (by decide))
  have hlen : (BitVec.ofNat 64 n).toNat = n := by
    rw [BitVec.toNat_ofNat, Nat.mod_eq_of_lt (by omega)]
  obtain ⟨paddingEnd, hend⟩ := paddingEnd_of (BitVec.ofNat 64 n) (by rw [hlen]; exact h)
  obtain ⟨hpaddingEnd, hsum⟩ := paddingEnd_eq hend
  have hstop : Overflow.panics.add 64 (BitVec.ofNat 64 n) = some (64 + BitVec.ofNat 64 n) :=
    Overflow.add_of_lt _ hsum
  have hstop' : (64 + BitVec.ofNat 64 n : U64).toNat = 64 + n := by
    rw [BitVec.toNat_add_of_lt hsum, hlen]
    rfl
  have hcontent : sliceAt (abiWords [32, n] ++ (opaqueData ++ zeros)) 64 (64 + n) =
      some opaqueData := sliceAt_middle (length_abiWords _) (by rw [hn])
  have hpadding : sliceAt (abiWords [32, n] ++ (opaqueData ++ zeros)) (64 + n)
      (64 + (n + 31) / 32 * 32) = some zeros := by
    have hbefore : (abiWords [32, n] ++ opaqueData).length = 64 + n := by
      rw [List.length_append, length_abiWords, hn]
      rfl
    rw [← List.append_assoc, sliceAt_eq_some, List.drop_left' hbefore, List.length_append,
      hbefore, hzeroslen]
    refine ⟨⟨by omega, by omega⟩, List.take_of_length_le ?_⟩
    rw [hzeroslen]
    omega
  unfold opaqueContent
  rw [hoffset, Option.bind_some, if_neg (by decide), hlength, Option.bind_some, hvalue,
    if_neg (by omega)]
  dsimp only
  rw [hend]
  dsimp only
  rw [paddedContent, hstop, Option.bind_some, hstop', hcontent]
  dsimp only
  rw [hpaddingEnd, hlen, hpadding, ← hzeros]
  rw [if_pos (Or.inr (by simp))]

/-- The decoder returns the fields that the contract packed, but half of the mint. -/
theorem decodeTx_depositLog (keccak256 : Bytes → B256) (blockHash : B256) (index : U64)
    (address sender target : Address) (mint value : U256) (gasLimit : U64) (isCreation : Bool)
    (h : input.length + 73 < 2 ^ 63) : decodeTx keccak256 blockHash index
      (depositLog address sender target mint value gasLimit isCreation input) = some (.ok
        { sourceHash := sourceHash keccak256 blockHash index, sender
          kind := if isCreation then .create else .call target, mint := mint.setWidth 128, value
          gasLimit, isSystemTransaction := false, input }) := by
  have hcontent : opaqueContent (depositLog address sender target mint value gasLimit isCreation
      input).data = some (.ok (packed mint value gasLimit isCreation input)) :=
    opaqueContent_of (by rw [length_packed]; omega)
  have htopics : checkTopics (depositLog address sender target mint value gasLimit isCreation
      input) = .ok (sender, target, 0) := by
    have hsize : (depositLog address sender target mint value gasLimit isCreation
        input).data.length = 64 + (73 + input.length + 31) / 32 * 32 := by
      simp only [depositLog, List.length_append, length_abiWords, length_packed,
        List.length_replicate, List.length_cons, List.length_nil]
      omega
    unfold checkTopics
    rw [hsize]
    dsimp only [depositLog]
    have hwide : ∀ a : Address, (a.setWidth 256).toNat = a.toNat := fun a => by
      rw [BitVec.toNat_setWidth, Nat.mod_eq_of_lt (Nat.lt_trans a.isLt (by decide))]
    have hback : ∀ a : Address, (a.setWidth 256).setWidth 160 = a := fun a =>
      BitVec.eq_of_toNat_eq (by
        rw [BitVec.toNat_setWidth, hwide, Nat.mod_eq_of_lt a.isLt])
    rw [reject_neg (by simp), reject_neg (by omega), reject_neg (by omega), hwide, hwide,
      reject_neg (by omega), reject_neg (by omega), hback, hback]
    rfl
  obtain ⟨hmint, hvalue, hgas, hrest⟩ := packed_fields mint value gasLimit isCreation input
  have hlong : 73 ≤ (packed mint value gasLimit isCreation input).length := by
    rw [length_packed]
    omega
  unfold decodeTx
  rw [htopics]
  dsimp only
  rw [hcontent, Option.bind_some]
  dsimp only
  have hflag : (packed mint value gasLimit isCreation input).getD 72 0 =
      if isCreation then 1 else 0 := by
    have hhead : ((packed mint value gasLimit isCreation input).drop 72)[0]? =
        some (if isCreation then 1 else 0) := by
      rw [hrest]
      rfl
    rw [List.getElem?_drop] at hhead
    rw [List.getD, hhead]
    rfl
  have hinput : (packed mint value gasLimit isCreation input).drop 73 = input := by
    refine Eq.trans (List.drop_drop (i := 1) (j := 72)).symm ?_
    rw [hrest]
    rfl
  have hword : ∀ v : U256, beValue (beBytes 32 v.toNat) = v.toNat := fun v =>
    beValue_beBytes (Nat.lt_of_lt_of_eq v.isLt (by decide))
  have hlimit : beValue (beBytes 8 gasLimit.toNat) = gasLimit.toNat :=
    beValue_beBytes (Nat.lt_of_lt_of_eq gasLimit.isLt (by decide))
  rw [if_neg (by simp), unmarshalV0_of_long hlong, low_half (by omega), hmint, hvalue, hgas,
    hflag, hinput, hword, hword, hlimit, BitVec.ofNat_toNat, BitVec.ofNat_toNat]
  have hhalf : BitVec.ofNat 128 (mint.toNat % 2 ^ 128) = mint.setWidth 128 :=
    BitVec.eq_of_toNat_eq (by rw [BitVec.toNat_ofNat, Nat.mod_mod, BitVec.toNat_setWidth])
  rw [hhalf, BitVec.setWidth_eq, BitVec.setWidth_eq]
  cases isCreation <;> rfl

end Emitted

/-- Every log is decoded or rejected, and a log that the portal's contract emits is decoded into
the fields it carries, whose mint is right just when its word fits into half a word. An accepted
log too is given the mint of its word just then. -/
theorem deposit_log_decoded (keccak256 : Bytes → B256) (encode2718 : TxDeposit → Bytes)
    (blockHash : B256) (index : U64) :
    (∀ log, ∃ r, decode keccak256 encode2718 blockHash index log = some r) ∧
    (∀ log tx, decodeTx keccak256 blockHash index log = some (.ok tx) →
      (tx.mint.toNat = abiWord log.data 2 ↔ abiWord log.data 2 < 2 ^ 128)) ∧
    ∀ (address sender target : Address) (mint value : U256) (gasLimit : U64)
      (isCreation : Bool) (input : Bytes),
      (packed mint value gasLimit isCreation input).length < 2 ^ 63 →
      ∃ tx : TxDeposit,
        decode keccak256 encode2718 blockHash index
          (depositLog address sender target mint value gasLimit isCreation input) =
          some (.ok (encode2718 tx)) ∧
        tx.sourceHash = sourceHash keccak256 blockHash index ∧ tx.sender = sender ∧
        tx.kind = (if isCreation then .create else .call target) ∧ tx.value = value ∧
        tx.gasLimit = gasLimit ∧ tx.isSystemTransaction = false ∧ tx.input = input ∧
        (tx.mint.toNat = mint.toNat ↔ mint.toNat < 2 ^ 128) := by
  have hhalf : ∀ a b : Nat, a = b % 2 ^ 128 → (a = b ↔ b < 2 ^ 128) := fun a b h => by omega
  refine ⟨fun log => ?_, fun log tx h => ?_, ?_⟩
  · obtain ⟨r, hr, -⟩ := decodeTx_total keccak256 blockHash index log
    exact ⟨_, by rw [decode, hr]; rfl⟩
  · obtain ⟨r, hr, hmint⟩ := decodeTx_total keccak256 blockHash index log
    rw [h] at hr
    exact hhalf _ _ (hmint tx (Option.some.inj hr).symm)
  · intro address sender target mint value gasLimit isCreation input hlen
    rw [length_packed] at hlen
    have hinput : input.length + 73 < 2 ^ 63 := by omega
    have hdecode := decodeTx_depositLog keccak256 blockHash index address sender target mint value
      gasLimit isCreation hinput
    exact ⟨_, by rw [decode, hdecode]; rfl, rfl, rfl, rfl, rfl, rfl, rfl, rfl,
      hhalf _ _ (BitVec.toNat_setWidth 128 mint)⟩

/-- A deposit of one token that calls its target with two bytes. -/
theorem deposit_log_decoded_sample : ∃ tx : TxDeposit,
    decode (fun _ => 7) (·.input) 1 2
      (depositLog 3 4 5 0xde0b6b3a7640000 6 21000 false [8, 9]) = some (.ok [8, 9]) ∧
    tx.kind = .call 5 ∧ tx.mint.toNat = 0xde0b6b3a7640000 := by
  obtain ⟨tx, hdecode, _, _, hkind, _, _, _, hinput, hmint⟩ :=
    (deposit_log_decoded (fun _ => 7) (·.input) 1 2).2.2 3 4 5 0xde0b6b3a7640000 6 21000 false
      [8, 9] (by rw [length_packed]; decide)
  refine ⟨tx, ?_, hkind, hmint.mpr (by decide)⟩
  rw [hdecode, hinput]

/-- A mint of a word that has no bit in its lower half is decoded as no mint. -/
theorem wide_mint_truncated :
    (decodeTx (fun _ => 7) 1 2
      (depositLog 3 4 5 0x100000000000000000000000000000000 6 21000 false [8, 9])).map
        (·.map (·.mint)) = some (.ok 0) := by
  rw [decodeTx_depositLog _ _ _ _ _ _ _ _ _ _ (by decide)]
  rfl

end SciChain.Derive.Deposits
