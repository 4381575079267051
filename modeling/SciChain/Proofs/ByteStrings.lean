import SciChain.Storage.BytesLike

namespace SciChain.RawStorage
open Library

namespace BytesLike

theorem beBytes_word {bytes : Bytes} (h : bytes.length = 32) :
    beBytes 32 (BitVec.ofNat 256 (beValue bytes)).toNat = bytes := by
  have hlt := beValue_lt bytes
  rw [h] at hlt
  rw [BitVec.toNat_ofNat, Nat.mod_eq_of_lt (by omega), ← h, beBytes_beValue]

section Header
variable {bytes : Bytes}

/-- What the base slot of a value holds. -/
def header (bytes : Bytes) : U256 :=
  if 31 < bytes.length then encodeLongStringLength bytes.length else encodeShortString bytes

theorem length_padded (h : ¬ 31 < bytes.length) :
    (bytes ++ List.replicate (31 - bytes.length) 0).length = 31 := by
  simp
  omega

theorem toNat_short (h : ¬ 31 < bytes.length) : (encodeShortString bytes).toNat =
    beValue (bytes ++ List.replicate (31 - bytes.length) 0) * 256 + bytes.length * 2 := by
  have hlt := beValue_lt (bytes ++ List.replicate (31 - bytes.length) 0)
  rw [length_padded h] at hlt
  rw [encodeShortString, BitVec.toNat_ofNat, beValue_concat, UInt8.toNat_ofNat',
    Nat.mod_eq_of_lt (show bytes.length * 2 < 2 ^ 8 by omega)]
  exact Nat.mod_eq_of_lt (by omega)

theorem beBytes_short (h : ¬ 31 < bytes.length) :
    beBytes 32 (encodeShortString bytes).toNat =
      bytes ++ List.replicate (31 - bytes.length) 0 ++ [UInt8.ofNat (bytes.length * 2)] :=
  beBytes_word (by rw [List.length_append, length_padded h]; rfl)

theorem toNat_long (h : bytes.length < 2 ^ 32) :
    (encodeLongStringLength bytes.length).toNat = bytes.length * 2 + 1 := by
  rw [encodeLongStringLength, BitVec.toNat_ofNat, Nat.mod_eq_of_lt (by omega)]

theorem isLongString_header (h : bytes.length < 2 ^ 32) :
    isLongString (header bytes) = decide (31 < bytes.length) := by
  unfold header
  by_cases hlong : 31 < bytes.length
  · rw [if_pos hlong, isLongString, toNat_long h, decide_eq_true hlong]
    exact decide_eq_true (by omega)
  · rw [if_neg hlong, isLongString, toNat_short hlong, decide_eq_false hlong]
    exact decide_eq_false (by omega)

theorem calcStringLength_header (h : bytes.length < 2 ^ 32) :
    calcStringLength (header bytes) (isLongString (header bytes)) = .ok bytes.length := by
  rw [isLongString_header h]
  unfold calcStringLength header
  by_cases hlong : 31 < bytes.length
  · have hval : ((encodeLongStringLength bytes.length - 1) >>> 1).toNat = bytes.length := by
      rw [BitVec.toNat_ushiftRight, BitVec.toNat_sub, toNat_long h]
      simp
      omega
    simp only [hlong, decide_true, if_true, hval]
    rw [reject_neg (by omega)]
    rfl
  · have hlast : ((beBytes 32 (encodeShortString bytes).toNat).getD 31 0).toNat =
        bytes.length * 2 := by
      have hget : (bytes ++ List.replicate (31 - bytes.length) 0 ++
          [UInt8.ofNat (bytes.length * 2)])[31]? = some (UInt8.ofNat (bytes.length * 2)) := by
        rw [List.getElem?_append_right (Nat.le_of_eq (length_padded hlong)), length_padded hlong]
        rfl
      rw [beBytes_short hlong, List.getD_eq_getElem?_getD, hget, Option.getD_some,
        UInt8.toNat_ofNat', Nat.mod_eq_of_lt (by omega)]
    simp only [hlong, decide_false, Bool.false_eq_true, if_false, hlast]
    rw [Nat.mul_div_cancel _ (by decide), reject_neg hlong]
    rfl

end Header

/-- The base slot and the data slots hold exactly this value. -/
structure Holds (keccak256 : Bytes → B256) (storage : Slots) (baseSlot : U256) (bytes : Bytes) :
    Prop where
  base : storage baseSlot = header bytes
  data : 31 < bytes.length → ∀ i < calcChunks bytes.length,
    storage (dataSlot keccak256 baseSlot i) = chunkWord bytes i

/-- Data slots in use: none for a short value. -/
def dataChunks (bytes : Bytes) : Nat := if 31 < bytes.length then calcChunks bytes.length else 0

variable {keccak256 : Bytes → B256} {storage : Slots} {baseSlot : U256} {bytes : Bytes}

theorem calcChunks_lt (h : bytes.length < 2 ^ 32) : calcChunks bytes.length < 2 ^ 32 := by
  unfold calcChunks
  omega

theorem dataSlot_ne (hi : i < 2 ^ 32) (hj : j < 2 ^ 32) (h : i ≠ j) :
    dataSlot keccak256 baseSlot i ≠ dataSlot keccak256 baseSlot j := add_ofNat_ne hi hj h

/-- Zeroing data slots: those become zero, nothing else changes. -/
theorem zeroChunks_ok (keccak256 : Bytes → B256) (baseSlot : U256) (storage : Slots)
    (hle : lo ≤ hi) (hlt : hi < 2 ^ 32) :
    ∃ s, zeroChunks keccak256 storage baseSlot lo hi = .ok s ∧
      (∀ i, lo ≤ i → i < hi → s (dataSlot keccak256 baseSlot i) = 0) ∧
      ∀ a, (∀ i, lo ≤ i → i < hi → a ≠ dataSlot keccak256 baseSlot i) → s a = storage a := by
  refine forRange_ok (P := fun k (t : Slots) =>
    (∀ i, lo ≤ i → i < k → t (dataSlot keccak256 baseSlot i) = 0) ∧
    ∀ a, (∀ i, lo ≤ i → i < hi → a ≠ dataSlot keccak256 baseSlot i) → t a = storage a) hle
    ⟨fun i hlo hi => by omega, fun _ _ => rfl⟩ ?_
  intro k t hlo hk ⟨hzero, hframe⟩
  refine ⟨_, rfl, fun i hi hik => ?_, fun a ha => ?_⟩
  · by_cases heq : i = k
    · rw [heq, Function.update_self]
    · rw [Function.update_of_ne (dataSlot_ne (by omega) (by omega) heq)]
      exact hzero i hi (by omega)
  · rw [Function.update_of_ne (ha k hlo hk)]
    exact hframe a ha

/-- Writing the chunks: each data slot has its word, nothing else changes. -/
theorem writeChunks_ok (keccak256 : Bytes → B256) (baseSlot : U256) (storage : Slots)
    (h : bytes.length < 2 ^ 32) :
    ∃ s, forRange 0 (calcChunks bytes.length) (fun storage i => (.ok (Function.update storage
        (dataSlot keccak256 baseSlot i) (chunkWord bytes i)) : Result Slots))
        storage = .ok s ∧
      (∀ i < calcChunks bytes.length, s (dataSlot keccak256 baseSlot i) = chunkWord bytes i) ∧
      ∀ a, (∀ i < calcChunks bytes.length, a ≠ dataSlot keccak256 baseSlot i) →
        s a = storage a := by
  have hlt := calcChunks_lt h
  refine forRange_ok (P := fun k (t : Slots) =>
    (∀ i < k, t (dataSlot keccak256 baseSlot i) = chunkWord bytes i) ∧
    ∀ a, (∀ i < calcChunks bytes.length, a ≠ dataSlot keccak256 baseSlot i) → t a = storage a)
    (Nat.zero_le _) ⟨fun i hi => by omega, fun _ _ => rfl⟩ ?_
  intro k t _ hk ⟨hwords, hframe⟩
  refine ⟨_, rfl, fun i hi => ?_, fun a ha => ?_⟩
  · by_cases heq : i = k
    · rw [heq, Function.update_self]
    · rw [Function.update_of_ne (dataSlot_ne (by omega) (by omega) heq)]
      exact hwords i (by omega)
  · rw [Function.update_of_ne (ha k hk)]
    exact hframe a ha

theorem take_chunk (hi : i < calcChunks bytes.length) :
    (beBytes 32 (chunkWord bytes i).toNat).take
        (if i = calcChunks bytes.length - 1 then bytes.length - i * 32 else 32) =
      (bytes.drop (i * 32)).take 32 := by
  have hchunks : calcChunks bytes.length = (bytes.length + 31) / 32 := rfl
  have hchunk : (bytes.take (min (i * 32 + 32) bytes.length)).drop (i * 32) =
      (bytes.drop (i * 32)).take 32 := by
    rw [List.drop_take, List.take_eq_take_iff, List.length_drop]
    omega
  have hlen : ((bytes.drop (i * 32)).take 32).length =
      if i = calcChunks bytes.length - 1 then bytes.length - i * 32 else 32 := by
    rw [List.length_take, List.length_drop]
    split <;> omega
  rw [chunkWord, hchunk, beBytes_word (by simp)]
  exact List.take_left' hlen

section

variable (h : Holds keccak256 storage baseSlot bytes) (hlen : bytes.length < 2 ^ 32)
include h hlen

theorem Holds.load_eq {T : Type} (into : Bytes → Result T) :
    loadBytesLike keccak256 storage baseSlot into = into bytes := by
  rw [loadBytesLike, h.base, calcStringLength_header hlen, bind_value, isLongString_header hlen]
  by_cases hlong : 31 < bytes.length
  · have hloop : ∃ data, forRange 0 (calcChunks bytes.length) (fun data i => (.ok (data ++
        (beBytes 32 (storage (dataSlot keccak256 baseSlot i)).toNat).take
          (if i = calcChunks bytes.length - 1 then bytes.length - i * 32 else 32)) :
        Result Bytes)) [] = .ok data ∧
        data = bytes.take (calcChunks bytes.length * 32) := by
      refine forRange_ok (P := fun k data => data = bytes.take (k * 32)) (Nat.zero_le _) (by simp) ?_
      intro k data _ hk hdata
      refine ⟨_, rfl, ?_⟩
      rw [h.data hlong k hk, take_chunk hk, hdata, Nat.succ_mul, List.take_add]
    obtain ⟨data, hdata, htake⟩ := hloop
    simp only [hlong, decide_true, if_true]
    rw [hdata, bind_value, htake, List.take_of_length_le]
    unfold calcChunks
    omega
  · simp only [hlong, decide_false, Bool.false_eq_true, if_false]
    rw [header, if_neg hlong, beBytes_short hlong, List.append_assoc, List.take_left' rfl]

theorem Holds.len_eq : len storage baseSlot = .ok bytes.length := by
  rw [len, h.base]
  exact calcStringLength_header hlen

theorem Holds.chunks_eq (hlong : isLongString (storage baseSlot) = true) :
    calcStringLength (storage baseSlot) true = .ok bytes.length ∧
      dataChunks bytes = calcChunks bytes.length := by
  rw [h.base] at hlong ⊢
  have hlength := calcStringLength_header hlen
  rw [hlong] at hlength
  rw [isLongString_header hlen, decide_eq_true_eq] at hlong
  exact ⟨hlength, if_pos hlong⟩

theorem Holds.short (hshort : ¬ isLongString (storage baseSlot) = true) : dataChunks bytes = 0 := by
  rw [h.base, isLongString_header hlen, decide_eq_true_eq] at hshort
  exact if_neg hshort

/-- The cleanup under T5: the data slots the new value does not need are zero. -/
theorem cleanTail_ok (h5 : spec.isT5 = true) (new : Bytes) :
    ∃ s, cleanTail keccak256 spec new.length storage baseSlot .full = .ok s ∧
      (∀ i, dataChunks new ≤ i → i < dataChunks bytes → s (dataSlot keccak256 baseSlot i) = 0) ∧
      ∀ i < 2 ^ 32, i < dataChunks new ∨ dataChunks bytes ≤ i →
        s (dataSlot keccak256 baseSlot i) = storage (dataSlot keccak256 baseSlot i) := by
  have hlt := calcChunks_lt hlen
  rw [cleanTail, h5, if_pos (show (!LayoutCtx.full.skipTailCleanup && true) = true from rfl)]
  by_cases hlong : isLongString (storage baseSlot) = true
  · obtain ⟨hlength, hchunks⟩ := h.chunks_eq hlen hlong
    rw [if_pos hlong, hlength, bind_value, ← hchunks]
    change ∃ s, (if dataChunks new < dataChunks bytes then
      zeroChunks keccak256 storage baseSlot (dataChunks new) (dataChunks bytes)
      else pure storage) = .ok s ∧ _
    split
    next hless =>
      obtain ⟨s, hs, hzero, hframe⟩ := zeroChunks_ok keccak256 baseSlot
        storage (Nat.le_of_lt hless) (by omega)
      refine ⟨s, hs, hzero, fun i hi hout => hframe _ fun j hj hj' => ?_⟩
      exact dataSlot_ne hi (by omega) (by omega)
    next hmore => exact ⟨storage, rfl, fun i hi hi' => by omega, fun _ _ _ => rfl⟩
  · rw [if_neg hlong]
    have hnone := h.short hlen hlong
    exact ⟨storage, rfl, fun i _ hi => by omega, fun _ _ _ => rfl⟩

end

section Separate
variable (hsep : ∀ i < 2 ^ 32, dataSlot keccak256 baseSlot i ≠ baseSlot)
include hsep

theorem write_holds (storage : Slots) (hlen : bytes.length < 2 ^ 32) :
    ∃ s, (if ¬ 31 < bytes.length then
          (pure (Function.update storage baseSlot (encodeShortString bytes)) :
            Result Slots)
        else forRange 0 (calcChunks bytes.length) (fun storage i =>
          .ok (Function.update storage (dataSlot keccak256 baseSlot i) (chunkWord bytes i)))
          (Function.update storage baseSlot (encodeLongStringLength bytes.length))) = .ok s ∧
      Holds keccak256 s baseSlot bytes ∧
      ∀ i < 2 ^ 32, dataChunks bytes ≤ i →
        s (dataSlot keccak256 baseSlot i) = storage (dataSlot keccak256 baseSlot i) := by
  have hlt := calcChunks_lt hlen
  by_cases hlong : 31 < bytes.length
  · obtain ⟨s, hs, hwords, hframe⟩ := writeChunks_ok keccak256 baseSlot
      (Function.update storage baseSlot (encodeLongStringLength bytes.length)) hlen
    rw [if_neg (not_not_intro hlong)]
    refine ⟨s, hs, ⟨?_, fun _ => hwords⟩, ?_⟩
    · rw [hframe baseSlot (fun i hi => (hsep i (by omega)).symm), Function.update_self, header,
        if_pos hlong]
    · intro i hi hge
      rw [dataChunks, if_pos hlong] at hge
      rw [hframe _ (fun j hj => dataSlot_ne hi (by omega) (by omega)),
        Function.update_of_ne (hsep i hi)]
  · rw [if_pos hlong]
    refine ⟨_, rfl, ⟨?_, fun h => absurd h hlong⟩, ?_⟩
    · rw [Function.update_self, header, if_neg hlong]
    · exact fun i hi _ => Function.update_of_ne (hsep i hi) _ _

theorem holds_of_store (hlen : bytes.length < 2 ^ 32)
    (h : storeBytesLike keccak256 spec bytes storage baseSlot ctx = .ok s) :
    Holds keccak256 s baseSlot bytes := by
  rw [storeBytesLike, bind_ok] at h
  obtain ⟨s₁, -, hwrite⟩ := h
  obtain ⟨s₂, hs₂, hholds, -⟩ := write_holds hsep s₁ hlen
  rw [hs₂] at hwrite
  cases hwrite
  exact hholds

theorem Holds.store (h : Holds keccak256 storage baseSlot bytes) (hlen : bytes.length < 2 ^ 32)
    (new : Bytes) (hnew : new.length < 2 ^ 32) (h5 : spec.isT5 = true) :
    ∃ s, storeBytesLike keccak256 spec new storage baseSlot .full = .ok s ∧
      Holds keccak256 s baseSlot new ∧
      (∀ i, dataChunks new ≤ i → i < dataChunks bytes → s (dataSlot keccak256 baseSlot i) = 0) ∧
      ∀ i < 2 ^ 32, dataChunks new ≤ i → dataChunks bytes ≤ i →
        s (dataSlot keccak256 baseSlot i) = storage (dataSlot keccak256 baseSlot i) := by
  obtain ⟨s₁, hclean, hzero, hkept⟩ := cleanTail_ok h hlen h5 new
  obtain ⟨s, hs, hholds, hframe⟩ := write_holds hsep s₁ hnew
  have hchunks : dataChunks bytes < 2 ^ 32 := by
    have := calcChunks_lt hlen
    unfold dataChunks
    split <;> omega
  refine ⟨s, by rw [storeBytesLike, hclean, bind_value, hs], hholds, ?_, ?_⟩
  · intro i hi hi'
    rw [hframe i (by omega) hi, hzero i hi hi']
  · intro i hi hge hge'
    rw [hframe i hi hge, hkept i hi (Or.inr hge')]

theorem Holds.delete (h : Holds keccak256 storage baseSlot bytes) (hlen : bytes.length < 2 ^ 32) :
    ∃ s, deleteBytesLike keccak256 storage baseSlot = .ok s ∧ s baseSlot = 0 ∧
      (∀ i < dataChunks bytes, s (dataSlot keccak256 baseSlot i) = 0) ∧
      ∀ i < 2 ^ 32, dataChunks bytes ≤ i →
        s (dataSlot keccak256 baseSlot i) = storage (dataSlot keccak256 baseSlot i) := by
  have hlt := calcChunks_lt hlen
  by_cases hlong : isLongString (storage baseSlot) = true
  · obtain ⟨hlength, hchunks⟩ := h.chunks_eq hlen hlong
    obtain ⟨s, hs, hzero, hframe⟩ := zeroChunks_ok keccak256 baseSlot
      storage (Nat.zero_le _) hlt
    refine ⟨Function.update s baseSlot 0, ?_, Function.update_self _ _ _, ?_, ?_⟩
    · simp [deleteBytesLike, hlong, hlength, hs]
    · intro i hi
      rw [hchunks] at hi
      rw [Function.update_of_ne (hsep i (by omega)), hzero i (Nat.zero_le i) hi]
    · intro i hi hge
      rw [hchunks] at hge
      rw [Function.update_of_ne (hsep i hi),
        hframe _ fun j _ hj => dataSlot_ne hi (by omega) (by omega)]
  · have hnone := h.short hlen hlong
    refine ⟨Function.update storage baseSlot 0, ?_, Function.update_self _ _ _, ?_, ?_⟩
    · simp [deleteBytesLike, hlong]
    · intro i hi
      omega
    · exact fun i hi _ => Function.update_of_ne (hsep i hi) _ _

/-- Storing a byte string over another one: it loads back with its length, the
data slots only the old value used are zero, and deleting it leaves nothing. -/
theorem store_over_then_delete {spec₀ spec : TempoHardfork} {ctx₀ : LayoutCtx}
    {s₀ s : Slots} {old new : Bytes} (hold : old.length ≤ 2 ^ 32 - 1)
    (hnew : new.length ≤ 2 ^ 32 - 1)
    (hstored : storeBytesLike keccak256 spec₀ old s₀ baseSlot ctx₀ = .ok s)
    (h5 : spec.isT5 = true) :
    ∃ s', storeBytesLike keccak256 spec new s baseSlot .full = .ok s' ∧
      (∀ (T : Type) (into : Bytes → Result T),
        loadBytesLike keccak256 s' baseSlot into = into new) ∧
      len s' baseSlot = .ok new.length ∧
      (∀ i, dataChunks new ≤ i → i < dataChunks old → s' (dataSlot keccak256 baseSlot i) = 0) ∧
      ∃ s'', deleteBytesLike keccak256 s' baseSlot = .ok s'' ∧ s'' baseSlot = 0 ∧
        ∀ i < 2 ^ 32, i < dataChunks old ∨ i < dataChunks new ∨
          s (dataSlot keccak256 baseSlot i) = 0 → s'' (dataSlot keccak256 baseSlot i) = 0 := by
  have hholds := holds_of_store hsep (by omega) hstored
  obtain ⟨s', hs', hholds', hzero, hkept⟩ := hholds.store hsep (by omega) new (by omega) h5
  obtain ⟨s'', hs'', hbase, hdeleted, hrest⟩ := hholds'.delete hsep (by omega)
  refine ⟨s', hs', fun _ => hholds'.load_eq (by omega), hholds'.len_eq (by omega), hzero, s'',
    hs'', hbase, fun i hi hcase => ?_⟩
  by_cases hin : i < dataChunks new
  · exact hdeleted i hin
  · rw [hrest i hi (by omega)]
    by_cases hbefore : i < dataChunks old
    · exact hzero i (by omega) hbefore
    · rw [hkept i hi (by omega) (by omega)]
      exact (hcase.resolve_left hbefore).resolve_left hin

end Separate

end BytesLike

/-- The digest of the zero word; other words are left as they are. -/
def slotHash (bytes : Bytes) : B256 :=
  if bytes = List.replicate 32 0 then
    0x290decd9548b62a8d60345a988386fc84ba6bc95484008f6362f93160ef3e563
  else BitVec.ofNat 256 (beValue bytes)

theorem slotHash_ne : ∀ k < 2 ^ 32, (0 : U256) ≠ calcDataSlot slotHash 0 + BitVec.ofNat 256 k := by
  intro k hk heq
  have hval := congrArg BitVec.toNat heq
  rw [show calcDataSlot slotHash 0 =
    0x290decd9548b62a8d60345a988386fc84ba6bc95484008f6362f93160ef3e563 from rfl] at hval
  simp at hval
  omega

namespace BytesLike

/-- One byte over forty, and nothing after it. -/
theorem store_over_then_delete_short : ∃ s s' s'',
    storeBytesLike slotHash .T5 (List.replicate 40 7) (fun _ => 0) 0 .full = .ok s ∧
      storeBytesLike slotHash .T5 [5] s 0 .full = .ok s' ∧
      loadBytesLike slotHash s' 0 .ok = .ok [5] ∧ s' (dataSlot slotHash 0 1) = 0 ∧
      deleteBytesLike slotHash s' 0 = .ok s'' ∧ s'' 0 = 0 := by
  have hsep : ∀ i < 2 ^ 32, dataSlot slotHash 0 i ≠ 0 := fun i hi => (slotHash_ne i hi).symm
  have hzero : Holds slotHash (fun _ => 0) 0 [] := ⟨by decide, fun h => by simp at h⟩
  obtain ⟨s, hs, -⟩ := hzero.store hsep (by decide) (List.replicate 40 7) (by decide)
    (show TempoHardfork.T5.isT5 = true from rfl)
  obtain ⟨s', hs', hload, -, hcleared, s'', hs'', hbase, -⟩ := store_over_then_delete hsep
    (by decide) (show ([5] : Bytes).length ≤ 2 ^ 32 - 1 by decide) hs
    (show TempoHardfork.T5.isT5 = true from rfl)
  exact ⟨s, s', s'', hs, hs', hload Bytes .ok, hcleared 1 (by decide) (by decide), hs'', hbase⟩

end BytesLike
end SciChain.RawStorage
