import SciChain.Keychain.PackedKey

namespace SciChain
open Library RawStorage AuthorizedKey

namespace AuthorizedKey

section Fields
variable (word : U256) (offset : Nat)

theorem load_byte (h : offset + 1 ≤ 32) : ∃ v : U8, loadWord word (.packed offset) = .ok v := by
  refine ⟨_, (loadWord_packed word (by decide) h).trans (if_pos ?_)⟩
  exact toNat_lane_lt word _ _

theorem load_u64 (h : offset + 8 ≤ 32) : ∃ v : U64, loadWord word (.packed offset) = .ok v := by
  refine ⟨_, (loadWord_packed word (by decide) h).trans (if_pos ?_)⟩
  exact toNat_lane_lt word _ _

theorem load_bool (h : offset + 1 ≤ 32) : ∃ v : Bool, loadWord word (.packed offset) = .ok v :=
  ⟨_, loadWord_packed word (by decide) h⟩

end Fields

/-- What `unpack` returns when the four lanes hold these values. -/
theorem unpack_eq (hs : loadWord word (ctxOf signatureTypeLoc) = .ok key.signatureType)
    (he : loadWord word (ctxOf expiryLoc) = .ok key.expiry)
    (hl : loadWord word (ctxOf enforceLimitsLoc) = .ok key.enforceLimits)
    (hr : loadWord word (ctxOf isRevokedLoc) = .ok key.isRevoked) : unpack word = .ok key := by
  simp [unpack, hs, he, hl, hr]

/-- Every word decodes, and the key has the values of the four lanes. -/
theorem unpack_ok (word : U256) : ∃ key, unpack word = .ok key ∧
    loadWord word (ctxOf signatureTypeLoc) = .ok key.signatureType ∧
    loadWord word (ctxOf expiryLoc) = .ok key.expiry ∧
    loadWord word (ctxOf enforceLimitsLoc) = .ok key.enforceLimits ∧
    loadWord word (ctxOf isRevokedLoc) = .ok key.isRevoked := by
  obtain ⟨s, hs⟩ := load_byte word 0 (by decide)
  obtain ⟨e, he⟩ := load_u64 word 1 (by decide)
  obtain ⟨l, hl⟩ := load_bool word 9 (by decide)
  obtain ⟨r, hr⟩ := load_bool word 10 (by decide)
  exact ⟨⟨s, e, l, r⟩, unpack_eq hs he hl hr, hs, he, hl, hr⟩

section Writes
variable {word : U256} {key : AuthorizedKey} (h : unpack word = .ok key)
include h

theorem lanes_of_unpack : loadWord word (ctxOf signatureTypeLoc) = .ok key.signatureType ∧
    loadWord word (ctxOf expiryLoc) = .ok key.expiry ∧
    loadWord word (ctxOf enforceLimitsLoc) = .ok key.enforceLimits ∧
    loadWord word (ctxOf isRevokedLoc) = .ok key.isRevoked := by
  obtain ⟨key', h', hlanes⟩ := unpack_ok word
  rw [h] at h'
  cases h'
  exact hlanes

theorem write_signatureType (v : U8) :
    ∃ word', storeWord word v (ctxOf signatureTypeLoc) = .ok word' ∧
      unpack word' = .ok { key with signatureType := v } := by
  obtain ⟨-, he, hl, hr⟩ := lanes_of_unpack h
  obtain ⟨word', hw, hv, hother⟩ := storeWord_spec word v 0 (by decide) (by decide)
  refine ⟨word', hw, unpack_eq hv ?_ ?_ ?_⟩
  · exact (hother U64 1 (by decide) (by decide) (by decide)).trans he
  · exact (hother Bool 9 (by decide) (by decide) (by decide)).trans hl
  · exact (hother Bool 10 (by decide) (by decide) (by decide)).trans hr

theorem write_expiry (v : U64) :
    ∃ word', storeWord word v (ctxOf expiryLoc) = .ok word' ∧
      unpack word' = .ok { key with expiry := v } := by
  obtain ⟨hs, -, hl, hr⟩ := lanes_of_unpack h
  obtain ⟨word', hw, hv, hother⟩ := storeWord_spec word v 1 (by decide) (by decide)
  refine ⟨word', hw, unpack_eq ?_ hv ?_ ?_⟩
  · exact (hother U8 0 (by decide) (by decide) (by decide)).trans hs
  · exact (hother Bool 9 (by decide) (by decide) (by decide)).trans hl
  · exact (hother Bool 10 (by decide) (by decide) (by decide)).trans hr

theorem write_enforceLimits (v : Bool) :
    ∃ word', storeWord word v (ctxOf enforceLimitsLoc) = .ok word' ∧
      unpack word' = .ok { key with enforceLimits := v } := by
  obtain ⟨hs, he, -, hr⟩ := lanes_of_unpack h
  obtain ⟨word', hw, hv, hother⟩ := storeWord_spec word v 9 (by decide) (by decide)
  refine ⟨word', hw, unpack_eq ?_ ?_ hv ?_⟩
  · exact (hother U8 0 (by decide) (by decide) (by decide)).trans hs
  · exact (hother U64 1 (by decide) (by decide) (by decide)).trans he
  · exact (hother Bool 10 (by decide) (by decide) (by decide)).trans hr

theorem write_isRevoked (v : Bool) :
    ∃ word', storeWord word v (ctxOf isRevokedLoc) = .ok word' ∧
      unpack word' = .ok { key with isRevoked := v } := by
  obtain ⟨hs, he, hl, -⟩ := lanes_of_unpack h
  obtain ⟨word', hw, hv, hother⟩ := storeWord_spec word v 10 (by decide) (by decide)
  refine ⟨word', hw, unpack_eq ?_ ?_ ?_ hv⟩
  · exact (hother U8 0 (by decide) (by decide) (by decide)).trans hs
  · exact (hother U64 1 (by decide) (by decide) (by decide)).trans he
  · exact (hother Bool 9 (by decide) (by decide) (by decide)).trans hl

end Writes

/-- Four writes leave a word that decodes to the key, whatever the slot held. -/
theorem unpack_pack (spec : TempoHardfork) (current : U256) (key : AuthorizedKey) :
    ∃ word, pack spec current key = .ok word ∧ unpack word = .ok key := by
  obtain ⟨key₀, h₀, -⟩ := unpack_ok (if spec.isT4 then 0 else current)
  obtain ⟨word₁, hw₁, h₁⟩ := write_signatureType h₀ key.signatureType
  obtain ⟨word₂, hw₂, h₂⟩ := write_expiry h₁ key.expiry
  obtain ⟨word₃, hw₃, h₃⟩ := write_enforceLimits h₂ key.enforceLimits
  obtain ⟨word₄, hw₄, h₄⟩ := write_isRevoked h₃ key.isRevoked
  exact ⟨word₄, by simp only [pack, hw₁, hw₂, hw₃, hw₄, bind_value], h₄⟩

end AuthorizedKey

namespace AccountKeychain

theorem loadActiveKeyAt_ok (h : keysOf keccak256 storage account keyId = .ok key) :
    (∃ active, loadActiveKeyAt keccak256 storage account keyId now = .ok active) ↔
      key.isRevoked = false ∧ key.expiry ≠ 0 ∧ now.toNat < key.expiry.toNat := by
  simp [loadActiveKeyAt, h, reject_bind_ok]

/-- The packed word of a key: it decodes to what was encoded, its fields lie in
disjoint bytes and are written apart from each other, and the raw test of the
word agrees with the keychain's own reading of the slot. -/
theorem key_word_agrees (keccak256 : Bytes → B256) :
    (∀ key, ∃ word, encodeAuthorizedKey key = .ok word ∧ decodeAuthorizedKey word = .ok key) ∧
    (AuthorizedKey.locations.Pairwise fun a b =>
      a.offsetSlots = b.offsetSlots ∧ a.offsetBytes + a.size ≤ b.offsetBytes ∧
        b.offsetBytes + b.size ≤ 32) ∧
    (∀ word, ∃ key, decodeAuthorizedKey word = .ok key ∧
      (∀ v, ∃ word', storeWord word v (AuthorizedKey.ctxOf AuthorizedKey.signatureTypeLoc) =
        .ok word' ∧ decodeAuthorizedKey word' = .ok { key with signatureType := v }) ∧
      (∀ v, ∃ word', storeWord word v (AuthorizedKey.ctxOf AuthorizedKey.expiryLoc) =
        .ok word' ∧ decodeAuthorizedKey word' = .ok { key with expiry := v }) ∧
      (∀ v, ∃ word', storeWord word v (AuthorizedKey.ctxOf AuthorizedKey.enforceLimitsLoc) =
        .ok word' ∧ decodeAuthorizedKey word' = .ok { key with enforceLimits := v }) ∧
      (∀ v, ∃ word', storeWord word v (AuthorizedKey.ctxOf AuthorizedKey.isRevokedLoc) =
        .ok word' ∧ decodeAuthorizedKey word' = .ok { key with isRevoked := v })) ∧
    ∀ storage account keyId now,
      authorizedKeyWordIsActive (storage (authorizedKeySlot keccak256 account keyId)) now = true ↔
        ∃ key, loadActiveKeyAt keccak256 storage account keyId now = .ok key := by
  refine ⟨unpack_pack _ _, by decide, ?_, ?_⟩
  · intro word
    obtain ⟨key, hkey, -⟩ := unpack_ok word
    exact ⟨key, hkey, write_signatureType hkey, write_expiry hkey,
      write_enforceLimits hkey, write_isRevoked hkey⟩
  · intro storage account keyId now
    obtain ⟨key, hkey, -⟩ :=
      unpack_ok (storage (authorizedKeySlot keccak256 account keyId))
    have hread : keysOf keccak256 storage account keyId = .ok key := by
      rw [keysOf, load, show signatureTypeLoc.offsetSlots = 0 from rfl,
        BitVec.add_zero]
      exact hkey
    have hdecode : decodeAuthorizedKey (storage (authorizedKeySlot keccak256 account keyId)) =
      .ok key := hkey
    rw [loadActiveKeyAt_ok hread, authorizedKeyWordIsActive, hdecode]
    simp only [Bool.and_eq_true, decide_eq_true_eq, Bool.not_eq_true', ne_eq, and_assoc]
    exact ⟨fun ⟨he, hr, hn⟩ => ⟨hr, he, hn⟩, fun ⟨hr, he, hn⟩ => ⟨he, hr, hn⟩⟩

end AccountKeychain
end SciChain
