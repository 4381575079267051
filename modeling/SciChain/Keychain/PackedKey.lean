import SciChain.Keychain.Operations
import SciChain.Storage.Packing

/-!
The storage word of an `AuthorizedKey`: the derive-generated layout, the
readers and writers of it, and the slot arithmetic used outside an EVM
execution.
-/

namespace SciChain
open Library RawStorage

namespace AuthorizedKey

def signatureTypeLoc : FieldLocation := ⟨0, 0, bytes U8⟩
def expiryLoc : FieldLocation := signatureTypeLoc.next (bytes U64)
def enforceLimitsLoc : FieldLocation := expiryLoc.next (bytes Bool)
def isRevokedLoc : FieldLocation := enforceLimitsLoc.next (bytes Bool)

def locations : List FieldLocation := [signatureTypeLoc, expiryLoc, enforceLimitsLoc, isRevokedLoc]

/-- The context every field is read and written with, in bulk and by its handler. -/
def ctxOf (loc : FieldLocation) : LayoutCtx := .packed loc.offsetBytes

/-- The generated `Storable::load` after the slot has been read: all four fields
are in the first slot, so the word is read once. -/
def unpack (cachedSlot : U256) : Result AuthorizedKey := do
  let signatureType ← loadWord cachedSlot (ctxOf signatureTypeLoc)
  let expiry ← loadWord cachedSlot (ctxOf expiryLoc)
  let enforceLimits ← loadWord cachedSlot (ctxOf enforceLimitsLoc)
  let isRevoked ← loadWord cachedSlot (ctxOf isRevokedLoc)
  pure { signatureType, expiry, enforceLimits, isRevoked }

/-- The word the generated `Storable::store` commits: from T4 on it starts from
zero, before that from the word in the slot. -/
def pack (spec : TempoHardfork) (current : U256) (key : AuthorizedKey) :
    Result U256 := do
  let pending := if spec.isT4 then 0 else current
  let pending ← storeWord pending key.signatureType (ctxOf signatureTypeLoc)
  let pending ← storeWord pending key.expiry (ctxOf expiryLoc)
  let pending ← storeWord pending key.enforceLimits (ctxOf enforceLimitsLoc)
  storeWord pending key.isRevoked (ctxOf isRevokedLoc)

def load (storage : Slots) (baseSlot : U256) : Result AuthorizedKey :=
  unpack (storage (baseSlot + BitVec.ofNat 256 signatureTypeLoc.offsetSlots))

def store (spec : TempoHardfork) (key : AuthorizedKey) (storage : Slots) (baseSlot : U256) :
    Result Slots := do
  let slot := baseSlot + BitVec.ofNat 256 signatureTypeLoc.offsetSlots
  let pending ← pack spec (storage slot) key
  pure (Function.update storage slot pending)

end AuthorizedKey

/-- `StorageKey::mapping_slot` of an address: the key left-padded to 32 bytes,
then the slot, hashed. -/
def mappingSlot (keccak256 : Bytes → B256) (key : Address) (slot : U256) : U256 :=
  keccak256 (beBytes 32 key.toNat ++ beBytes 32 slot.toNat)

namespace AccountKeychain

/-- Slot of the first field of the contract. -/
def keysSlot : U256 := 0

def authorizedKeySlot (keccak256 : Bytes → B256) (account keyId : Address) : U256 :=
  mappingSlot keccak256 keyId (mappingSlot keccak256 account keysSlot)

/-- Loading from a `PackedSlot`, which holds its one word at every slot. -/
def decodeAuthorizedKey (word : U256) : Result AuthorizedKey :=
  AuthorizedKey.load (fun _ => word) 0

/-- Storing into a zero `PackedSlot` under the default level of a scratch provider. -/
def encodeAuthorizedKey (key : AuthorizedKey) : Result U256 :=
  AuthorizedKey.pack .Genesis 0 key

def authorizedKeyWordIsActive (word : U256) (now : U64) : Bool :=
  match decodeAuthorizedKey word with
  | .ok key => key.expiry ≠ 0 && !key.isRevoked && now.toNat < key.expiry.toNat
  | .error _ => false

/-- The keychain's `keys` mapping as its handlers read it from the account's
storage. -/
def keysOf (keccak256 : Bytes → B256) (storage : Slots) (account keyId : Address) :
    Result AuthorizedKey :=
  AuthorizedKey.load storage
    (mappingSlot keccak256 keyId (mappingSlot keccak256 account keysSlot))

/-- `load_active_key` on raw storage. -/
def loadActiveKeyAt (keccak256 : Bytes → B256) (storage : Slots) (account keyId : Address)
    (now : U64) : Result AuthorizedKey := do
  let key ← keysOf keccak256 storage account keyId
  reject key.isRevoked (.accountKeychain .keyAlreadyRevoked)
  reject (key.expiry = 0) (.accountKeychain .keyNotFound)
  reject (key.expiry.toNat ≤ now.toNat) (.accountKeychain .keyExpired)
  pure key

end AccountKeychain
end SciChain
