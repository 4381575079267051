import SciChain.Storage.Set

namespace SciChain
open Library Storage

/-- What the storage provider reports about the running block. -/
structure StorageCtx where
  spec : TempoHardfork
  timestamp : U256
  deriving DecidableEq, Repr

/-- `timestamp().saturating_to::<u64>()`. -/
def StorageCtx.now (ctx : StorageCtx) : U64 := satTo 64 ctx.timestamp

inductive SignatureType where
  | Secp256k1
  | P256
  | WebAuthn
  | invalid
  deriving DecidableEq, Repr

structure TokenLimit where
  token : Address
  amount : U256
  period : U64
  deriving DecidableEq, Repr

structure SelectorRule where
  selector : Selector
  recipients : List Address
  deriving DecidableEq, Repr

structure CallScope where
  target : Address
  selectorRules : List SelectorRule
  deriving DecidableEq, Repr

structure KeyRestrictions where
  expiry : U64
  enforceLimits : Bool
  limits : List TokenLimit
  allowAnyCalls : Bool
  allowedCalls : List CallScope
  deriving DecidableEq, Repr

/-- A stored key record. Absent is `expiry = 0` with `isRevoked` unset, revoked
is `expiry = 0` with `isRevoked` set. -/
structure AuthorizedKey where
  signatureType : U8 := 0
  expiry : U64 := 0
  enforceLimits : Bool := false
  isRevoked : Bool := false
  deriving DecidableEq, Repr

structure SpendingLimitState where
  remaining : U256 := 0
  max : U128 := 0
  period : U64 := 0
  periodEnd : U64 := 0
  deriving DecidableEq, Repr

structure SelectorScope where
  recipients : SetSlots Address

structure TargetScope where
  selectors : SetSlots Selector
  selectorScopes : Selector → SelectorScope

structure KeyScope where
  isScoped : Bool
  targets : SetSlots Address
  targetScopes : Address → TargetScope

def SelectorScope.default : SelectorScope := ⟨SetSlots.empty⟩
def TargetScope.default : TargetScope := ⟨SetSlots.empty, fun _ => SelectorScope.default⟩
def KeyScope.default : KeyScope := ⟨false, SetSlots.empty, fun _ => TargetScope.default⟩

/-- Index of the rows of one account key. The source hashes the forty bytes of
`account` and `keyId`; the pair is the preimage, so distinct pairs have
distinct rows here exactly as far as the hash does not collide. -/
structure LimitKey where
  account : Address
  keyId : Address
  deriving DecidableEq, Repr

def spendingLimitKey (account keyId : Address) : LimitKey := ⟨account, keyId⟩

inductive KeychainEvent where
  | keyAuthorizationWitness (account : Address) (witness : B256)
  | keyAuthorized (account publicKey : Address) (signatureType : U8) (expiry : U64)
  | keyAuthorizationWitnessBurned (account : Address) (witness : B256)
  | keyRevoked (account publicKey : Address)
  | spendingLimitUpdated (account publicKey token : Address) (newLimit : U256)
  | accessKeySpend (account publicKey token : Address) (amount remainingLimit : U256)
  deriving DecidableEq, Repr

/-- Storage of the precompile. The last two storage fields are transient and
live for one transaction; `events` is the log it has emitted. -/
structure AccountKeychain where
  keys : Address → Address → AuthorizedKey
  spendingLimits : LimitKey → Address → SpendingLimitState
  keyScopes : LimitKey → KeyScope
  keyAuthorizationWitnesses : Address → B256 → Bool
  transactionKey : Address
  txOrigin : Address
  events : List KeychainEvent

namespace AccountKeychain

def empty : AccountKeychain where
  keys := fun _ _ => {}
  spendingLimits := fun _ _ => {}
  keyScopes := fun _ => KeyScope.default
  keyAuthorizationWitnesses := fun _ _ => false
  transactionKey := 0
  txOrigin := 0
  events := []

def setKey (kc : AccountKeychain) (account keyId : Address) (key : AuthorizedKey) :
    AccountKeychain :=
  { kc with keys := Function.update kc.keys account (Function.update (kc.keys account) keyId key) }

def setRow (kc : AccountKeychain) (limitKey : LimitKey) (token : Address)
    (row : SpendingLimitState) : AccountKeychain :=
  { kc with
    spendingLimits := Function.update kc.spendingLimits limitKey
      (Function.update (kc.spendingLimits limitKey) token row) }

def setScope (kc : AccountKeychain) (limitKey : LimitKey) (scope : KeyScope) : AccountKeychain :=
  { kc with keyScopes := Function.update kc.keyScopes limitKey scope }

def setWitness (kc : AccountKeychain) (account : Address) (witness : B256) : AccountKeychain :=
  { kc with
    keyAuthorizationWitnesses := Function.update kc.keyAuthorizationWitnesses account
      (Function.update (kc.keyAuthorizationWitnesses account) witness true) }

def emitEvent (kc : AccountKeychain) (event : KeychainEvent) : AccountKeychain :=
  { kc with events := kc.events ++ [event] }

def setTransactionKey (kc : AccountKeychain) (keyId : Address) : AccountKeychain :=
  { kc with transactionKey := keyId }

def setTxOrigin (kc : AccountKeychain) (origin : Address) : AccountKeychain :=
  { kc with txOrigin := origin }

variable (kc : AccountKeychain)

@[simp] theorem keys_setKey (a k : Address) (v : AuthorizedKey) (a' k' : Address) :
    (kc.setKey a k v).keys a' k' = if a' = a ∧ k' = k then v else kc.keys a' k' := by
  simp only [setKey, Function.update_apply]
  by_cases ha : a' = a <;> by_cases hk : k' = k <;> simp [ha, hk]

@[simp] theorem spendingLimits_setRow (l : LimitKey) (t : Address) (row : SpendingLimitState)
    (l' : LimitKey) (t' : Address) : (kc.setRow l t row).spendingLimits l' t' =
      if l' = l ∧ t' = t then row else kc.spendingLimits l' t' := by
  simp only [setRow, Function.update_apply]
  by_cases hl : l' = l <;> by_cases ht : t' = t <;> simp [hl, ht]

@[simp] theorem keyScopes_setScope (l : LimitKey) (scope : KeyScope) (l' : LimitKey) :
    (kc.setScope l scope).keyScopes l' = if l' = l then scope else kc.keyScopes l' := by
  simp only [setScope, Function.update_apply]

section Frame

variable (a k t : Address) (v : AuthorizedKey) (l : LimitKey) (row : SpendingLimitState)
  (e : KeychainEvent)

@[simp] theorem spendingLimits_setKey : (kc.setKey a k v).spendingLimits = kc.spendingLimits := rfl
@[simp] theorem keyScopes_setKey : (kc.setKey a k v).keyScopes = kc.keyScopes := rfl
@[simp] theorem transactionKey_setKey : (kc.setKey a k v).transactionKey = kc.transactionKey := rfl
@[simp] theorem txOrigin_setKey : (kc.setKey a k v).txOrigin = kc.txOrigin := rfl

@[simp] theorem keys_setRow : (kc.setRow l t row).keys = kc.keys := rfl
@[simp] theorem keyScopes_setRow : (kc.setRow l t row).keyScopes = kc.keyScopes := rfl
@[simp] theorem transactionKey_setRow :
    (kc.setRow l t row).transactionKey = kc.transactionKey := rfl
@[simp] theorem txOrigin_setRow : (kc.setRow l t row).txOrigin = kc.txOrigin := rfl

@[simp] theorem keys_emitEvent : (kc.emitEvent e).keys = kc.keys := rfl
@[simp] theorem spendingLimits_emitEvent :
    (kc.emitEvent e).spendingLimits = kc.spendingLimits := rfl
@[simp] theorem keyScopes_emitEvent : (kc.emitEvent e).keyScopes = kc.keyScopes := rfl
@[simp] theorem transactionKey_emitEvent :
    (kc.emitEvent e).transactionKey = kc.transactionKey := rfl
@[simp] theorem txOrigin_emitEvent : (kc.emitEvent e).txOrigin = kc.txOrigin := rfl

@[simp] theorem keys_setTransactionKey : (kc.setTransactionKey k).keys = kc.keys := rfl
@[simp] theorem keys_setTxOrigin : (kc.setTxOrigin a).keys = kc.keys := rfl

end Frame
end AccountKeychain
end SciChain
