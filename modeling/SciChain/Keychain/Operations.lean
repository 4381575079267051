import SciChain.Keychain.Scopes

namespace SciChain
open Library Storage AccountKeychainError

/-- End of the window holding `now`, saturating in every intermediate step. -/
def SpendingLimitState.computeNextPeriodEnd (row : SpendingLimitState) (now : U64) : U64 :=
  let elapsed := satSub now row.periodEnd
  let periodsElapsed := satAdd (elapsed / row.period) 1
  let advance := satMul row.period periodsElapsed
  satAdd row.periodEnd advance

/-- The row a spend is checked against: a periodic row whose window has ended
starts a new one with the full amount. -/
def SpendingLimitState.rollover (row : SpendingLimitState) (now : U64) : SpendingLimitState :=
  if row.period ≠ 0 ∧ row.periodEnd.toNat ≤ now.toNat then
    { row with remaining := row.max.setWidth 256, periodEnd := row.computeNextPeriodEnd now }
  else row

/-- What a refund leaves as the remaining amount: clamped only where the row
has a non-zero `max`. -/
def SpendingLimitState.refunded (row : SpendingLimitState) (amount : U256) : U256 :=
  let refunded := satAdd row.remaining amount
  if row.max = 0 then refunded
  else if refunded.toNat ≤ row.max.toNat then refunded else row.max.setWidth 256

def t3SpendingLimitCap (limit : U256) : Result U128 := do
  reject ((maxWord 128).toNat < limit.toNat) (.accountKeychain invalidSpendingLimit)
  pure (limit.setWidth 128)

namespace AccountKeychain

section Callers

def loadActiveKey (kc : AccountKeychain) (account keyId : Address) (now : U64) :
    Result AuthorizedKey := do
  let key := kc.keys account keyId
  reject key.isRevoked (.accountKeychain keyAlreadyRevoked)
  reject (key.expiry = 0) (.accountKeychain keyNotFound)
  reject (key.expiry.toNat ≤ now.toNat) (.accountKeychain keyExpired)
  pure key

/-- The transaction must be signed by the main key, or by an active key where
the operation tolerates one; from T2 on the caller must be the origin. -/
def ensureAccountCaller (ctx : StorageCtx) (kc : AccountKeychain) (sender : Address)
    (allowActiveKey : Bool) : Result Unit := do
  let _ ← (if kc.transactionKey = 0 then pure ()
    else if allowActiveKey then
      discard (kc.loadActiveKey sender kc.transactionKey ctx.now)
    else
      throw (.accountKeychain unauthorizedCaller))
  reject (ctx.spec.isT2 ∧ (kc.txOrigin = 0 ∨ kc.txOrigin ≠ sender))
    (.accountKeychain unauthorizedCaller)

def ensureAdminCaller (ctx : StorageCtx) (kc : AccountKeychain) (sender : Address) :
    Result Unit := ensureAccountCaller ctx kc sender false

def ensureKeyAuthorizationWitnessNotBurned (kc : AccountKeychain) (account : Address)
    (witness : B256) : Result Unit :=
  reject (kc.keyAuthorizationWitnesses account witness)
    (.accountKeychain keyAuthorizationWitnessAlreadyBurned)

end Callers

section Admin

/-- One turn of the limits loop of `apply_key_authorization_restrictions`. -/
def applyLimit (ctx : StorageCtx) (limitKey : LimitKey) (kc : AccountKeychain)
    (limit : TokenLimit) : Result AccountKeychain := do
  if ctx.spec.isT3 then
    let periodEnd := if limit.period = 0 then 0 else satAdd ctx.now limit.period
    let max ← t3SpendingLimitCap limit.amount
    pure (kc.setRow limitKey limit.token
      { remaining := limit.amount, max, period := limit.period, periodEnd })
  else
    let row := kc.spendingLimits limitKey limit.token
    pure (kc.setRow limitKey limit.token { row with remaining := limit.amount })

def applyKeyAuthorizationRestrictions (ctx : StorageCtx) (kc : AccountKeychain)
    (account keyId : Address) (limits : List TokenLimit) (allowedCalls : Option (List CallScope)) :
    Result AccountKeychain := do
  let limitKey := spendingLimitKey account keyId
  let kc ← limits.foldlM (applyLimit ctx limitKey) kc
  if ctx.spec.isT3 = false then pure kc else do
  let scope ← (kc.keyScopes limitKey).replaceAllowedCalls ctx allowedCalls
  pure (kc.setScope limitKey scope)

/-- The stored number of a signature type, refusing a value outside the enum. -/
def signatureTypeCode : SignatureType → Result U8
  | .Secp256k1 => pure 0
  | .P256 => pure 1
  | .WebAuthn => pure 2
  | .invalid => throw (.accountKeychain invalidSignatureType)

/-- The call scopes an authorization configures; periods and scopes are refused
before T3. -/
def allowedCallConfigs (ctx : StorageCtx) (config : KeyRestrictions) :
    Result (Option (List CallScope)) := do
  if ctx.spec.isT3 then
    reject (config.enforceLimits ∧ ¬(config.limits.map (·.token)).Nodup)
      (.accountKeychain invalidSpendingLimit)
    pure (if config.allowAnyCalls then none else some config.allowedCalls)
  else
    reject (config.limits.any (·.period ≠ 0)) (.accountKeychain invalidSpendingLimit)
    reject (config.allowAnyCalls = false ∨ config.allowedCalls.isEmpty = false)
      (.accountKeychain invalidCallScope)
    pure none

def emitWitness (kc : AccountKeychain) (account : Address) : Option B256 → AccountKeychain
  | none => kc
  | some witness => kc.emitEvent (.keyAuthorizationWitness account witness)

def authorizeKey (ctx : StorageCtx) (kc : AccountKeychain) (sender keyId : Address)
    (signatureType : SignatureType) (config : KeyRestrictions) (witness : Option B256) :
    Result AccountKeychain := do
  ensureAdminCaller ctx kc sender
  reject (keyId = 0) (.accountKeychain zeroPublicKey)
  reject (ctx.spec.isT0 ∧ config.expiry.toNat ≤ ctx.now.toNat) (.accountKeychain expiryInPast)
  let existingKey := kc.keys sender keyId
  reject (0 < existingKey.expiry.toNat) (.accountKeychain keyAlreadyExists)
  reject existingKey.isRevoked (.accountKeychain keyAlreadyRevoked)
  let signatureType ← signatureTypeCode signatureType
  let allowedCalls ← allowedCallConfigs ctx config
  witness.forM (kc.ensureKeyAuthorizationWitnessNotBurned sender)
  let newKey : AuthorizedKey :=
    { signatureType, expiry := config.expiry, enforceLimits := config.enforceLimits,
      isRevoked := false }
  let limits := if config.enforceLimits then config.limits else []
  let kc ← (kc.setKey sender keyId newKey).applyKeyAuthorizationRestrictions ctx sender keyId
    limits allowedCalls
  pure ((kc.emitWitness sender witness).emitEvent
    (.keyAuthorized sender keyId signatureType config.expiry))

def burnKeyAuthorizationWitness (ctx : StorageCtx) (kc : AccountKeychain) (sender : Address)
    (witness : B256) : Result AccountKeychain := do
  ensureAccountCaller ctx kc sender true
  kc.ensureKeyAuthorizationWitnessNotBurned sender witness
  pure ((kc.setWitness sender witness).emitEvent (.keyAuthorizationWitnessBurned sender witness))

def revokeKey (ctx : StorageCtx) (kc : AccountKeychain) (sender keyId : Address) :
    Result AccountKeychain := do
  ensureAdminCaller ctx kc sender
  reject ((kc.keys sender keyId).expiry = 0) (.accountKeychain keyNotFound)
  pure ((kc.setKey sender keyId { isRevoked := true }).emitEvent (.keyRevoked sender keyId))

def updateSpendingLimit (ctx : StorageCtx) (kc : AccountKeychain) (sender keyId token : Address)
    (newLimit : U256) : Result AccountKeychain := do
  ensureAdminCaller ctx kc sender
  let key ← kc.loadActiveKey sender keyId ctx.now
  let kc := if key.enforceLimits then kc
    else kc.setKey sender keyId { key with enforceLimits := true }
  let limitKey := spendingLimitKey sender keyId
  let row := kc.spendingLimits limitKey token
  let max ← if ctx.spec.isT3 then t3SpendingLimitCap newLimit else pure row.max
  pure ((kc.setRow limitKey token { row with remaining := newLimit, max }).emitEvent
    (.spendingLimitUpdated sender keyId token newLimit))

def setAllowedCalls (ctx : StorageCtx) (kc : AccountKeychain) (sender keyId : Address)
    (scopes : List CallScope) : Result AccountKeychain := do
  reject (ctx.spec.isT3 = false) (.accountKeychain invalidCallScope)
  ensureAdminCaller ctx kc sender
  let _ ← kc.loadActiveKey sender keyId ctx.now
  reject scopes.isEmpty (.accountKeychain invalidCallScope)
  validateCallScopes ctx [] scopes
  let limitKey := spendingLimitKey sender keyId
  let scope ← scopes.foldlM (KeyScope.upsertTargetScope ctx) (kc.keyScopes limitKey)
  pure (kc.setScope limitKey { scope with isScoped := true })

def removeAllowedCalls (ctx : StorageCtx) (kc : AccountKeychain) (sender keyId target : Address) :
    Result AccountKeychain := do
  ensureAdminCaller ctx kc sender
  let _ ← kc.loadActiveKey sender keyId ctx.now
  let limitKey := spendingLimitKey sender keyId
  let scope := kc.keyScopes limitKey
  if scope.isScoped = false then pure kc
  else pure (kc.setScope limitKey (scope.removeTargetScope target))

end Admin

section Spending

/-- Remaining amount and end of the window at `now`, without writing a rollover. -/
def effectiveLimitState (ctx : StorageCtx) (kc : AccountKeychain) (account keyId token : Address)
    (now : U64) : U256 × U64 :=
  if keyId = 0 ∧ ctx.spec.isT3 then (0, 0) else
  let key := kc.keys account keyId
  if key.isRevoked ∨ key.expiry = 0 then (0, 0) else
  if key.expiry.toNat ≤ now.toNat ∧ ctx.spec.isT3 then (0, 0) else
  let row := kc.spendingLimits (spendingLimitKey account keyId) token
  if ctx.spec.isT3 = false then (row.remaining, 0) else
  if row.period = 0 then (row.remaining, 0) else
  if now.toNat < row.periodEnd.toNat then (row.remaining, row.periodEnd) else
  (row.max.setWidth 256, row.computeNextPeriodEnd now)

def effectiveRemainingLimit (ctx : StorageCtx) (kc : AccountKeychain)
    (account keyId token : Address) (now : U64) : U256 :=
  (kc.effectiveLimitState ctx account keyId token now).1

/-- `verify_and_update_spending`. The pre-T3 path knows neither periods nor the
spend event. -/
def verifyAndUpdateSpending (ctx : StorageCtx) (kc : AccountKeychain)
    (account keyId token : Address) (amount : U256) :
    Result AccountKeychain := do
  if keyId = 0 then pure kc else do
  let key ← kc.loadActiveKey account keyId ctx.now
  if key.enforceLimits = false then pure kc else do
  let limitKey := spendingLimitKey account keyId
  let stored := kc.spendingLimits limitKey token
  if ctx.spec.isT3 = false then do
    reject (stored.remaining.toNat < amount.toNat) (.accountKeychain spendingLimitExceeded)
    pure (kc.setRow limitKey token { stored with remaining := stored.remaining - amount })
  else do
    let row := stored.rollover ctx.now
    reject (row.remaining.toNat < amount.toNat) (.accountKeychain spendingLimitExceeded)
    let newRemaining := row.remaining - amount
    pure ((kc.setRow limitKey token { row with remaining := newRemaining }).emitEvent
      (.accessKeySpend account keyId token amount newRemaining))

def refundSpendingLimit (ctx : StorageCtx) (kc : AccountKeychain) (account token : Address)
    (amount : U256) : Result AccountKeychain := do
  if kc.transactionKey = 0 then pure kc else do
  if account ≠ kc.txOrigin then pure kc else do
  match kc.loadActiveKey account kc.transactionKey ctx.now with
  | .error e => if e.isSystemError then throw e else pure kc
  | .ok key => do
    if key.enforceLimits = false then pure kc else do
    let limitKey := spendingLimitKey account kc.transactionKey
    let row := kc.spendingLimits limitKey token
    let remaining := if ctx.spec.isT3 then row.refunded amount
      else satAdd row.remaining amount
    pure (kc.setRow limitKey token { row with remaining })

def authorizeTransfer (ctx : StorageCtx) (kc : AccountKeychain) (account token : Address)
    (amount : U256) : Result AccountKeychain :=
  if kc.transactionKey = 0 then pure kc
  else if account ≠ kc.txOrigin then pure kc
  else kc.verifyAndUpdateSpending ctx account kc.transactionKey token amount

def authorizeApprove (ctx : StorageCtx) (kc : AccountKeychain) (account token : Address)
    (oldApproval newApproval : U256) : Result AccountKeychain :=
  if kc.transactionKey = 0 then pure kc
  else if account ≠ kc.txOrigin then pure kc
  else
    let approvalIncrease := satSub newApproval oldApproval
    if approvalIncrease = 0 then pure kc
    else kc.verifyAndUpdateSpending ctx account kc.transactionKey token approvalIncrease

end Spending

section Views

structure KeyInfo where
  signatureType : SignatureType
  keyId : Address
  expiry : U64
  enforceLimits : Bool
  isRevoked : Bool
  deriving DecidableEq, Repr

def getKey (kc : AccountKeychain) (account keyId : Address) : KeyInfo :=
  let key := kc.keys account keyId
  if key.expiry = 0 ∨ key.isRevoked then
    { signatureType := .Secp256k1, keyId := 0, expiry := 0, enforceLimits := false,
      isRevoked := key.isRevoked }
  else
    { signatureType := if key.signatureType = 1 then .P256
        else if key.signatureType = 2 then .WebAuthn else .Secp256k1,
      keyId, expiry := key.expiry, enforceLimits := key.enforceLimits,
      isRevoked := key.isRevoked }

def getRemainingLimitWithPeriod (ctx : StorageCtx) (kc : AccountKeychain)
    (account keyId token : Address) : U256 × U64 :=
  kc.effectiveLimitState ctx account keyId token ctx.now

def getRemainingLimit (ctx : StorageCtx) (kc : AccountKeychain) (account keyId token : Address) :
    U256 :=
  if ctx.spec.isT2 then (kc.getRemainingLimitWithPeriod ctx account keyId token).1
  else (kc.spendingLimits (spendingLimitKey account keyId) token).remaining

/-- Missing, revoked and expired keys report a scoped deny-all. -/
def getAllowedCalls (ctx : StorageCtx) (kc : AccountKeychain) (account keyId : Address) :
    Bool × List CallScope :=
  if keyId = 0 then (false, []) else
  let key := kc.keys account keyId
  if key.expiry = 0 ∨ key.isRevoked ∨ key.expiry.toNat ≤ ctx.now.toNat then (true, []) else
  let scope := kc.keyScopes (spendingLimitKey account keyId)
  if scope.isScoped = false then (false, []) else (true, scope.listScopes)

def isKeyAuthorizationWitnessBurned (kc : AccountKeychain) (account : Address) (witness : B256) :
    Bool := kc.keyAuthorizationWitnesses account witness

def getTransactionKey (kc : AccountKeychain) : Address := kc.transactionKey

/-- Failures to load the key other than system errors read as inactive. -/
def keyIsActive (ctx : StorageCtx) (kc : AccountKeychain) (account keyId : Address) :
    Result Bool :=
  match kc.loadActiveKey account keyId ctx.now with
  | .ok _ => .ok true
  | .error e => if e.isSystemError then .error e else .ok false

def validateCallScopeForTransaction (ctx : StorageCtx) (kc : AccountKeychain)
    (account keyId : Address) (kind : TxKind) (input : Bytes) : Result Unit :=
  if keyId = 0 ∨ ctx.spec.isT3 = false then pure ()
  else match kind with
    | .create => throw (.accountKeychain callNotAllowed)
    | .call target =>
      (kc.keyScopes (spendingLimitKey account keyId)).validateCall target input

end Views
end AccountKeychain
end SciChain
