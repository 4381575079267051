import SciChain.Keychain.Operations
import SciChain.Library.Run

namespace SciChain
open Library AccountKeychainError

/-- The decoded interface of the precompile, `IAccountKeychainCalls`. -/
inductive KeychainCall where
  | authorizeKey0 (keyId : Address) (signatureType : SignatureType) (expiry : U64)
      (enforceLimits : Bool) (limits : List (Address × U256))
  | authorizeKey1 (keyId : Address) (signatureType : SignatureType) (config : KeyRestrictions)
  | authorizeKey2 (keyId : Address) (signatureType : SignatureType) (config : KeyRestrictions)
      (witness : B256)
  | burnKeyAuthorizationWitness (witness : B256)
  | revokeKey (keyId : Address)
  | updateSpendingLimit (keyId token : Address) (newLimit : U256)
  | setAllowedCalls (keyId : Address) (scopes : List CallScope)
  | removeAllowedCalls (keyId target : Address)
  | getKey (account keyId : Address)
  | getRemainingLimit (account keyId token : Address)
  | getRemainingLimitWithPeriod (account keyId token : Address)
  | getAllowedCalls (account keyId : Address)
  | isKeyAuthorizationWitnessBurned (account : Address) (witness : B256)
  | getTransactionKey
  deriving DecidableEq, Repr

/-- How the generated decoder refuses calldata. -/
inductive AbiError where
  | unknownSelector (selector : Selector)
  | malformed
  deriving DecidableEq, Repr

inductive ReturnData where
  | void
  | keyInfo (info : AccountKeychain.KeyInfo)
  | remaining (amount : U256)
  | remainingWithPeriod (amount : U256) (periodEnd : U64)
  | allowedCalls (isScoped : Bool) (scopes : List CallScope)
  | flag (value : Bool)
  | address (value : Address)
  deriving DecidableEq, Repr

inductive RevertData where
  | empty
  | delegateCallNotAllowed
  | staticCallNotAllowed
  | error (e : TempoPrecompileError)
  deriving DecidableEq, Repr

inductive PrecompileOutput where
  | success (data : ReturnData)
  | revert (data : RevertData)
  | outOfGas
  | haltOther (msg : String)
  | fatal (msg : String)
  deriving DecidableEq, Repr

/-- One EVM call into the precompile. `storageGas` tells whether the gas left
after the input cost pays for the storage accesses of the body, whose prices
are those of the host and are not modelled. -/
structure PrecompileInput where
  data : Bytes
  caller : Address
  gas : U64
  isDirectCall : Bool
  isStatic : Bool
  storageGas : Bool
  deriving DecidableEq, Repr

def inputPerWordCost : Nat := 6

/-- Decoding cost of the calldata, a `u64` as is the length it is computed from. -/
def inputCost (calldataLen : Nat) : Nat :=
  min ((calldataLen + 31) / 32 * inputPerWordCost) (2 ^ 64 - 1)

structure SelectorSchedule where
  hardfork : TempoHardfork
  added : List Selector
  dropped : List Selector

def SelectorSchedule.rejects (s : SelectorSchedule) (selector : Selector)
    (active : TempoHardfork) : Bool :=
  (if s.hardfork.level ≤ active.level then s.dropped else s.added).contains selector

def authorizeKeySelector : Selector := 0x980a6025
def setAllowedCallsSelector : Selector := 0xf5456703
def removeAllowedCallsSelector : Selector := 0xf3941811
def getRemainingLimitSelector : Selector := 0x63b4290d
def getRemainingLimitWithPeriodSelector : Selector := 0xa7f72cab
def getAllowedCallsSelector : Selector := 0x0163e7ec
def authorizeKeyWithWitnessSelector : Selector := 0xe3c154d2
def burnKeyAuthorizationWitnessSelector : Selector := 0xcff31c46
def isKeyAuthorizationWitnessBurnedSelector : Selector := 0x8e6c7e11

def keychainSchedules : List SelectorSchedule :=
  [ { hardfork := .T3,
      added := [authorizeKeySelector, setAllowedCallsSelector, removeAllowedCallsSelector,
        getRemainingLimitWithPeriodSelector, getAllowedCallsSelector],
      dropped := [getRemainingLimitSelector] },
    { hardfork := .T5,
      added := [authorizeKeyWithWitnessSelector, burnKeyAuthorizationWitnessSelector,
        isKeyAuthorizationWitnessBurnedSelector],
      dropped := [] } ]

/-- `TempoPrecompileError::into_precompile_result`. -/
def TempoPrecompileError.toOutput : TempoPrecompileError → PrecompileOutput
  | .outOfGas => .outOfGas
  | .fatal msg => .fatal msg
  | e => .revert (.error e)

namespace AccountKeychain

/-- A frame that does not succeed has its writes undone by the EVM. -/
def finish (kc : AccountKeychain) :
    Result (ReturnData × AccountKeychain) →
      PrecompileOutput × AccountKeychain
  | .ok (data, kc') => (.success data, kc')
  | .error e => (e.toOutput, kc)

def mutateVoid (input : PrecompileInput) (kc : AccountKeychain)
    (body : Result AccountKeychain) : PrecompileOutput × AccountKeychain :=
  if input.isStatic then (.revert .staticCallNotAllowed, kc)
  else kc.finish (if input.storageGas then body.map (.void, ·) else .error .outOfGas)

def view (input : PrecompileInput) (kc : AccountKeychain) (data : ReturnData) :
    PrecompileOutput × AccountKeychain :=
  kc.finish (if input.storageGas then .ok (data, kc) else .error .outOfGas)

def dispatch (ctx : StorageCtx) (input : PrecompileInput) (kc : AccountKeychain) :
    KeychainCall → PrecompileOutput × AccountKeychain
  | .authorizeKey0 keyId signatureType expiry enforceLimits limits =>
    if ctx.spec.isT3 then
      kc.finish (.error (.accountKeychain (legacyAuthorizeKeySelectorChanged authorizeKeySelector)))
    else
      let limits := limits.map fun limit => { token := limit.1, amount := limit.2, period := 0 }
      mutateVoid input kc (kc.authorizeKey ctx input.caller keyId signatureType
        { expiry, enforceLimits, limits, allowAnyCalls := true, allowedCalls := [] } none)
  | .authorizeKey1 keyId signatureType config =>
    mutateVoid input kc (kc.authorizeKey ctx input.caller keyId signatureType config none)
  | .authorizeKey2 keyId signatureType config witness =>
    mutateVoid input kc (kc.authorizeKey ctx input.caller keyId signatureType config (some witness))
  | .burnKeyAuthorizationWitness witness =>
    mutateVoid input kc (kc.burnKeyAuthorizationWitness ctx input.caller witness)
  | .revokeKey keyId => mutateVoid input kc (kc.revokeKey ctx input.caller keyId)
  | .updateSpendingLimit keyId token newLimit =>
    mutateVoid input kc (kc.updateSpendingLimit ctx input.caller keyId token newLimit)
  | .setAllowedCalls keyId scopes =>
    mutateVoid input kc (kc.setAllowedCalls ctx input.caller keyId scopes)
  | .removeAllowedCalls keyId target =>
    mutateVoid input kc (kc.removeAllowedCalls ctx input.caller keyId target)
  | .getKey account keyId => view input kc (.keyInfo (kc.getKey account keyId))
  | .getRemainingLimit account keyId token =>
    view input kc (.remaining (kc.getRemainingLimit ctx account keyId token))
  | .getRemainingLimitWithPeriod account keyId token =>
    let limit := kc.getRemainingLimitWithPeriod ctx account keyId token
    view input kc (.remainingWithPeriod limit.1 limit.2)
  | .getAllowedCalls account keyId =>
    let calls := kc.getAllowedCalls ctx account keyId
    view input kc (.allowedCalls calls.1 calls.2)
  | .isKeyAuthorizationWitnessBurned account witness =>
    view input kc (.flag (kc.isKeyAuthorizationWitnessBurned account witness))
  | .getTransactionKey => view input kc (.address kc.getTransactionKey)

/-- The whole precompile call. `decode` is the generated ABI decoder. -/
def call (decode : Bytes → Except AbiError KeychainCall) (ctx : StorageCtx)
    (input : PrecompileInput) (kc : AccountKeychain) : PrecompileOutput × AccountKeychain :=
  if input.isDirectCall = false then (.revert .delegateCallNotAllowed, kc) else
  if input.gas.toNat < inputCost input.data.length then (.outOfGas, kc) else
  if input.data.length < 4 then
    if ctx.spec.isT1 then (.revert .empty, kc)
    else (.haltOther "Invalid input: missing function selector", kc)
  else
  let selector := selectorOf input.data
  if keychainSchedules.any (·.rejects selector ctx.spec) then
    kc.finish (.error (.unknownFunctionSelector selector))
  else match decode input.data with
    | .ok decoded => kc.dispatch ctx input decoded
    | .error (.unknownSelector selector) =>
      kc.finish (.error (.unknownFunctionSelector selector))
    | .error .malformed => (.revert .empty, kc)

end AccountKeychain
/-- The keychain after a sequence of precompile calls. -/
def callAll (decode : Bytes → Except AbiError KeychainCall) (kc : AccountKeychain)
    (calls : List (StorageCtx × PrecompileInput)) : AccountKeychain :=
  calls.foldl (fun kc call => (kc.call decode call.1 call.2).2) kc

end SciChain
