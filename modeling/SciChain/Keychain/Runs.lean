import SciChain.Keychain.Dispatch

namespace SciChain
open Library

/-- The public mutating surface of the keychain: what the precompile
dispatches, the spending functions the host calls and the two transient
setters of transaction validation. -/
inductive KeychainOp where
  | authorizeKey (sender keyId : Address) (signatureType : SignatureType)
      (config : KeyRestrictions) (witness : Option B256)
  | burnKeyAuthorizationWitness (sender : Address) (witness : B256)
  | revokeKey (sender keyId : Address)
  | updateSpendingLimit (sender keyId token : Address) (newLimit : U256)
  | setAllowedCalls (sender keyId : Address) (scopes : List CallScope)
  | removeAllowedCalls (sender keyId target : Address)
  | verifyAndUpdateSpending (account keyId token : Address) (amount : U256)
  | refundSpendingLimit (account token : Address) (amount : U256)
  | authorizeTransfer (account token : Address) (amount : U256)
  | authorizeApprove (account token : Address) (oldApproval newApproval : U256)
  | setTransactionKey (keyId : Address)
  | setTxOrigin (origin : Address)
  deriving DecidableEq, Repr

namespace KeychainOp

def apply (ctx : StorageCtx) (op : KeychainOp) (kc : AccountKeychain) :
    Result AccountKeychain :=
  match op with
  | .authorizeKey sender keyId signatureType config witness =>
    kc.authorizeKey ctx sender keyId signatureType config witness
  | .burnKeyAuthorizationWitness sender witness => kc.burnKeyAuthorizationWitness ctx sender witness
  | .revokeKey sender keyId => kc.revokeKey ctx sender keyId
  | .updateSpendingLimit sender keyId token newLimit =>
    kc.updateSpendingLimit ctx sender keyId token newLimit
  | .setAllowedCalls sender keyId scopes => kc.setAllowedCalls ctx sender keyId scopes
  | .removeAllowedCalls sender keyId target => kc.removeAllowedCalls ctx sender keyId target
  | .verifyAndUpdateSpending account keyId token amount =>
    kc.verifyAndUpdateSpending ctx account keyId token amount
  | .refundSpendingLimit account token amount => kc.refundSpendingLimit ctx account token amount
  | .authorizeTransfer account token amount => kc.authorizeTransfer ctx account token amount
  | .authorizeApprove account token oldApproval newApproval =>
    kc.authorizeApprove ctx account token oldApproval newApproval
  | .setTransactionKey keyId => .ok (kc.setTransactionKey keyId)
  | .setTxOrigin origin => .ok (kc.setTxOrigin origin)

/-- The account whose keychain an operation of the precompile administers. -/
def administrator : KeychainOp → Option Address
  | .authorizeKey sender .. | .revokeKey sender _ | .updateSpendingLimit sender .. |
    .setAllowedCalls sender .. | .removeAllowedCalls sender .. => some sender
  | _ => none

def isRefund : KeychainOp → Bool
  | .refundSpendingLimit .. => true
  | _ => false

end KeychainOp

/-- The context the precompile and the hook run in. -/
def launchCtx (timestamp : U256) : StorageCtx := ⟨sciLaunchHardfork, timestamp⟩

/-- An operation at a block time. -/
structure KeychainStep where
  timestamp : U256
  op : KeychainOp
  deriving DecidableEq, Repr

def KeychainStep.apply (step : KeychainStep) (kc : AccountKeychain) :
    Result AccountKeychain := step.op.apply (launchCtx step.timestamp) kc

@[simp] theorem launchCtx_isT0 (ts : U256) : (launchCtx ts).spec.isT0 = true := rfl
@[simp] theorem launchCtx_isT3 (ts : U256) : (launchCtx ts).spec.isT3 = true := rfl
@[simp] theorem launchCtx_isT4 (ts : U256) : (launchCtx ts).spec.isT4 = true := rfl

end SciChain
