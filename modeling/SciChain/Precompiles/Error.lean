import SciChain.Primitives

namespace SciChain

inductive PanicKind where
  | underOverflow
  | enumConversionError
  | arrayOutOfBounds
  deriving DecidableEq, Repr

inductive AccountKeychainError where
  | unauthorizedCaller
  | keyAlreadyExists
  | keyNotFound
  | keyExpired
  | spendingLimitExceeded
  | invalidSpendingLimit
  | invalidSignatureType
  | zeroPublicKey
  | expiryInPast
  | keyAlreadyRevoked
  | signatureTypeMismatch (expected actual : U8)
  | callNotAllowed
  | invalidCallScope
  | invalidKeyAuthorizationWitness
  | keyAuthorizationWitnessAlreadyBurned
  | legacyAuthorizeKeySelectorChanged (newSelector : Selector)
  deriving DecidableEq, Repr

inductive SciAgentStateError where
  | keyTripped (sessionKey : Address)
  | unauthorized
  deriving DecidableEq, Repr

inductive TempoPrecompileError where
  | panic (kind : PanicKind)
  | accountKeychain (e : AccountKeychainError)
  | sciAgentState (e : SciAgentStateError)
  | outOfGas
  | unknownFunctionSelector (selector : Selector)
  | fatal (msg : String)
  deriving DecidableEq, Repr

abbrev Result := Except TempoPrecompileError

/-- Failures that must be propagated rather than turned into a rejection. -/
def TempoPrecompileError.isSystemError : TempoPrecompileError → Bool
  | .outOfGas | .fatal _ | .panic _ => true
  | .accountKeychain _ | .sciAgentState _ | .unknownFunctionSelector _ => false

end SciChain
