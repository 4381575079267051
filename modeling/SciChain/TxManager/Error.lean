import SciChain.Primitives

namespace SciChain.TxManager

/-- The errors of the transaction manager. An error of the node is given as
`classify_rpc_error` has classified it. -/
inductive TxManagerError where
  | nonceTooLow
  | nonceTooHigh
  | insufficientFunds
  | intrinsicGasTooLow
  | executionReverted (reason : Option String) (data : Option Bytes)
  | mempoolDeadlineExpired
  | alreadyReserved
  | nonceOverflow
  | nonceAcquisitionFailed
  | channelClosed
  | feeLimitExceeded (fee ceiling : U128)
  | invalidSafeAbortNonceTooLowCount
  | unsupported (message : String)
  | sign (message : String)
  | sendTimeout
  | invalidConfig (message : String)
  | walletConstruction (message : String)
  | underpriced
  | replacementUnderpriced
  | feeTooLow
  | maxFeePerGasTooLow
  | alreadyKnown
  | rpc (message : String)
  deriving DecidableEq, Repr

namespace TxManagerError

def isRetryable : TxManagerError → Bool
  | underpriced | replacementUnderpriced | feeTooLow | maxFeePerGasTooLow | alreadyKnown => true
  | rpc _ => true
  | _ => false

def isAlreadyKnown : TxManagerError → Bool
  | alreadyKnown => true
  | _ => false

end TxManagerError
end SciChain.TxManager
