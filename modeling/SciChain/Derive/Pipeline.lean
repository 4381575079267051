import SciChain.Derive.Block

namespace SciChain.Derive

/-- The errors the stages below raise themselves. -/
inductive PipelineError where
  | eof
  | notEnoughData
  | missingOrigin
  | channelProviderEmpty
  | channelNotFound
  | invalidBatchType
  | invalidBatchValidity
  deriving DecidableEq, Repr

inductive ResetError where
  | l1OriginMismatch (parent epoch : U64)
  deriving DecidableEq, Repr

/-- A temporary error is retried, a critical one ends derivation, and a reset
starts it again from an earlier L1 block. -/
inductive PipelineErrorKind where
  | temporary (error : PipelineError)
  | critical (error : PipelineError)
  | reset (error : ResetError)
  deriving DecidableEq, Repr

def PipelineError.temp (e : PipelineError) : PipelineErrorKind := .temporary e
def PipelineError.crit (e : PipelineError) : PipelineErrorKind := .critical e

def PipelineErrorKind.isCritical : PipelineErrorKind → Bool
  | .critical _ => true
  | _ => false

abbrev PipelineResult (α : Type) := Except PipelineErrorKind α

end SciChain.Derive
