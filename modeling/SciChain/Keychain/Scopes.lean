import SciChain.Keychain.State

namespace SciChain
open Library Storage AccountKeychainError

def transferSelector : Selector := 0xa9059cbb
def approveSelector : Selector := 0x095ea7b3
def transferFromSelector : Selector := 0x23b872dd
def transferWithMemoSelector : Selector := 0x95777d59

def isConstrainedTip20Selector (selector : Selector) : Bool :=
  selector = transferSelector ∨ selector = approveSelector ∨ selector = transferWithMemoSelector

/-- The recipients loop of `validate_selector_rules`, with the hash set of the
recipients seen so far. -/
def validateRecipients (seen : List Address) : List Address → Result Unit
  | [] => pure ()
  | recipient :: rest => do
    reject (recipient = 0 ∨ recipient ∈ seen) (.accountKeychain invalidCallScope)
    validateRecipients (recipient :: seen) rest

/-- A rule without recipients allows any; `is_tip20` is constantly true. -/
def validateSelectorRules (seen : List Selector) :
    List SelectorRule → Result Unit
  | [] => pure ()
  | rule :: rest => do
    reject (rule.selector ∈ seen) (.accountKeychain invalidCallScope)
    if rule.recipients.isEmpty then
      validateSelectorRules (rule.selector :: seen) rest
    else do
      reject (isConstrainedTip20Selector rule.selector = false) (.accountKeychain invalidCallScope)
      validateRecipients [] rule.recipients
      validateSelectorRules (rule.selector :: seen) rest

def validateCallScope (scope : CallScope) : Result Unit := do
  reject (scope.target = 0) (.accountKeychain invalidCallScope)
  if scope.selectorRules.isEmpty then pure () else validateSelectorRules [] scope.selectorRules

def validateCallScopes (ctx : StorageCtx) (seen : List Address) :
    List CallScope → Result Unit
  | [] => pure ()
  | scope :: rest => do
    reject (scope.target ∈ seen) (.accountKeychain invalidCallScope)
    let _ ← (if ctx.spec.isT4 then validateCallScope scope else pure ())
    validateCallScopes ctx (scope.target :: seen) rest

/-- `clear_target_selectors` below one target. -/
def TargetScope.clearSelectors (scope : TargetScope) : TargetScope where
  selectors := scope.selectors.delete
  selectorScopes := scope.selectors.read.foldl (fun scopes selector =>
    Function.update scopes selector ⟨(scopes selector).recipients.delete⟩) scope.selectorScopes

/-- One turn of the rule loop of `upsert_target_scope`. -/
def TargetScope.upsertRule (ctx : StorageCtx) (scope : TargetScope) (rule : SelectorRule) :
    Result TargetScope := do
  let selectors ← scope.selectors.insert rule.selector
  let stored := (scope.selectorScopes rule.selector).recipients
  let recipients ← (
    if rule.recipients.isEmpty then pure (if ctx.spec.isT4 then stored else stored.delete)
    else stored.write rule.recipients)
  pure { selectors := selectors.2,
         selectorScopes := Function.update scope.selectorScopes rule.selector ⟨recipients⟩ }

namespace KeyScope

def setTarget (scope : KeyScope) (target : Address) (targetScope : TargetScope) : KeyScope :=
  { scope with targetScopes := Function.update scope.targetScopes target targetScope }

def clearTargetSelectors (scope : KeyScope) (target : Address) : KeyScope :=
  scope.setTarget target (scope.targetScopes target).clearSelectors

def clearAllTargetScopes (scope : KeyScope) : KeyScope :=
  let cleared := scope.targets.read.foldl clearTargetSelectors scope
  { cleared with targets := cleared.targets.delete }

def removeTargetScope (scope : KeyScope) (target : Address) : KeyScope :=
  let removed := scope.targets.remove target
  let scope := { scope with targets := removed.2 }
  if removed.1 then scope.clearTargetSelectors target else scope

def upsertTargetScope (ctx : StorageCtx) (scope : KeyScope) (call : CallScope) :
    Result KeyScope := do
  -- Before T4 the scopes are validated here, from T4 on by `validateCallScopes`.
  let _ ← (if ctx.spec.isT4 then pure () else validateCallScope call)
  let targets ← scope.targets.insert call.target
  let scope := { scope with targets := targets.2 }.clearTargetSelectors call.target
  let targetScope ← call.selectorRules.foldlM (TargetScope.upsertRule ctx)
    (scope.targetScopes call.target)
  pure (scope.setTarget call.target targetScope)

/-- `none` makes the key unrestricted, `some []` denies every target. -/
def replaceAllowedCalls (ctx : StorageCtx) (scope : KeyScope) :
    Option (List CallScope) → Result KeyScope
  | none => pure { scope.clearAllTargetScopes with isScoped := false }
  | some scopes =>
    let cleared := { scope.clearAllTargetScopes with isScoped := true }
    if scopes.isEmpty then pure cleared else do
      validateCallScopes ctx [] scopes
      scopes.foldlM (upsertTargetScope ctx) cleared

/-- The part of `validate_call_scope_for_transaction` below the key level: the
walk from the target through the selector to the recipient. -/
def validateCall (scope : KeyScope) (target : Address) (input : Bytes) :
    Result Unit := do
  let denied := TempoPrecompileError.accountKeychain callNotAllowed
  if scope.isScoped = false then pure () else do
  reject (scope.targets.contains target = false) denied
  let targetScope := scope.targetScopes target
  if targetScope.selectors.isEmpty then pure () else do
  reject (input.length < 4) denied
  let selector := selectorOf input
  reject (targetScope.selectors.contains selector = false) denied
  let recipients := (targetScope.selectorScopes selector).recipients
  if recipients.isEmpty then pure () else do
  reject (input.length < 36) denied
  -- Only the canonical encoding of an address argument is accepted.
  reject (((input.drop 4).take 12).any (· ≠ 0)) denied
  reject (recipients.contains (addressFromSlice ((input.drop 16).take 20)) = false) denied

/-- The loop of `get_allowed_calls`. -/
def listScopes (scope : KeyScope) : List CallScope :=
  scope.targets.read.map fun target =>
    let targetScope := scope.targetScopes target
    { target,
      selectorRules := targetScope.selectors.read.map fun selector =>
        { selector, recipients := (targetScope.selectorScopes selector).recipients.read } }

end KeyScope
end SciChain
