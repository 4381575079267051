import SciChain.Keychain.Runs

namespace SciChain

/-- What the call scope of one key is for: unrestricted, or a partial map from
the targets it may call to the rules for each of them. -/
structure CallPolicy where
  isScoped : Bool
  rules : Address → Option (List SelectorRule)

/-- The calldata starts with the rule's selector and, where the rule names
recipients, its first argument is the canonical encoding of one of them. -/
def SelectorRule.Admits (rule : SelectorRule) (input : Bytes) : Prop :=
  4 ≤ input.length ∧ selectorOf input = rule.selector ∧
    (rule.recipients = [] ∨ (36 ≤ input.length ∧ (∀ b ∈ (input.drop 4).take 12, b = 0) ∧
      addressFromSlice ((input.drop 16).take 20) ∈ rule.recipients))

namespace CallPolicy

def unrestricted : CallPolicy := ⟨false, fun _ => none⟩

def denyAll : CallPolicy := ⟨true, fun _ => none⟩

/-- A key may never create contracts. -/
def Accepts (policy : CallPolicy) (kind : TxKind) (input : Bytes) : Prop :=
  match kind with
  | .create => False
  | .call target => policy.isScoped = false ∨
      ∃ rules, policy.rules target = some rules ∧
        (rules = [] ∨ ∃ rule ∈ rules, rule.Admits input)

def put (policy : CallPolicy) (scope : CallScope) : CallPolicy :=
  { policy with rules := Function.update policy.rules scope.target (some scope.selectorRules) }

def remove (policy : CallPolicy) (target : Address) : CallPolicy :=
  if policy.isScoped then { policy with rules := Function.update policy.rules target none }
  else policy

/-- The policy of `account`'s key after an operation: an authorization replaces
it, the two call-scope operations edit it, anything else leaves it alone. -/
def after (account keyId : Address) (policy : CallPolicy) : KeychainOp → CallPolicy
  | .authorizeKey sender key _ config _ =>
    if sender = account ∧ key = keyId then
      if config.allowAnyCalls then unrestricted else config.allowedCalls.foldl put denyAll
    else policy
  | .setAllowedCalls sender key scopes =>
    if sender = account ∧ key = keyId then { scopes.foldl put policy with isScoped := true }
    else policy
  | .removeAllowedCalls sender key target =>
    if sender = account ∧ key = keyId then policy.remove target else policy
  | _ => policy

/-- The policy after a sequence of successful operations. -/
def afterAll (account keyId : Address) (steps : List KeychainStep) : CallPolicy :=
  steps.foldl (fun policy step => policy.after account keyId step.op) unrestricted

end CallPolicy
end SciChain
