import SciChain.Keychain.ScopeSpec
import SciChain.Proofs.KeychainSteps
import SciChain.Proofs.StoredSet

namespace SciChain
open Library Storage SetSlots

section Validation

theorem validateRecipients_ok (h : validateRecipients seen recipients = .ok ()) :
    recipients.Nodup ∧ ∀ r ∈ recipients, r ∉ seen := by
  induction recipients generalizing seen with
  | nil => exact ⟨List.nodup_nil, by simp⟩
  | cons r rest ih =>
    simp only [validateRecipients, bind_ok, reject_ok, not_or] at h
    obtain ⟨_, ⟨_, hseen⟩, hrest⟩ := h
    obtain ⟨hnodup, hfresh⟩ := ih hrest
    refine ⟨List.nodup_cons.mpr ⟨fun hr => hfresh r hr List.mem_cons_self, hnodup⟩, ?_⟩
    intro q hq hqs
    rcases List.mem_cons.mp hq with rfl | hq
    · exact hseen hqs
    · exact hfresh q hq (List.mem_cons_of_mem _ hqs)

/-- Rules as the validation lets them pass: one per selector, each with
distinct recipients. -/
def WellFormedRules (rules : List SelectorRule) : Prop :=
  (rules.map (·.selector)).Nodup ∧ ∀ rule ∈ rules, rule.recipients.Nodup

theorem validateSelectorRules_ok (h : validateSelectorRules seen rules = .ok ()) :
    WellFormedRules rules ∧ ∀ rule ∈ rules, rule.selector ∉ seen := by
  induction rules generalizing seen with
  | nil => exact ⟨⟨List.nodup_nil, by simp⟩, by simp⟩
  | cons rule rest ih =>
    simp only [validateSelectorRules, bind_ok, reject_ok] at h
    obtain ⟨_, hseen, h⟩ := h
    have hrest : rule.recipients.Nodup ∧
        validateSelectorRules (rule.selector :: seen) rest = .ok () := by
      split at h
      · rename_i hempty
        rw [List.isEmpty_iff] at hempty
        exact ⟨by rw [hempty]; exact List.nodup_nil, h⟩
      · simp only [bind_ok] at h
        obtain ⟨_, _, _, hrecipients, h⟩ := h
        exact ⟨(validateRecipients_ok hrecipients).1, h⟩
    obtain ⟨⟨hnodup, hrecipients⟩, hfresh⟩ := ih hrest.2
    refine ⟨⟨?_, ?_⟩, ?_⟩
    · rw [List.map_cons, List.nodup_cons]
      refine ⟨?_, hnodup⟩
      intro hmem
      obtain ⟨other, hother, he⟩ := List.mem_map.mp hmem
      exact hfresh other hother (he ▸ List.mem_cons_self)
    · intro other hother
      rcases List.mem_cons.mp hother with rfl | hother
      · exact hrest.1
      · exact hrecipients other hother
    · intro other hother hs
      rcases List.mem_cons.mp hother with rfl | hother
      · exact hseen hs
      · exact hfresh other hother (List.mem_cons_of_mem _ hs)

theorem validateCallScope_ok (h : validateCallScope scope = .ok ()) :
    WellFormedRules scope.selectorRules := by
  simp only [validateCallScope, bind_ok] at h
  obtain ⟨_, _, h⟩ := h
  split at h
  · rename_i hempty
    rw [List.isEmpty_iff] at hempty
    rw [hempty]
    exact ⟨List.nodup_nil, by simp⟩
  · exact (validateSelectorRules_ok h).1

theorem validateCallScopes_ok (h : validateCallScopes (launchCtx ts) seen scopes = .ok ()) :
    ∀ scope ∈ scopes, WellFormedRules scope.selectorRules := by
  induction scopes generalizing seen with
  | nil => simp
  | cons scope rest ih =>
    simp only [validateCallScopes, launchCtx_isT4, if_true, bind_ok] at h
    obtain ⟨_, _, _, hscope, hrest⟩ := h
    intro other hother
    rcases List.mem_cons.mp hother with rfl | hother
    · exact validateCallScope_ok hscope
    · exact ih hrest other hother

end Validation

/-- The stored subtree of a target holds exactly `rules`, and no row is left
below a selector that has none. -/
structure TargetScope.Holds (scope : TargetScope) (rules : List SelectorRule) : Prop where
  selectorsValid : scope.selectors.Valid
  recipientsValid : ∀ selector, (scope.selectorScopes selector).recipients.Valid
  mem_selectors : ∀ selector, selector ∈ scope.selectors.read ↔
    selector ∈ rules.map (·.selector)
  recipients : ∀ rule ∈ rules,
    (scope.selectorScopes rule.selector).recipients.read = rule.recipients
  clean : ∀ selector, selector ∉ rules.map (·.selector) →
    (scope.selectorScopes selector).recipients = SetSlots.empty

namespace TargetScope

variable {scope scope' : TargetScope} {rules : List SelectorRule} {rule : SelectorRule}

theorem holds_default : TargetScope.default.Holds [] where
  selectorsValid := valid_empty
  recipientsValid _ := valid_empty
  mem_selectors selector := by simp [TargetScope.default]
  recipients rule h := by cases h
  clean _ _ := rfl

theorem foldl_delete_recipients (selectors : List Selector)
    (scopes : Selector → SelectorScope) (hv : ∀ s, (scopes s).recipients.Valid) (s : Selector) :
    (selectors.foldl (fun scopes selector =>
      Function.update scopes selector ⟨(scopes selector).recipients.delete⟩) scopes s).recipients =
      if s ∈ selectors then SetSlots.empty else (scopes s).recipients := by
  induction selectors generalizing scopes with
  | nil => rfl
  | cons t rest ih =>
    rw [List.foldl_cons, ih]
    · by_cases hs : s = t
      · subst hs
        simp [delete_eq_empty (hv s)]
      · by_cases hr : s ∈ rest <;> simp [hs, hr]
    · intro u
      by_cases hu : u = t
      · subst hu
        rw [Function.update_self, delete_eq_empty (hv u)]
        exact valid_empty
      · rw [Function.update_of_ne hu]
        exact hv u

/-- Clearing leaves no row of the subtree behind. -/
theorem Holds.clearSelectors (h : scope.Holds rules) : scope.clearSelectors.Holds [] := by
  have hempty : ∀ s, (scope.clearSelectors.selectorScopes s).recipients = empty := by
    intro s
    simp only [TargetScope.clearSelectors]
    rw [foldl_delete_recipients _ _ h.recipientsValid]
    split
    · rfl
    · rename_i hs
      exact h.clean s (fun hmem => hs ((h.mem_selectors s).mpr hmem))
  have hselectors : scope.clearSelectors.selectors = empty :=
    delete_eq_empty h.selectorsValid
  refine ⟨?_, ?_, ?_, ?_, ?_⟩
  · rw [hselectors]
    exact valid_empty
  · intro s
    rw [hempty]
    exact valid_empty
  · intro s
    simp [hselectors]
  · intro rule hrule
    cases hrule
  · intro s _
    exact hempty s

theorem upsertRule_ok (h : scope.upsertRule (launchCtx ts) rule = .ok scope') :
    ∃ b recipients, scope.selectors.insert rule.selector = .ok (b, scope'.selectors) ∧
      (∀ s, (scope'.selectorScopes s).recipients =
        if s = rule.selector then recipients else (scope.selectorScopes s).recipients) ∧
      ((rule.recipients = [] ∧
          recipients = (scope.selectorScopes rule.selector).recipients) ∨
        (scope.selectorScopes rule.selector).recipients.write rule.recipients =
          .ok recipients) := by
  simp only [upsertRule, launchCtx_isT4, if_true, bind_ok, pure_eq, Except.ok.injEq] at h
  obtain ⟨⟨b, selectors⟩, hinsert, recipients, hrecipients, rfl⟩ := h
  refine ⟨b, recipients, hinsert, fun s => ?_, ?_⟩
  · simp only [Function.update_apply]
    split <;> rfl
  · split at hrecipients
    · rename_i hempty
      exact Or.inl ⟨List.isEmpty_iff.mp hempty, (Except.ok.inj hrecipients).symm⟩
    · exact Or.inr hrecipients

/-- A rule for a selector that has none yet is added to the stored rules. -/
theorem Holds.upsertRule (h : scope.Holds rules) (hfresh : rule.selector ∉ rules.map (·.selector))
    (hnodup : rule.recipients.Nodup) (hok : scope.upsertRule (launchCtx ts) rule = .ok scope') :
    scope'.Holds (rules ++ [rule]) := by
  obtain ⟨b, recipients, hinsert, hscopes, hwrite⟩ := upsertRule_ok hok
  have hrecipients : recipients.Valid ∧ recipients.read = rule.recipients := by
    rcases hwrite with ⟨hempty, rfl⟩ | hwrite
    · refine ⟨h.recipientsValid _, ?_⟩
      rw [h.clean _ hfresh, hempty, read_empty]
    · exact write_spec (h.recipientsValid _) hnodup hwrite
  refine ⟨h.selectorsValid.insert hinsert, ?_, ?_, ?_, ?_⟩
  · intro s
    rw [hscopes]
    split
    · exact hrecipients.1
    · exact h.recipientsValid s
  · intro s
    rw [mem_insert h.selectorsValid hinsert, h.mem_selectors]
    simp
  · intro other hother
    rw [hscopes]
    rcases List.mem_append.mp hother with hold | hnew
    · have hne : other.selector ≠ rule.selector := by
        intro he
        exact hfresh (he ▸ List.mem_map_of_mem hold)
      rw [if_neg hne]
      exact h.recipients other hold
    · obtain rfl := List.mem_singleton.mp hnew
      rw [if_pos rfl]
      exact hrecipients.2
  · intro s hs
    simp only [List.map_append, List.map_cons, List.map_nil, List.mem_append,
      List.mem_singleton, not_or] at hs
    rw [hscopes, if_neg hs.2]
    exact h.clean s hs.1

theorem Holds.upsertRules (h : scope.Holds stored) (hwf : WellFormedRules (stored ++ rules))
    (hok : rules.foldlM (TargetScope.upsertRule (launchCtx ts)) scope = .ok scope') :
    scope'.Holds (stored ++ rules) := by
  induction rules generalizing scope stored with
  | nil =>
    cases hok
    rwa [List.append_nil]
  | cons rule rest ih =>
    simp only [List.foldlM_cons, bind_ok] at hok
    obtain ⟨mid, hmid, hrest⟩ := hok
    have hsplit : stored ++ rule :: rest = (stored ++ [rule]) ++ rest := by simp
    have hfresh : rule.selector ∉ stored.map (·.selector) := by
      intro hmem
      have hnodup := hwf.1
      rw [List.map_append, List.map_cons, List.nodup_append] at hnodup
      exact hnodup.2.2 _ hmem _ List.mem_cons_self rfl
    have hnext := h.upsertRule hfresh (hwf.2 rule (by simp)) hmid
    rw [hsplit] at hwf ⊢
    exact ih hnext hwf hrest

end TargetScope

/-- The stored scope tree represents the policy. -/
structure KeyScope.Represents (scope : KeyScope) (policy : CallPolicy) : Prop where
  isScoped : scope.isScoped = policy.isScoped
  targetsValid : scope.targets.Valid
  mem_targets : ∀ target, target ∈ scope.targets.read ↔ (policy.rules target).isSome = true
  holds : ∀ target, (scope.targetScopes target).Holds ((policy.rules target).getD [])

namespace KeyScope

variable {scope scope' : KeyScope} {policy : CallPolicy}

theorem represents_default : KeyScope.default.Represents CallPolicy.unrestricted where
  isScoped := rfl
  targetsValid := valid_empty
  mem_targets target := by simp [KeyScope.default, CallPolicy.unrestricted]
  holds _ := TargetScope.holds_default

theorem targetScopes_clearTargetSelectors (scope : KeyScope) (target t : Address) :
    (scope.clearTargetSelectors target).targetScopes t =
      if t = target then (scope.targetScopes target).clearSelectors else scope.targetScopes t := by
  simp only [clearTargetSelectors, setTarget, Function.update_apply]

theorem Represents.upsertTargetScope (h : scope.Represents policy)
    (hwf : WellFormedRules call.selectorRules)
    (hok : scope.upsertTargetScope (launchCtx ts) call = .ok scope') :
    scope'.Represents (policy.put call) := by
  simp only [KeyScope.upsertTargetScope, launchCtx_isT4, if_true, pure_eq, bind_value, bind_ok,
    Except.ok.injEq] at hok
  obtain ⟨⟨b, targets⟩, hinsert, targetScope, hrules, rfl⟩ := hok
  have hcleared := (h.holds call.target).clearSelectors
  rw [targetScopes_clearTargetSelectors, if_pos rfl] at hrules
  have hnew : targetScope.Holds call.selectorRules := hcleared.upsertRules hwf hrules
  refine ⟨h.isScoped, h.targetsValid.insert hinsert, ?_, ?_⟩
  · intro t
    have hmem := mem_insert h.targetsValid hinsert t
    simp only [setTarget, clearTargetSelectors, CallPolicy.put] at hmem ⊢
    rw [hmem, h.mem_targets]
    by_cases ht : t = call.target <;> simp [ht, Function.update_of_ne]
  · intro t
    by_cases ht : t = call.target
    · subst ht
      simpa only [setTarget, CallPolicy.put, Function.update_self, Option.getD_some] using hnew
    · simp only [setTarget, clearTargetSelectors, CallPolicy.put, Function.update_of_ne ht]
      exact h.holds t

theorem Represents.upsertAll {calls : List CallScope} (h : scope.Represents policy)
    (hwf : ∀ call ∈ calls, WellFormedRules call.selectorRules)
    (hok : calls.foldlM (KeyScope.upsertTargetScope (launchCtx ts)) scope = .ok scope') :
    scope'.Represents (calls.foldl CallPolicy.put policy) := by
  induction calls generalizing scope policy with
  | nil =>
    cases hok
    exact h
  | cons call rest ih =>
    simp only [List.foldlM_cons, bind_ok] at hok
    obtain ⟨mid, hmid, hrest⟩ := hok
    exact ih (h.upsertTargetScope (hwf call List.mem_cons_self) hmid)
      (fun c hc => hwf c (List.mem_cons_of_mem _ hc)) hrest

theorem Represents.removeTargetScope (h : scope.Represents policy) (hs : policy.isScoped = true)
    (target : Address) : (scope.removeTargetScope target).Represents (policy.remove target) := by
  have hrules : (policy.remove target).rules = Function.update policy.rules target none := by
    simp [CallPolicy.remove, hs]
  have hmem : ∀ t, t ∈ (scope.targets.remove target).2.read ↔
      ((policy.remove target).rules t).isSome = true := by
    intro t
    rw [mem_remove h.targetsValid, h.mem_targets, hrules]
    by_cases ht : t = target <;> simp [ht]
  have hscoped : scope.isScoped = (policy.remove target).isScoped := by
    rw [h.isScoped]
    simp [CallPolicy.remove, hs]
  unfold KeyScope.removeTargetScope
  simp only
  split
  · refine ⟨hscoped, h.targetsValid.remove, hmem, fun t => ?_⟩
    rw [targetScopes_clearTargetSelectors, hrules]
    by_cases ht : t = target
    · subst ht
      simpa using (h.holds t).clearSelectors
    · rw [if_neg ht, Function.update_of_ne ht]
      exact h.holds t
  · rename_i habsent
    refine ⟨hscoped, h.targetsValid.remove, hmem, fun t => ?_⟩
    rw [hrules]
    by_cases ht : t = target
    · -- The target was not stored, so its subtree is already empty.
      subst ht
      have hnone : policy.rules t = none := by
        rw [remove_result h.targetsValid, h.mem_targets] at habsent
        simpa using habsent
      have hold := h.holds t
      rw [hnone] at hold
      simpa using hold
    · rw [Function.update_of_ne ht]
      exact h.holds t

theorem foldl_clearTargetSelectors (targets : List Address) {rules : Address → List SelectorRule}
    (h : ∀ t, (scope.targetScopes t).Holds (rules t)) :
    let cleared := targets.foldl clearTargetSelectors scope
    cleared.targets = scope.targets ∧ cleared.isScoped = scope.isScoped ∧
      ∀ t, (cleared.targetScopes t).Holds (if t ∈ targets then [] else rules t) := by
  induction targets generalizing scope rules with
  | nil => exact ⟨rfl, rfl, by simpa using h⟩
  | cons target rest ih =>
    have hnext : ∀ t, ((scope.clearTargetSelectors target).targetScopes t).Holds
        (if t = target then [] else rules t) := by
      intro t
      rw [targetScopes_clearTargetSelectors]
      by_cases ht : t = target
      · rw [if_pos ht, if_pos ht]
        exact (h target).clearSelectors
      · rw [if_neg ht, if_neg ht]
        exact h t
    obtain ⟨htargets, hscoped, hholds⟩ := ih hnext
    refine ⟨htargets, hscoped, fun t => ?_⟩
    have ht := hholds t
    by_cases hr : t ∈ rest <;> by_cases he : t = target <;> simpa [hr, he] using ht

theorem Represents.clearAll (h : scope.Represents policy) (b : Bool) :
    { scope.clearAllTargetScopes with isScoped := b }.Represents ⟨b, fun _ => none⟩ := by
  obtain ⟨htargets, _, hholds⟩ := foldl_clearTargetSelectors scope.targets.read h.holds
  have hempty : scope.clearAllTargetScopes.targets = empty := by
    simp only [clearAllTargetScopes, htargets]
    exact delete_eq_empty h.targetsValid
  refine ⟨rfl, ?_, ?_, ?_⟩
  · rw [hempty]
    exact valid_empty
  · intro t
    simp [hempty]
  · intro t
    have ht := hholds t
    by_cases hmem : t ∈ scope.targets.read
    · rwa [if_pos hmem] at ht
    · have hnone : policy.rules t = none := by
        rw [h.mem_targets] at hmem
        simpa using hmem
      rwa [if_neg hmem, hnone] at ht

theorem Represents.replaceAllowedCalls {config : KeyRestrictions} (h : scope.Represents policy)
    (hok : scope.replaceAllowedCalls (launchCtx ts) (AccountKeychain.scopesOf config) =
      .ok scope') :
    scope'.Represents (if config.allowAnyCalls then .unrestricted
      else config.allowedCalls.foldl CallPolicy.put .denyAll) := by
  unfold AccountKeychain.scopesOf at hok
  split at hok
  · rename_i hany
    rw [if_pos hany]
    cases hok
    exact h.clearAll false
  · rename_i hany
    rw [if_neg hany]
    simp only [KeyScope.replaceAllowedCalls] at hok
    split at hok
    · rename_i hempty
      rw [List.isEmpty_iff.mp hempty]
      cases hok
      exact h.clearAll true
    · simp only [bind_ok] at hok
      obtain ⟨_, hvalid, hupsert⟩ := hok
      exact (h.clearAll true).upsertAll (validateCallScopes_ok hvalid) hupsert

/-- The walk of `validateCall` as one condition. -/
theorem validateCall_ok :
    scope.validateCall target input = .ok () ↔ scope.isScoped = false ∨
      (scope.targets.contains target = true ∧
        ((scope.targetScopes target).selectors.isEmpty = true ∨ (4 ≤ input.length ∧
            (scope.targetScopes target).selectors.contains (selectorOf input) = true ∧
            let recipients :=
              ((scope.targetScopes target).selectorScopes (selectorOf input)).recipients
            (recipients.isEmpty = true ∨
              (36 ≤ input.length ∧ (∀ b ∈ (input.drop 4).take 12, b = 0) ∧
                recipients.contains (addressFromSlice ((input.drop 16).take 20)) = true))))) := by
  unfold validateCall
  by_cases hs : scope.isScoped = false
  · simp [hs]
  · rw [if_neg hs, or_iff_right hs, bind_ok]
    simp only [reject_ok, exists_const, Bool.not_eq_false]
    apply and_congr_right
    intro _
    split
    · simp_all
    · rename_i hne
      rw [or_iff_right hne, bind_ok]
      simp only [reject_ok, exists_const, Nat.not_lt, bind_ok, Bool.not_eq_false]
      apply and_congr_right
      intro _
      apply and_congr_right
      intro _
      split
      · simp_all
      · rename_i hrecipients
        rw [or_iff_right hrecipients, bind_ok]
        simp only [reject_ok, exists_const, Nat.not_lt, bind_ok, Bool.not_eq_false]
        simp

/-- A stored tree accepts a call exactly when its policy does. -/
theorem Represents.validateCall_iff (h : scope.Represents policy) (target : Address)
    (input : Bytes) :
    scope.validateCall target input = .ok () ↔ policy.Accepts (.call target) input := by
  have hholds := h.holds target
  rw [validateCall_ok, h.isScoped, h.targetsValid.contains_iff, h.mem_targets]
  simp only [CallPolicy.Accepts]
  apply or_congr_right
  cases hrules : policy.rules target with
  | none => simp
  | some rules =>
    rw [hrules, Option.getD_some] at hholds
    have hempty : (scope.targetScopes target).selectors.isEmpty = true ↔ rules = [] := by
      rw [SetSlots.isEmpty_iff, List.eq_nil_iff_forall_not_mem]
      simp only [hholds.mem_selectors, List.mem_map, not_exists, not_and,
        List.eq_nil_iff_forall_not_mem]
      constructor
      · intro hn rule hrule
        exact hn rule.selector rule hrule rfl
      · intro hn s rule hrule
        exact absurd hrule (hn rule)
    simp only [Option.isSome_some, Option.some.injEq, exists_eq_left', true_and, hempty,
      hholds.selectorsValid.contains_iff, hholds.mem_selectors,
      (hholds.recipientsValid _).contains_iff, SetSlots.isEmpty_iff, SelectorRule.Admits]
    apply or_congr_right
    constructor
    · rintro ⟨hlen, hmem, hrecipients⟩
      obtain ⟨rule, hrule, he⟩ := List.mem_map.mp hmem
      rw [← he, hholds.recipients rule hrule] at hrecipients
      exact ⟨rule, hrule, hlen, he.symm, hrecipients⟩
    · rintro ⟨rule, hrule, hlen, he, hrecipients⟩
      rw [he, hholds.recipients rule hrule]
      exact ⟨hlen, List.mem_map_of_mem hrule, hrecipients⟩

end KeyScope

open AccountKeychain

variable {kc kc' : AccountKeychain} {policy : CallPolicy}

/-- The tree stored for a key represents its policy. -/
def ScopeRepresents (account keyId : Address) (kc : AccountKeychain) (policy : CallPolicy) : Prop :=
  (kc.keyScopes (spendingLimitKey account keyId)).Represents policy

theorem ScopeRepresents.of_eq (h : ScopeRepresents account keyId kc policy)
    (he : kc'.keyScopes = kc.keyScopes) : ScopeRepresents account keyId kc' policy := by
  unfold ScopeRepresents at h ⊢
  rwa [he]

/-- An operation on a key writes that key's tree and no other. -/
theorem ScopeRepresents.of_setScope (h : ScopeRepresents account keyId kc policy)
    (he : kc'.keyScopes = (kc.setScope (spendingLimitKey sender key) scope).keyScopes)
    (hs : ∀ p, (kc.keyScopes (spendingLimitKey sender key)).Represents p → sender = account →
      key = keyId → p = policy → scope.Represents policy') :
    ScopeRepresents account keyId kc'
      (if sender = account ∧ key = keyId then policy' else policy) := by
  unfold ScopeRepresents at h ⊢
  rw [he, keyScopes_setScope]
  by_cases hk : sender = account ∧ key = keyId
  · obtain ⟨rfl, rfl⟩ := hk
    rw [if_pos rfl, if_pos ⟨rfl, rfl⟩]
    exact hs policy h rfl rfl rfl
  · have hne : spendingLimitKey account keyId ≠ spendingLimitKey sender key := by
      intro hl
      obtain ⟨ha, hk'⟩ := LimitKey.mk.inj hl
      exact hk ⟨ha.symm, hk'.symm⟩
    rw [if_neg hne, if_neg hk]
    exact h

theorem verifyAndUpdateSpending_scopes
    (h : kc.verifyAndUpdateSpending (launchCtx ts) account keyId token amount = .ok kc') :
    kc'.keyScopes = kc.keyScopes := by
  rcases verifyAndUpdateSpending_ok h with ⟨rfl, _⟩ | ⟨_, _, _, _, _, _, rfl⟩ <;> rfl

/-- Every successful operation takes the stored tree from the policy before it
to the policy after it. -/
theorem KeychainStep.scope_step {step : KeychainStep}
    (h : ScopeRepresents account keyId kc policy) (hok : step.apply kc = .ok kc') :
    ScopeRepresents account keyId kc' (policy.after account keyId step.op) := by
  obtain ⟨ts, op⟩ := step
  simp only [KeychainStep.apply] at hok
  cases op with
  | authorizeKey sender key signatureType config witness =>
    obtain ⟨_, _, _, _, _, _, scope, hscope, _, _, _, hscopes, _⟩ := authorizeKey_ok hok
    exact h.of_setScope hscopes (fun _ hr _ _ _ => hr.replaceAllowedCalls hscope)
  | setAllowedCalls sender key scopes =>
    obtain ⟨_, _, _, hvalid, scope, hscope, rfl⟩ := setAllowedCalls_ok hok
    refine h.of_setScope rfl (fun p hr _ _ hp => ?_)
    have hnew := hr.upsertAll (validateCallScopes_ok hvalid) hscope
    rw [hp] at hnew
    exact ⟨rfl, hnew.targetsValid, hnew.mem_targets, hnew.holds⟩
  | removeAllowedCalls sender key target =>
    obtain ⟨_, _, ⟨hs, rfl⟩ | ⟨hs, rfl⟩⟩ := removeAllowedCalls_ok hok
    · -- An unrestricted key has no tree to edit.
      simp only [CallPolicy.after]
      split
      · rename_i hk
        obtain ⟨rfl, rfl⟩ := hk
        have hpolicy : policy.isScoped = false := by rw [← h.isScoped, hs]
        simpa [CallPolicy.remove, hpolicy] using h
      · exact h
    · refine h.of_setScope rfl (fun p hr _ _ hp => ?_)
      rw [← hp]
      exact hr.removeTargetScope (by rw [← hr.isScoped, hs]) target
  | burnKeyAuthorizationWitness sender witness =>
    obtain rfl := burnKeyAuthorizationWitness_ok hok
    exact h.of_eq rfl
  | revokeKey sender key =>
    obtain ⟨_, _, rfl⟩ := revokeKey_ok hok
    exact h.of_eq rfl
  | updateSpendingLimit sender key token newLimit =>
    obtain ⟨_, _, _, hscopes, _⟩ := updateSpendingLimit_ok hok
    exact h.of_eq hscopes
  | verifyAndUpdateSpending a key token amount =>
    exact h.of_eq (verifyAndUpdateSpending_scopes hok)
  | refundSpendingLimit a token amount =>
    simp only [KeychainOp.apply, refundSpendingLimit_eq, Except.ok.injEq] at hok
    subst hok
    split <;> exact h.of_eq rfl
  | authorizeTransfer a token amount =>
    rcases KeychainOp.spend_cases (Or.inr (Or.inl ⟨_, _, _, rfl⟩)) hok with
      rfl | ⟨_, _, _, _, hok⟩
    · exact h
    · exact h.of_eq (verifyAndUpdateSpending_scopes hok)
  | authorizeApprove a token oldApproval newApproval =>
    rcases KeychainOp.spend_cases (Or.inr (Or.inr ⟨_, _, _, _, rfl⟩)) hok with
      rfl | ⟨_, _, _, _, hok⟩
    · exact h
    · exact h.of_eq (verifyAndUpdateSpending_scopes hok)
  | setTransactionKey key =>
    cases hok
    exact h.of_eq rfl
  | setTxOrigin origin =>
    cases hok
    exact h.of_eq rfl

theorem scope_run (h : ScopeRepresents account keyId kc policy)
    (hok : runOk KeychainStep.apply kc steps = .ok kc') :
    ScopeRepresents account keyId kc'
      (steps.foldl (fun policy step => policy.after account keyId step.op) policy) := by
  induction steps generalizing kc policy with
  | nil =>
    cases hok
    exact h
  | cons step rest ih =>
    simp only [runOk, List.foldlM_cons, bind_ok] at hok
    obtain ⟨mid, hmid, hrest⟩ := hok
    exact ih (KeychainStep.scope_step h hmid) hrest

/-- After any sequence of successful operations from the empty keychain, a call
of a session key passes the scope check exactly when the policy those
operations describe accepts it. -/
theorem call_scope_refines_policy (steps : List KeychainStep) (kc : AccountKeychain)
    (account keyId : Address) (hrun : runOk KeychainStep.apply .empty steps = .ok kc)
    (hkey : keyId ≠ 0) (ts : U256) (kind : TxKind) (input : Bytes) :
    kc.validateCallScopeForTransaction (launchCtx ts) account keyId kind input = .ok () ↔
      (CallPolicy.afterAll account keyId steps).Accepts kind input := by
  have hstart : ScopeRepresents account keyId .empty .unrestricted := KeyScope.represents_default
  have hrep : ScopeRepresents account keyId kc (CallPolicy.afterAll account keyId steps) :=
    scope_run hstart hrun
  have hmain : ¬(keyId = 0 ∨ (launchCtx ts).spec.isT3 = false) := by simpa using hkey
  unfold validateCallScopeForTransaction
  rw [if_neg hmain]
  cases kind with
  | create => simp [CallPolicy.Accepts]
  | call target => exact hrep.validateCall_iff target input

/-- A key restricted to transfers of token 9 to account 7, then opened up for
target 8 and closed again. -/
def scopedKeyRun : List KeychainStep :=
  [⟨100, .setTxOrigin 1⟩,
   ⟨100, .authorizeKey 1 2 .Secp256k1
      { expiry := 3700, enforceLimits := false, limits := [], allowAnyCalls := false,
        allowedCalls := [⟨9, [⟨transferSelector, [7]⟩]⟩] } none⟩,
   ⟨100, .setAllowedCalls 1 2 [⟨8, []⟩]⟩,
   ⟨100, .removeAllowedCalls 1 2 8⟩]

/-- The start of `transfer(7, ..)`. -/
def transferToSeven : Bytes := [0xa9, 0x05, 0x9c, 0xbb] ++ List.replicate 31 0 ++ [7]

theorem call_scope_refines_policy_transfer :
    (run KeychainStep.apply .empty scopedKeyRun).validateCallScopeForTransaction (launchCtx 200)
      1 2 (.call 9) transferToSeven = .ok () := by
  refine (call_scope_refines_policy scopedKeyRun _ 1 2 (runOk_eq_run (by decide)) (by decide) 200
    (.call 9) transferToSeven).mpr (Or.inr ⟨[⟨transferSelector, [7]⟩], by decide, Or.inr ?_⟩)
  exact ⟨_, List.mem_singleton_self _, by decide, by decide,
    Or.inr ⟨by decide, by decide +kernel, by decide⟩⟩

end SciChain
