import Mathlib.Algebra.Order.BigOperators.Group.Finset

namespace SciChain.Library

variable {ε α β σ ι : Type}

/-- Early return of a fallible body: stop with `e` when the test holds. -/
def reject (p : Prop) [Decidable p] (e : ε) : Except ε Unit :=
  if p then .error e else .ok ()

theorem bind_ok (x : Except ε α) (f : α → Except ε β) (b : β) :
    (x >>= f) = .ok b ↔ ∃ a, x = .ok a ∧ f a = .ok b := by
  cases x <;> simp [bind, Except.bind]

theorem bind_error (x : Except ε α) (f : α → Except ε β) (e : ε) :
    (x >>= f) = .error e ↔ x = .error e ∨ ∃ a, x = .ok a ∧ f a = .error e := by
  cases x <;> simp [bind, Except.bind]

@[simp] theorem bind_value (a : α) (f : α → Except ε β) : (Except.ok a >>= f) = f a := rfl

@[simp] theorem bind_fail (e : ε) (f : α → Except ε β) :
    ((Except.error e : Except ε α) >>= f) = .error e := rfl

@[simp] theorem pure_eq (a : α) : (pure a : Except ε α) = .ok a := rfl

@[simp] theorem throw_eq (e : ε) : (throw e : Except ε α) = .error e := rfl

theorem unit_bind_ok (x : Except ε Unit) (f : Unit → Except ε β) (b : β) :
    (x >>= f) = .ok b ↔ x = .ok () ∧ f () = .ok b := by
  cases x <;> simp [bind, Except.bind]

@[simp] theorem reject_ok (p : Prop) [Decidable p] (e : ε) (u : Unit) :
    reject p e = .ok u ↔ ¬p := by
  unfold reject
  split <;> simp_all

@[simp] theorem reject_error (p : Prop) [Decidable p] (e e' : ε) :
    reject p e = .error e' ↔ p ∧ e = e' := by
  unfold reject
  split <;> simp_all

theorem reject_pos [Decidable p] (h : p) (e : ε) : reject p e = .error e := if_pos h

theorem reject_neg [Decidable p] (h : ¬p) (e : ε) : reject p e = .ok () := if_neg h

theorem reject_bind_ok (p : Prop) [Decidable p] (e : ε) (f : Unit → Except ε β) (b : β) :
    (reject p e >>= f) = .ok b ↔ ¬p ∧ f () = .ok b := by
  unfold reject
  split <;> simp_all

theorem reject_bind_error [Decidable p]
    (h : (reject p e >>= f) = .error e') : e' = e ∨ f () = .error e' := by
  unfold reject at h
  split at h
  · exact Or.inl (Except.error.inj h).symm
  · exact Or.inr h

/-- An error that no part of a sequence has is not its error. -/
theorem bind_ne_error {x : Except ε α} {f : α → Except ε β} {e : ε} (hx : x ≠ .error e)
    (hf : ∀ a, f a ≠ .error e) : (x >>= f) ≠ .error e := by
  cases x with
  | ok a => exact hf a
  | error e' => simpa using hx

theorem reject_ne_error [Decidable p] (h : e' ≠ e) :
    reject p e' ≠ .error e := by
  unfold reject
  split
  · simpa using h
  · simp

theorem map_eq_ok (x : Except ε α) (f : α → β) (b : β) :
    x.map f = .ok b ↔ ∃ a, x = .ok a ∧ f a = b := by
  cases x <;> simp [Except.map]

@[simp] theorem mapError_value {δ : Type} (a : α) (f : ε → δ) :
    (Except.ok a : Except ε α).mapError f = .ok a := rfl

@[simp] theorem mapError_eq_ok {δ : Type} (x : Except ε α) (f : ε → δ) (a : α) :
    x.mapError f = .ok a ↔ x = .ok a := by
  cases x <;> simp [Except.mapError]

@[simp] theorem mapError_eq_error {δ : Type} (x : Except ε α) (f : ε → δ) (d : δ) :
    x.mapError f = .error d ↔ ∃ e, x = .error e ∧ f e = d := by
  cases x <;> simp [Except.mapError]

theorem exists_of_isOk {x : Except ε α} (h : x.isOk = true) : ∃ a, x = .ok a := by
  cases x with
  | ok a => exact ⟨a, rfl⟩
  | error e => cases h

/-- The result of a computation, or a default if it fails. -/
def okOr (d : α) : Except ε α → α
  | .ok a => a
  | .error _ => d

theorem okOr_of_eq (h : x = .ok a) (d : α) : okOr d x = a := by rw [h]; rfl

theorem eq_ok_okOr {x : Except ε α} (h : x.isOk = true) (d : α) : x = .ok (okOr d x) := by
  cases x with
  | ok a => rfl
  | error e => cases h

/-- Decides how a computation fails where its results cannot be compared. -/
def failsWith [DecidableEq ε] (x : Except ε α) (e : ε) : Bool :=
  match x with
  | .ok _ => false
  | .error e' => e' = e

theorem eq_error_of_failsWith [DecidableEq ε] {x : Except ε α}
    (h : failsWith x e = true) : x = .error e := by
  cases x with
  | ok a => cases h
  | error e' => rw [of_decide_eq_true h]

theorem foldlM_invariant {P : σ → Prop} {f : σ → ι → Except ε σ} {xs : List ι} {s t : σ}
    (hstep : ∀ s i s', i ∈ xs → P s → f s i = .ok s' → P s') (hs : P s)
    (h : xs.foldlM f s = .ok t) : P t := by
  induction xs generalizing s with
  | nil => cases h; exact hs
  | cons x xs ih =>
    simp only [List.foldlM_cons, bind_ok] at h
    obtain ⟨s', hx, ht⟩ := h
    exact ih (fun s i s' hi => hstep s i s' (List.mem_cons_of_mem _ hi))
      (hstep s x s' List.mem_cons_self hs hx) ht

theorem foldlM_mem {f : σ → ι → Except ε σ} {xs : List ι}
    (h : xs.foldlM f s = .ok t) {i : ι} (hi : i ∈ xs) : ∃ u v, f u i = .ok v := by
  induction xs generalizing s with
  | nil => cases hi
  | cons x xs ih =>
    simp only [List.foldlM_cons, bind_ok] at h
    obtain ⟨u, hx, hrest⟩ := h
    rcases List.mem_cons.mp hi with rfl | hi
    · exact ⟨s, u, hx⟩
    · exact ih hrest hi

/-- A failing fold fails with the error of one of its steps. -/
theorem foldlM_error {f : σ → ι → Except ε σ} {xs : List ι} {e : ε}
    (h : xs.foldlM f s = .error e) : ∃ t i, i ∈ xs ∧ f t i = .error e := by
  induction xs generalizing s with
  | nil => cases h
  | cons x xs ih =>
    simp only [List.foldlM_cons, bind_error] at h
    rcases h with hx | ⟨t, _, hrest⟩
    · exact ⟨s, x, List.mem_cons_self, hx⟩
    · obtain ⟨u, i, hi, hu⟩ := ih hrest
      exact ⟨u, i, List.mem_cons_of_mem _ hi, hu⟩

end SciChain.Library
