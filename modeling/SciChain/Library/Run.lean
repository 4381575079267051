import SciChain.Library.Result

namespace SciChain.Library

variable {σ ι ε : Type} (step : ι → σ → Except ε σ)

/-- One attempted operation. A failing operation leaves the state as it was:
its writes are undone together with its failure. -/
def attempt (s : σ) (i : ι) : σ :=
  match step i s with
  | .ok s' => s'
  | .error _ => s

def run (s : σ) (is : List ι) : σ := is.foldl (attempt step) s

/-- The states a run passes through, the first one included. -/
def states (s : σ) : List ι → List σ
  | [] => [s]
  | i :: is => s :: states (attempt step s i) is

/-- A run in which no operation fails. -/
def runOk (s : σ) (is : List ι) : Except ε σ := is.foldlM (fun s i => step i s) s

/-- The states reached from `start` by operations each allowed where it is
attempted. -/
inductive Reachable (allowed : ι → σ → Prop) (start : σ) : σ → Prop
  | start : Reachable allowed start start
  | next {s : σ} {i : ι} : Reachable allowed start s → allowed i s →
      Reachable allowed start (attempt step s i)

/-- Each operation of a run is allowed where it is attempted. -/
def Admissible (allowed : ι → σ → Prop) (s : σ) : List ι → Prop
  | [] => True
  | i :: is => allowed i s ∧ Admissible allowed (attempt step s i) is

instance Admissible.decidable (allowed : ι → σ → Prop) [∀ i s, Decidable (allowed i s)] (s : σ)
    (is : List ι) : Decidable (Admissible step allowed s is) :=
  match is with
  | [] => isTrue trivial
  | i :: is =>
    have := Admissible.decidable allowed (attempt step s i) is
    inferInstanceAs (Decidable (allowed i s ∧ _))

variable {step}

@[simp] theorem run_nil (s : σ) : run step s [] = s := rfl

@[simp] theorem run_cons (s : σ) (i : ι) (is : List ι) :
    run step s (i :: is) = run step (attempt step s i) is := rfl

theorem run_append (s : σ) (is js : List ι) :
    run step s (is ++ js) = run step (run step s is) js := List.foldl_append

theorem attempt_of_ok (h : step i s = .ok s') : attempt step s i = s' := by
  simp [attempt, h]

theorem attempt_of_error (h : step i s = .error e) :
    attempt step s i = s := by simp [attempt, h]

theorem apply_eq_attempt (h : (step i s).isOk = true) :
    step i s = .ok (attempt step s i) := by
  cases hs : step i s with
  | ok s' => rw [attempt_of_ok hs]
  | error e => simp [hs, Except.isOk, Except.toBool] at h

/-- An attempt either did nothing or is a successful step. -/
theorem attempt_cases (s : σ) (i : ι) :
    attempt step s i = s ∨ step i s = .ok (attempt step s i) := by
  cases h : step i s with
  | ok s' => exact Or.inr (by rw [attempt_of_ok h])
  | error e => exact Or.inl (attempt_of_error h)

theorem attempt_invariant {P : σ → Prop}
    (hstep : ∀ s', step i s = .ok s' → P s') (hs : P s) : P (attempt step s i) := by
  rcases attempt_cases s i with h | h
  · rwa [h]
  · exact hstep _ h

theorem run_invariant {P : σ → Prop} (hstep : ∀ i s s', P s → step i s = .ok s' → P s')
    (hs : P s) (is : List ι) : P (run step s is) := by
  induction is generalizing s with
  | nil => exact hs
  | cons i is ih => exact ih (attempt_invariant (fun s' h => hstep i s s' hs h) hs)

theorem Reachable.invariant {P : σ → Prop} {start s : σ}
    (h : Reachable step allowed start s) (hs : P start)
    (hstep : ∀ i s s', allowed i s → P s → step i s = .ok s' → P s') : P s := by
  induction h with
  | start => exact hs
  | next _ ha ih => exact attempt_invariant (fun s' hok => hstep _ _ s' ha ih hok) ih

theorem Reachable.run {allowed : ι → σ → Prop} {start s : σ} (h : Reachable step allowed start s)
    {is : List ι} (ha : ∀ i ∈ is, ∀ s, allowed i s) :
    Reachable step allowed start (run step s is) := by
  induction is generalizing s with
  | nil => exact h
  | cons i is ih =>
    have hnext := h.next (ha i List.mem_cons_self s)
    exact ih hnext (fun j hj => ha j (List.mem_cons_of_mem _ hj))

theorem Reachable.admissible {allowed : ι → σ → Prop} {start s : σ}
    (h : Reachable step allowed start s) {is : List ι} (ha : Admissible step allowed s is) :
    Reachable step allowed start (Library.run step s is) := by
  induction is generalizing s with
  | nil => exact h
  | cons i is ih => exact ih (h.next ha.1) ha.2

theorem admissible_append :
    Admissible step allowed s (is ++ js) ↔
      Admissible step allowed s is ∧ Admissible step allowed (Library.run step s is) js := by
  induction is generalizing s with
  | nil => simp [Admissible]
  | cons i is ih => simp only [List.cons_append, Admissible, ih, run_cons, and_assoc]

theorem head_mem_states (s : σ) (is : List ι) : s ∈ states step s is := by
  cases is <;> simp [states]

/-- Where a property is lost by exactly the bad steps, a run keeps it in every
state it passes through exactly when none of its steps is bad. -/
theorem states_invariant_iff {P : σ → Prop} {bad : ι → σ → Prop}
    (hgood : ∀ i s, P s → ¬bad i s → P (attempt step s i))
    (hbad : ∀ i s, P s → bad i s → ¬P (attempt step s i)) {s : σ} (hs : P s) (is : List ι) :
    (∀ t ∈ states step s is, P t) ↔
      ∀ before i after, is = before ++ i :: after → ¬bad i (run step s before) := by
  induction is generalizing s with
  | nil =>
    constructor
    · intro _ before i after he
      simp at he
    · intro _ t ht
      rw [List.mem_singleton.mp ht]
      exact hs
  | cons i is ih =>
    constructor
    · intro h before j after he hj
      have htail : ∀ t ∈ states step (attempt step s i) is, P t :=
        fun t ht => h t (List.mem_cons_of_mem _ ht)
      have hnext : P (attempt step s i) := htail _ (head_mem_states _ _)
      cases before with
      | nil =>
        cases he
        exact hbad i s hs hj hnext
      | cons k before =>
        cases he
        exact (ih hnext).mp htail before j after rfl hj
    · intro h t ht
      have hnext : P (attempt step s i) := hgood i s hs (h [] i is rfl)
      rcases List.mem_cons.mp ht with rfl | ht
      · exact hs
      · refine (ih hnext).mpr ?_ t ht
        intro before j after he
        exact h (i :: before) j after (by rw [he]; rfl)

theorem runOk_eq_run (h : (runOk step s is).isOk = true) :
    runOk step s is = .ok (run step s is) := by
  induction is generalizing s with
  | nil => rfl
  | cons i is ih =>
    simp only [runOk, List.foldlM_cons] at h ⊢
    cases hs : step i s with
    | error e => simp [hs, Except.isOk, Except.toBool] at h
    | ok s' =>
      rw [hs, bind_value] at h
      rw [bind_value, run_cons, attempt_of_ok hs]
      exact ih h

end SciChain.Library
