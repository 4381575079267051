import SciChain.Library.Result

namespace SciChain.Library

variable {ε σ α : Type}

/-- `for i in lo..hi` over a fallible body. -/
def forRange (lo hi : Nat) (body : σ → Nat → Except ε σ) (s : σ) : Except ε σ :=
  (List.range' lo (hi - lo)).foldlM body s

/-- `for (i, x) in xs.iter().enumerate()` over a fallible body. -/
def forEnum (xs : List α) (body : σ → α → Nat → Except ε σ) (s : σ) : Except ε σ :=
  xs.zipIdx.foldlM (fun t p => body t p.1 p.2) s

/-- Loop rule: the body runs and takes the invariant from one index to the next. -/
theorem forRange_ok {P : Nat → σ → Prop} {lo hi : Nat} {body : σ → Nat → Except ε σ} {s : σ}
    (hle : lo ≤ hi) (init : P lo s)
    (step : ∀ i t, lo ≤ i → i < hi → P i t → ∃ u, body t i = .ok u ∧ P (i + 1) u) :
    ∃ u, forRange lo hi body s = .ok u ∧ P hi u := by
  unfold forRange
  generalize hn : hi - lo = n
  induction n generalizing lo s with
  | zero =>
    have heq : lo = hi := by omega
    exact ⟨s, rfl, heq ▸ init⟩
  | succ n ih =>
    obtain ⟨t, ht, hP⟩ := step lo s (Nat.le_refl lo) (by omega) init
    obtain ⟨u, hu, hPu⟩ := ih (by omega) hP (fun i t hlo => step i t (by omega)) (by omega)
    refine ⟨u, ?_, hPu⟩
    rw [List.range'_succ, List.foldlM_cons, ht]
    exact hu

theorem forEnum_ok {P : Nat → σ → Prop} {xs : List α} {body : σ → α → Nat → Except ε σ} {s : σ}
    (init : P 0 s)
    (step : ∀ i x t, xs[i]? = some x → P i t → ∃ u, body t x i = .ok u ∧ P (i + 1) u) :
    ∃ u, forEnum xs body s = .ok u ∧ P xs.length u := by
  unfold forEnum
  -- The induction is on the rest of the list; `k` elements are behind it.
  suffices h : ∀ (ys : List α) (k : Nat) (t : σ), (∀ i y, ys[i]? = some y →
      xs[k + i]? = some y) → P k t →
      ∃ u, (ys.zipIdx k).foldlM (fun t p => body t p.1 p.2) t = .ok u ∧ P (k + ys.length) u by
    obtain ⟨u, hu, hP⟩ := h xs 0 s (fun i y hy => by rwa [Nat.zero_add]) init
    exact ⟨u, hu, by rwa [Nat.zero_add] at hP⟩
  intro ys
  induction ys with
  | nil => exact fun k t _ hP => ⟨t, rfl, hP⟩
  | cons y ys ih =>
    intro k t hys hP
    obtain ⟨t', ht, hP'⟩ := step k y t (hys 0 y rfl) hP
    have htail : ∀ i z, ys[i]? = some z → xs[k + 1 + i]? = some z := fun i z hz => by
      rw [Nat.add_assoc, Nat.add_comm 1 i]
      exact hys (i + 1) z hz
    obtain ⟨u, hu, hPu⟩ := ih (k + 1) t' htail hP'
    refine ⟨u, ?_, ?_⟩
    · rw [List.zipIdx_cons, List.foldlM_cons, ht]
      exact hu
    · rwa [List.length_cons, Nat.add_comm ys.length 1, ← Nat.add_assoc]

end SciChain.Library
