import SciChain.Library.Word
import Mathlib.Data.List.Nodup
import Mathlib.Data.List.Perm.Basic

namespace SciChain.Library

/-! Lists of entries as maps: with distinct keys the order of the entries does not
matter. -/

variable {κ β : Type} {xs ys : List (κ × β)} {k : κ} {v : β}

/-- The keys of the entries. -/
def keys (xs : List (κ × β)) : List κ := xs.map Prod.fst

@[simp] theorem keys_cons (e : κ × β) (xs : List (κ × β)) : keys (e :: xs) = e.1 :: keys xs := rfl

theorem mem_keys_of_mem (h : (k, v) ∈ xs) : k ∈ keys xs := List.mem_map.mpr ⟨(k, v), h, rfl⟩

theorem keys_perm (h : xs.Perm ys) : (keys xs).Perm (keys ys) := h.map Prod.fst

variable [BEq κ] [LawfulBEq κ]

theorem lookup_eq_none_iff_not_mem : xs.lookup k = none ↔ k ∉ keys xs := by
  rw [List.lookup_eq_none_iff]
  constructor
  · intro h hk
    obtain ⟨e, he, rfl⟩ := List.mem_map.mp hk
    simpa using h e he
  · intro h e he
    simp only [bne_iff_ne]
    intro heq
    exact h (heq ▸ mem_keys_of_mem he)

theorem lookup_eq_some_iff_mem (hn : (keys xs).Nodup) : xs.lookup k = some v ↔ (k, v) ∈ xs := by
  induction xs with
  | nil => simp
  | cons e xs ih =>
    obtain ⟨k', v'⟩ := e
    rw [keys_cons, List.nodup_cons] at hn
    cases hb : k == k' with
    | true =>
      obtain rfl := eq_of_beq hb
      have hout : (k, v) ∉ xs := fun hm => hn.1 (mem_keys_of_mem hm)
      simp [hout, eq_comm]
    | false =>
      have hk : k ≠ k' := beq_eq_false_iff_ne.mp hb
      simp [List.lookup_cons, hb, hk, ih hn.2]

theorem lookup_cons_eq (k x : κ) (w : β) (xs : List (κ × β)) [Decidable (k = x)] :
    ((x, w) :: xs).lookup k = if k = x then some w else xs.lookup k := by
  rw [List.lookup_cons]
  by_cases hk : k = x
  · simp [hk]
  · simp [hk, beq_eq_false_iff_ne.mpr hk]

theorem lookup_filter (p : κ → Bool) (xs : List (κ × β)) (k : κ) :
    (xs.filter fun e => p e.1).lookup k = if p k then xs.lookup k else none := by
  induction xs with
  | nil => simp
  | cons e xs ih =>
    obtain ⟨x, w⟩ := e
    by_cases hk : k == x
    · obtain rfl := eq_of_beq hk
      cases hp : p k <;> simp [hp, ih]
    · cases hp : p x <;> simp [hp, ih, List.lookup_cons, hk]

omit [BEq κ] [LawfulBEq κ] in
/-- Which of the comparisons of keys is used does not matter. -/
theorem lookup_beq (b b' : BEq κ) [@LawfulBEq κ b] [@LawfulBEq κ b'] (xs : List (κ × β)) (k : κ) :
    @List.lookup κ β b k xs = @List.lookup κ β b' k xs := by
  have heq : b = b' := by
    cases b with
    | mk f =>
      cases b' with
      | mk g =>
        congr 1
        funext x y
        rw [Bool.eq_iff_iff]
        exact (@beq_iff_eq κ ⟨f⟩ _ x y).trans (@beq_iff_eq κ ⟨g⟩ _ x y).symm
  subst heq
  rfl

end SciChain.Library
