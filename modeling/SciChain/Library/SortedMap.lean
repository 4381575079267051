import SciChain.Library.Assoc
import Mathlib.Order.Defs.LinearOrder

namespace SciChain.Library

/-! Maps as lists of entries in the order of their keys. -/

variable {κ ν : Type} [LinearOrder κ]

/-- The entry of a key in its place, instead of one that is there. -/
def insertKey (k : κ) (v : ν) : List (κ × ν) → List (κ × ν)
  | [] => [(k, v)]
  | e :: rest =>
    if k < e.1 then (k, v) :: e :: rest
    else if k = e.1 then (k, v) :: rest
    else e :: insertKey k v rest

/-- Entries inserted one after the other. -/
def insertAll (m : List (κ × ν)) (entries : List (κ × ν)) : List (κ × ν) :=
  entries.foldl (fun m e => insertKey e.1 e.2 m) m

variable {k : κ} {v : ν} {m entries : List (κ × ν)}

theorem lookup_insertKey (k k' : κ) (v : ν) (m : List (κ × ν)) :
    (insertKey k v m).lookup k' = if k' = k then some v else m.lookup k' := by
  induction m with
  | nil => simp [insertKey, lookup_cons_eq]
  | cons e rest ih =>
    obtain ⟨x, w⟩ := e
    simp only [insertKey]
    split
    · rw [lookup_cons_eq]
    · split
      · rename_i hx
        subst hx
        rw [lookup_cons_eq, lookup_cons_eq]
        by_cases hk : k' = k <;> simp [hk]
      · rename_i hx
        by_cases hkx : k' = x
        · subst hkx
          simp [Ne.symm hx]
        · simp [lookup_cons_eq, hkx, ih]

theorem mem_keys_insertKey : k' ∈ keys (insertKey k v m) ↔ k' = k ∨ k' ∈ keys m := by
  have h := lookup_insertKey k k' v m
  rw [← not_iff_not, ← lookup_eq_none_iff_not_mem, h, not_or, ← lookup_eq_none_iff_not_mem]
  by_cases hk : k' = k <;> simp [hk]

theorem sorted_insertKey (h : (keys m).Pairwise (· < ·)) :
    (keys (insertKey k v m)).Pairwise (· < ·) := by
  induction m with
  | nil => simp [insertKey, keys]
  | cons e rest ih =>
    rw [keys_cons, List.pairwise_cons] at h
    simp only [insertKey]
    split
    · rename_i hlt
      rw [keys_cons, keys_cons, List.pairwise_cons, List.pairwise_cons]
      refine ⟨?_, h⟩
      intro x hx
      rcases List.mem_cons.mp hx with rfl | hx
      · exact hlt
      · exact hlt.trans (h.1 x hx)
    · split
      · rename_i heq
        rw [keys_cons, List.pairwise_cons]
        exact ⟨fun x hx => heq ▸ h.1 x hx, h.2⟩
      · rename_i hlt hne
        rw [keys_cons, List.pairwise_cons]
        refine ⟨?_, ih h.2⟩
        intro x hx
        rcases mem_keys_insertKey.mp hx with rfl | hx
        · exact lt_of_le_of_ne (not_lt.mp hlt) (Ne.symm hne)
        · exact h.1 x hx

theorem sorted_insertAll (h : (keys m).Pairwise (· < ·)) :
    (keys (insertAll m entries)).Pairwise (· < ·) := by
  induction entries generalizing m with
  | nil => exact h
  | cons e entries ih => exact ih (sorted_insertKey h)

/-- Of entries with distinct keys each one is found again. -/
theorem lookup_insertAll (hn : (keys entries).Nodup) (m : List (κ × ν)) (k : κ) :
    (insertAll m entries).lookup k = (entries.lookup k).or (m.lookup k) := by
  induction entries generalizing m with
  | nil => simp [insertAll]
  | cons e entries ih =>
    obtain ⟨x, w⟩ := e
    rw [keys_cons, List.nodup_cons] at hn
    change (insertAll (insertKey x w m) entries).lookup k = _
    rw [ih hn.2, lookup_insertKey]
    by_cases hk : k = x
    · subst hk
      have hout : entries.lookup k = none := lookup_eq_none_iff_not_mem.mpr hn.1
      simp [hout]
    · simp [lookup_cons_eq, hk]

end SciChain.Library
