import SciChain.Storage.Set
import Mathlib.Data.List.Nodup

namespace SciChain.Storage.SetSlots
open Library

variable {α : Type}

variable {s s' : SetSlots α} {v : α}

section Reading

/-- The two structures of a stored set agree and nothing stale is kept beyond
the current length. -/
structure Valid [Storable α] (s : SetSlots α) : Prop where
  position : ∀ i < s.len, (s.positions (s.values.data i)).toNat = i + 1
  absent : ∀ v, (∀ i < s.len, s.values.data i ≠ v) → s.positions v = 0
  clean : ∀ i, s.len ≤ i → s.values.data i = Storable.zero

theorem mem_read : v ∈ s.read ↔ ∃ i < s.len, s.values.data i = v := by
  simp [read]

theorem len_lt (s : SetSlots α) : s.len < 2 ^ 32 := s.values.len.isLt

theorem length_read (s : SetSlots α) : s.read.length = s.len := by simp [read]

theorem isEmpty_iff (s : SetSlots α) : s.isEmpty = true ↔ s.read = [] := by
  rw [← List.length_eq_zero_iff, length_read]
  simp [isEmpty]

variable [Storable α]

theorem valid_empty : (empty : SetSlots α).Valid :=
  ⟨by intro i hi; simp [len, empty, VecSlots.empty] at hi, fun _ _ => rfl, fun _ _ => rfl⟩

@[simp] theorem read_empty : (empty : SetSlots α).read = [] := rfl

namespace Valid

variable {s : SetSlots α}

theorem injective (h : s.Valid) (hi : i < s.len) (hj : j < s.len)
    (he : s.values.data i = s.values.data j) : i = j := by
  have hpi := h.position i hi
  have hpj := h.position j hj
  rw [he] at hpi
  omega

theorem nodup (h : s.Valid) : s.read.Nodup := by
  apply List.Nodup.map_on _ List.nodup_range
  intro i hi j hj he
  exact h.injective (List.mem_range.mp hi) (List.mem_range.mp hj) he

theorem position_eq_zero (h : s.Valid) : s.positions v = 0 ↔ v ∉ s.read := by
  rw [mem_read]
  constructor
  · rintro hz ⟨i, hi, rfl⟩
    have hp := h.position i hi
    simp [hz] at hp
  · intro hn
    exact h.absent v (fun i hi he => hn ⟨i, hi, he⟩)

/-- Membership reads only the positions, yet agrees with the values. -/
theorem contains_iff (h : s.Valid) : s.contains v = true ↔ v ∈ s.read := by
  have hz := h.position_eq_zero (v := v)
  simp only [contains, decide_eq_true_eq, ne_eq, hz, not_not]

end Valid
end Reading

theorem checkedPosition_ok (h : checkedPosition index = .ok p) :
    p.toNat = index + 1 ∧ index + 1 < 2 ^ 32 := by
  unfold checkedPosition at h
  split at h
  · rename_i hlt
    cases h
    exact ⟨by rw [BitVec.toNat_ofNat, Nat.mod_eq_of_lt hlt], hlt⟩
  · cases h

variable [DecidableEq α] [Storable α]

/-- What a successful insertion of an absent value writes. -/
theorem insert_cases (hi : s.insert v = .ok (b, s')) :
    (s.contains v = true ∧ b = false ∧ s' = s) ∨
    (s.contains v = false ∧ b = true ∧ s'.len = s.len + 1 ∧
      s'.values.data = Function.update s.values.data s.len v ∧
      ∃ p : U32, p.toNat = s.len + 1 ∧ s'.positions = Function.update s.positions v p) := by
  unfold insert at hi
  split at hi
  · rename_i hc
    cases hi
    exact Or.inl ⟨hc, rfl, rfl⟩
  · rename_i hc
    simp only [bind_ok, VecSlots.push, pure_eq] at hi
    obtain ⟨p, hp, _, ⟨_, _, ⟨⟩⟩, ⟨⟩⟩ := hi
    obtain ⟨hpos, hlt⟩ := checkedPosition_ok hp
    refine Or.inr ⟨by simpa using hc, rfl, ?_, rfl, p, hpos, rfl⟩
    simp only [len, BitVec.toNat_ofNat] at hlt ⊢
    exact Nat.mod_eq_of_lt hlt

section

variable (h : s.Valid)
include h

theorem Valid.insert (hi : s.insert v = .ok (b, s')) : s'.Valid := by
  rcases insert_cases hi with ⟨_, _, rfl⟩ | ⟨hc, _, hlen, hdata, p, hp, hpos⟩
  · exact h
  · have hfresh : ∀ i < s.len, s.values.data i ≠ v := by
      intro i hi he
      have := h.contains_iff.mpr (mem_read.mpr ⟨i, hi, he⟩)
      simp [hc] at this
    refine ⟨?_, ?_, ?_⟩
    · intro i hi
      rw [hdata, hpos]
      by_cases hil : i = s.len
      · subst hil
        simp [hp]
      · have hlt : i < s.len := by omega
        rw [Function.update_of_ne hil, Function.update_of_ne (hfresh i hlt)]
        exact h.position i hlt
    · intro u hu
      have hne : u ≠ v := by
        rintro rfl
        exact hu s.len (by omega) (by simp [hdata])
      rw [hpos, Function.update_of_ne hne]
      apply h.absent
      intro i hi he
      apply hu i (by omega)
      rw [hdata, Function.update_of_ne (by omega), he]
    · intro i hi
      rw [hdata, Function.update_of_ne (by omega)]
      exact h.clean i (by omega)

theorem mem_insert (hi : s.insert v = .ok (b, s')) (u : α) : u ∈ s'.read ↔ u ∈ s.read ∨ u = v := by
  rcases insert_cases hi with ⟨hc, _, rfl⟩ | ⟨_, _, hlen, hdata, _⟩
  · have hv := h.contains_iff.mp hc
    constructor
    · exact Or.inl
    · rintro (hu | rfl)
      · exact hu
      · exact hv
  · simp only [mem_read, hlen, hdata]
    constructor
    · rintro ⟨i, hi, he⟩
      by_cases hil : i = s.len
      · subst hil
        exact Or.inr (by simpa using he.symm)
      · rw [Function.update_of_ne hil] at he
        exact Or.inl ⟨i, by omega, he⟩
    · rintro (⟨i, hi, he⟩ | rfl)
      · exact ⟨i, by omega, by rw [Function.update_of_ne (by omega), he]⟩
      · exact ⟨s.len, by omega, by simp⟩

theorem insert_result (hi : s.insert v = .ok (b, s')) : b = true ↔ v ∉ s.read := by
  rw [← h.contains_iff]
  rcases insert_cases hi with ⟨hc, rfl, _⟩ | ⟨hc, rfl, _⟩ <;> simp [hc]

/-- Swap-and-pop, seen from the slot `k` that held the removed value. -/
theorem remove_cases (hv : v ∈ s.read) :
    (s.remove v).1 = true ∧ ∃ k < s.len, s.values.data k = v ∧
      (s.remove v).2.len = s.len - 1 ∧
      (∀ i, (s.remove v).2.values.data i = if i = s.len - 1 then Storable.zero
        else if i = k then s.values.data (s.len - 1) else s.values.data i) ∧
      (∀ u, (s.remove v).2.positions u = if u = v then 0
        else if u = s.values.data (s.len - 1) then s.positions v else s.positions u) := by
  obtain ⟨k, hk, rfl⟩ := mem_read.mp hv
  have hpos := h.position k hk
  have hne : s.positions (s.values.data k) ≠ 0 := mt h.position_eq_zero.mp (not_not.mpr hv)
  have hindex : (s.positions (s.values.data k)).toNat - 1 = k := by omega
  have hlen : (BitVec.ofNat 32 (s.len - 1)).toNat = s.len - 1 := by
    rw [BitVec.toNat_ofNat]
    exact Nat.mod_eq_of_lt (Nat.lt_of_le_of_lt (Nat.sub_le _ _) s.len_lt)
  unfold remove
  simp only [if_neg hne, hindex]
  refine ⟨trivial, k, hk, rfl, hlen, ?_, ?_⟩
  · intro i
    by_cases hkl : k = s.len - 1 <;>
      simp only [VecSlots.set, hkl, ne_eq, not_true_eq_false, not_false_eq_true, if_true,
        if_false, Function.update_apply]
    split <;> rfl
  · intro u
    by_cases hkl : k = s.len - 1
    · simp only [hkl, ne_eq, not_true_eq_false, if_false, Function.update_apply]
      split <;> simp_all
    · simp only [hkl, ne_eq, not_false_eq_true, if_true, Function.update_apply]

theorem remove_of_not_mem (hv : v ∉ s.read) : s.remove v = (false, s) := by
  unfold remove
  simp only [if_pos (h.position_eq_zero.mpr hv)]

theorem mem_remove (u : α) : u ∈ (s.remove v).2.read ↔ u ∈ s.read ∧ u ≠ v := by
  by_cases hv : v ∈ s.read
  · obtain ⟨_, k, hk, hkv, hlen, hdata, _⟩ := remove_cases h hv
    simp only [mem_read, hlen, hdata]
    constructor
    · rintro ⟨i, hi, he⟩
      rw [if_neg (by omega)] at he
      split at he
      · refine ⟨⟨s.len - 1, by omega, he⟩, ?_⟩
        rintro rfl
        have := h.injective (by omega) hk (he.trans hkv.symm)
        omega
      · rename_i hik
        refine ⟨⟨i, by omega, he⟩, ?_⟩
        rintro rfl
        exact hik (h.injective (by omega) hk (he.trans hkv.symm))
    · rintro ⟨⟨i, hi, he⟩, hne⟩
      have hik : i ≠ k := fun hik => hne (by rw [← he, hik, hkv])
      -- The last element has moved into the slot that became free.
      by_cases hlast : i = s.len - 1
      · refine ⟨k, by omega, ?_⟩
        rw [if_neg (by omega), if_pos rfl, ← hlast, he]
      · refine ⟨i, by omega, ?_⟩
        rw [if_neg hlast, if_neg hik, he]
  · rw [remove_of_not_mem h hv]
    constructor
    · intro hu
      exact ⟨hu, fun he => hv (he ▸ hu)⟩
    · exact And.left

theorem Valid.remove : (s.remove v).2.Valid := by
  by_cases hv : v ∈ s.read
  · have hmem := mem_remove (v := v) h
    obtain ⟨_, k, hk, hkv, hlen, hdata, hpos⟩ := remove_cases h hv
    refine ⟨?_, ?_, ?_⟩
    · intro i hi
      rw [hdata, if_neg (show i ≠ s.len - 1 by omega), hpos]
      by_cases hik : i = k
      · have hne : s.values.data (s.len - 1) ≠ v := by
          intro he
          have := h.injective (by omega) hk (he.trans hkv.symm)
          omega
        rw [if_pos hik, if_neg hne, if_pos rfl, ← hkv, h.position k hk, hik]
      · have hne : s.values.data i ≠ v := fun he =>
          hik (h.injective (by omega) hk (he.trans hkv.symm))
        have hlast : s.values.data i ≠ s.values.data (s.len - 1) := by
          intro he
          have := h.injective (by omega) (by omega) he
          omega
        rw [if_neg hik, if_neg hne, if_neg hlast]
        exact h.position i (by omega)
    · intro u hu
      have hnot : u ∉ (s.remove v).2.read := by
        rw [mem_read]
        rintro ⟨i, hi, he⟩
        exact hu i hi he
      rw [hpos]
      split
      · rfl
      · rename_i hne
        have hout : u ∉ s.read := fun hin => hnot ((hmem u).mpr ⟨hin, hne⟩)
        have hlast : u ≠ s.values.data (s.len - 1) := by
          rintro rfl
          exact hout (mem_read.mpr ⟨s.len - 1, by omega, rfl⟩)
        rw [if_neg hlast]
        exact h.position_eq_zero.mpr hout
    · intro i hi
      rw [hdata]
      split
      · rfl
      · rw [if_neg (by omega)]
        exact h.clean i (by omega)
  · rw [remove_of_not_mem h hv]
    exact h

theorem remove_result : (s.remove v).1 = true ↔ v ∈ s.read := by
  by_cases hv : v ∈ s.read
  · simp [hv, (remove_cases h hv).1]
  · simp [hv, remove_of_not_mem h hv]

end

omit [Storable α] in
theorem foldl_update_zero (xs : List α) (positions : α → U32) (u : α) :
    xs.foldl (fun positions value => Function.update positions value 0) positions u =
      if u ∈ xs then 0 else positions u := by
  induction xs generalizing positions with
  | nil => rfl
  | cons x xs ih =>
    rw [List.foldl_cons, ih, Function.update_apply]
    by_cases hx : u = x <;> by_cases hxs : u ∈ xs <;> simp [hx, hxs]

theorem clearPositions_eq (h : s.Valid) : s.clearPositions = fun _ => 0 := by
  funext u
  rw [clearPositions, foldl_update_zero]
  split
  · rfl
  · rename_i hu
    exact h.position_eq_zero.mpr hu

/-- Deleting clears whole words, so not even a stale lane is left behind. -/
theorem delete_eq_empty (h : s.Valid) : s.delete = empty := by
  have hdata : VecSlots.clearElements s.values.data 0 s.values.len.toNat =
      fun _ => Storable.zero := by
    funext i
    unfold VecSlots.clearElements
    split
    · rfl
    · rename_i hout
      apply h.clean
      by_contra hlt
      have hpos := Storable.perSlot_pos (α := α)
      have hi : i < s.values.len.toNat := by simpa [len] using hlt
      apply hout
      refine ⟨by omega, ?_, ?_⟩
      · simp only [VecSlots.slotCount, Nat.zero_add]
        rw [Nat.div_eq_of_lt (by omega)]
        exact Nat.zero_le _
      · rw [VecSlots.slotCount, Nat.div_lt_iff_lt_mul hpos]
        have hround := Nat.lt_mul_div_succ
          (s.values.len.toNat + Storable.perSlot α - 1) hpos
        rw [Nat.mul_add, Nat.mul_comm (Storable.perSlot α)] at hround
        omega
  unfold delete VecSlots.delete empty VecSlots.empty
  rw [hdata, clearPositions_eq h]

omit [Storable α] in
/-- Writing distinct values from `index` on: each lands in its lane with its
position, everything else keeps what it had. -/
theorem writeFrom_spec (hx : xs.Nodup) (h : s.writeFrom index xs = .ok s') :
    (xs ≠ [] → index + xs.length < 2 ^ 32) ∧
    (∀ j x, xs[j]? = some x →
      s'.values.data (index + j) = x ∧ (s'.positions x).toNat = index + j + 1) ∧
    (∀ i, i < index ∨ index + xs.length ≤ i → s'.values.data i = s.values.data i) ∧
    (∀ u, u ∉ xs → s'.positions u = s.positions u) := by
  induction xs generalizing s index with
  | nil =>
    cases h
    exact ⟨by simp, by simp, fun _ _ => rfl, fun _ _ => rfl⟩
  | cons x xs ih =>
    obtain ⟨hxn, hxs⟩ := List.nodup_cons.mp hx
    simp only [writeFrom, bind_ok] at h
    obtain ⟨p, hp, hrest⟩ := h
    obtain ⟨hpv, hbound⟩ := checkedPosition_ok hp
    obtain ⟨hlen, hwritten, hkept, hother⟩ := ih hxs hrest
    refine ⟨?_, ?_, ?_, ?_⟩
    · intro _
      rcases xs with _ | ⟨y, ys⟩
      · simpa using hbound
      · have := hlen (by simp)
        simp only [List.length_cons] at this ⊢
        omega
    · intro j y hj
      cases j with
      | zero =>
        obtain rfl : x = y := by simpa using hj
        rw [Nat.add_zero, hkept index (Or.inl (by omega)), hother x hxn]
        simp [VecSlots.set, hpv]
      | succ j =>
        have hy := hwritten j y (by simpa using hj)
        rw [show index + (j + 1) = index + 1 + j by omega]
        exact hy
    · intro i hi
      simp only [List.length_cons] at hi
      rw [hkept i (by omega)]
      simp only [VecSlots.set]
      rw [Function.update_of_ne (by omega)]
    · intro u hu
      simp only [List.mem_cons, not_or] at hu
      rw [hother u hu.2]
      simp only
      rw [Function.update_of_ne hu.1]

/-- The stored length, lanes and positions after a successful `write`. -/
theorem write_cases (h : s.write xs = .ok s') :
    ∃ w, writeFrom { s with positions := s.clearPositions } 0 xs = .ok w ∧
      s'.len = xs.length % 2 ^ 32 ∧ s'.positions = w.positions ∧
      ∀ i, s'.values.data i =
        if xs.length ≤ i ∧ i < s.len then Storable.zero else w.values.data i := by
  simp only [write, bind_ok, pure_eq] at h
  obtain ⟨w, hw, ⟨⟩⟩ := h
  exact ⟨w, hw, rfl, rfl, fun _ => rfl⟩

/-- Replacing a set by distinct values stores exactly those, in their order. -/
theorem write_spec (hs : s.Valid) (hx : xs.Nodup) (h : s.write xs = .ok s') :
    s'.Valid ∧ s'.read = xs := by
  obtain ⟨w, hw, hlen, hpos, hdata⟩ := write_cases h
  obtain ⟨hbound, hwritten, hkept, hother⟩ := writeFrom_spec hx hw
  have hfits : xs.length < 2 ^ 32 := by
    rcases xs with _ | ⟨y, ys⟩
    · simp
    · simpa using hbound (by simp)
  rw [Nat.mod_eq_of_lt hfits] at hlen
  have hlane : ∀ (i : Nat) (hi : i < xs.length), s'.values.data i = xs[i] ∧
      (s'.positions xs[i]).toNat = i + 1 := by
    intro i hi
    rw [hdata, hpos, if_neg (by omega)]
    simpa using hwritten i xs[i] (List.getElem?_eq_getElem hi)
  refine ⟨⟨?_, ?_, ?_⟩, ?_⟩
  · intro i hi
    rw [hlen] at hi
    rw [(hlane i hi).1]
    exact (hlane i hi).2
  · intro u hu
    rw [hlen] at hu
    have hnot : u ∉ xs := by
      intro hin
      obtain ⟨i, hi, rfl⟩ := List.mem_iff_getElem.mp hin
      exact hu i hi (hlane i hi).1
    rw [hpos, hother u hnot, clearPositions_eq hs]
  · intro i hi
    rw [hlen] at hi
    rw [hdata]
    split
    · rfl
    · rw [hkept i (Or.inr (by omega))]
      exact hs.clean i (by omega)
  · apply List.ext_getElem
    · rw [length_read, hlen]
    · intro i _ hi
      simp only [read, List.getElem_map, List.getElem_range]
      exact (hlane i hi).1

end SciChain.Storage.SetSlots
