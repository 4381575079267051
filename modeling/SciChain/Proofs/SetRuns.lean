import SciChain.Proofs.StoredSet
import Mathlib.Data.Finset.Dedup
import Mathlib.Data.Finset.Card

namespace SciChain.Storage
open Library Storable

/-- The calls that change a stored set. The argument of `write` is a `Set`,
which is deduplicated when it is built. -/
inductive SetCall (α : Type)
  | insert (value : α)
  | remove (value : α)
  | write (value : List α) (distinct : value.Nodup)
  | delete

inductive SetReply
  | flag (changed : Bool)
  | done
  deriving DecidableEq, Repr

variable {α : Type} [DecidableEq α]

namespace SetCall

/-- What a call means for the mathematical set. -/
def onFinset : SetCall α → Finset α → SetReply × Finset α
  | .insert v, S => (.flag (v ∉ S), Insert.insert v S)
  | .remove v, S => (.flag (v ∈ S), S.erase v)
  | .write xs _, _ => (.done, xs.toFinset)
  | .delete, _ => (.done, ∅)

def onFinsetAll (S : Finset α) : List (SetCall α) → List SetReply × Finset α
  | [] => ([], S)
  | c :: cs =>
    let (reply, T) := c.onFinset S
    let (replies, U) := onFinsetAll T cs
    (reply :: replies, U)

variable [Storable α]

def apply : SetCall α → SetSlots α → Result (SetReply × SetSlots α)
  | .insert v, s => do
    let (changed, s) ← s.insert v
    pure (.flag changed, s)
  | .remove v, s => let (changed, s) := s.remove v; pure (.flag changed, s)
  | .write xs _, s => do
    let s ← s.write xs
    pure (.done, s)
  | .delete, s => pure (.done, s.delete)

def applyAll (s : SetSlots α) :
    List (SetCall α) → Result (List SetReply × SetSlots α)
  | [] => pure ([], s)
  | c :: cs => do
    let (reply, s) ← c.apply s
    let (replies, s) ← applyAll s cs
    pure (reply :: replies, s)

/-- The vector behind the set has room for what the call adds. Pushing stops at
the capacity of the element type; replacing stops where a position would wrap. -/
def Fits : SetCall α → Finset α → Prop
  | .insert v, S => v ∈ S ∨ S.card < Storable.maxIndex α
  | .remove _, _ => True
  | .write xs _, _ => xs.length < 2 ^ 32
  | .delete, _ => True

def FitsAll (S : Finset α) : List (SetCall α) → Prop
  | [] => True
  | c :: cs => c.Fits S ∧ FitsAll (c.onFinset S).2 cs

end SetCall

namespace SetSlots

variable [Storable α]

variable {s : SetSlots α} {xs : List α}

/-- Storage in a consistent state that holds exactly the elements of `S`. -/
structure Stores (s : SetSlots α) (S : Finset α) : Prop where
  valid : s.Valid
  mem_read : ∀ v, v ∈ s.read ↔ v ∈ S

omit [DecidableEq α] in
theorem stores_empty : (empty : SetSlots α).Stores ∅ := ⟨valid_empty, by simp⟩

theorem Valid.position_iff (h : s.Valid) (hi : i < s.len) :
    (s.positions v).toNat = i + 1 ↔ s.values.data i = v := by
  constructor
  · intro hp
    have hin : v ∈ s.read := by
      by_contra hout
      simp [h.position_eq_zero.mpr hout] at hp
    obtain ⟨j, hj, rfl⟩ := SetSlots.mem_read.mp hin
    have hpj := h.position j hj
    rw [show i = j by omega]
  · rintro rfl
    exact h.position i hi

namespace Stores

variable {s : SetSlots α} {S : Finset α}

theorem toFinset_read (h : s.Stores S) : s.read.toFinset = S := by
  ext v
  simp [h.mem_read]

theorem len_eq (h : s.Stores S) : s.len = S.card := by
  rw [← length_read, ← h.toFinset_read, List.toFinset_card_of_nodup h.valid.nodup]

omit [DecidableEq α] in
theorem contains_iff (h : s.Stores S) (v : α) : s.contains v = true ↔ v ∈ S := by
  rw [h.valid.contains_iff, h.mem_read]

end Stores

theorem checkedPosition_of_lt (h : index + 1 < 2 ^ 32) :
    checkedPosition index = .ok (BitVec.ofNat 32 (index + 1)) := if_pos h

theorem insert_isOk (h : s.contains v = true ∨ s.len < Storable.maxIndex α) :
    (s.insert v).isOk = true := by
  unfold insert
  split
  · rfl
  · rename_i hc
    have hroom : s.len < maxIndex α := h.resolve_left hc
    have hmax := maxIndex_lt (α := α)
    have hpush : reject (maxIndex α ≤ s.values.len.toNat)
        (TempoPrecompileError.fatal "Vec is at max capacity") = .ok () :=
      reject_neg (by simpa [len] using hroom) _
    rw [checkedPosition_of_lt (by omega), bind_value, VecSlots.push, hpush]
    rfl

theorem insert_at_capacity (hc : s.contains v = false) (hlen : s.len = Storable.maxIndex α)
    (hmax : Storable.maxIndex α + 1 < 2 ^ 32) :
    s.insert v = .error (.fatal "Vec is at max capacity") := by
  have hpush : reject (maxIndex α ≤ s.values.len.toNat)
      (TempoPrecompileError.fatal "Vec is at max capacity") = .error _ :=
    reject_pos (Nat.le_of_eq hlen.symm) _
  simp only [insert, hc, Bool.false_eq_true, if_false]
  rw [checkedPosition_of_lt (by omega), bind_value, VecSlots.push, hpush]
  rfl

omit [Storable α] in
theorem writeFrom_isOk (h : index + xs.length < 2 ^ 32) : (s.writeFrom index xs).isOk = true := by
  induction xs generalizing s index with
  | nil => rfl
  | cons x xs ih =>
    rw [List.length_cons] at h
    rw [writeFrom, checkedPosition_of_lt (by omega), bind_value]
    exact ih (by omega)

theorem write_isOk (h : xs.length < 2 ^ 32) : (s.write xs).isOk = true := by
  obtain ⟨w, hw⟩ := exists_of_isOk
    (writeFrom_isOk (s := { s with positions := s.clearPositions }) ((Nat.zero_add _).trans_lt h))
  rw [write, hw]
  rfl

/-- Replacing may fill a set up to the capacity of its vector; then nothing can
be inserted. -/
theorem full_set_refuses (hx : xs.Nodup) (hlen : xs.length = Storable.maxIndex α)
    (hmax : Storable.maxIndex α + 1 < 2 ^ 32) (hv : v ∉ xs) :
    (SetCall.applyAll empty [.write xs hx]).isOk = true ∧
    SetCall.applyAll empty [.write xs hx, .insert v] =
      .error (.fatal "Vec is at max capacity") := by
  obtain ⟨s, hw⟩ := exists_of_isOk (write_isOk (s := (empty : SetSlots α))
    (show xs.length < 2 ^ 32 by omega))
  obtain ⟨hvalid, hread⟩ := write_spec valid_empty hx hw
  have hslen : s.len = maxIndex α := by rw [← length_read, hread, hlen]
  have hout : s.contains v = false := by
    rwa [Bool.eq_false_iff, ne_eq, hvalid.contains_iff, hread]
  have hfull := insert_at_capacity hout hslen hmax
  constructor
  · simp [SetCall.applyAll, SetCall.apply, hw, Except.isOk, Except.toBool]
  · simp [SetCall.applyAll, SetCall.apply, hw, hfull]

/-- One call that fits: it succeeds, answers as the set does and keeps the
storage in step with the set. -/
theorem Stores.apply (h : s.Stores S) {c : SetCall α} (hfit : c.Fits S) :
    ∃ s', c.apply s = .ok ((c.onFinset S).1, s') ∧ s'.Stores (c.onFinset S).2 := by
  cases c with
  | insert v =>
    have hroom : s.contains v = true ∨ s.len < maxIndex α := by
      rwa [h.contains_iff, h.len_eq]
    obtain ⟨⟨b, s'⟩, hi⟩ := exists_of_isOk (insert_isOk hroom)
    have hb : b = decide (v ∉ S) := by
      rw [Bool.eq_iff_iff, decide_eq_true_iff, ← h.mem_read]
      exact insert_result h.valid hi
    refine ⟨s', ?_, h.valid.insert hi, ?_⟩
    · simp [SetCall.apply, SetCall.onFinset, hi, hb]
    · intro u
      rw [mem_insert h.valid hi, h.mem_read, SetCall.onFinset, Finset.mem_insert, or_comm]
  | remove v =>
    have hb : (s.remove v).1 = decide (v ∈ S) := by
      rw [Bool.eq_iff_iff, decide_eq_true_iff, ← h.mem_read]
      exact remove_result h.valid
    refine ⟨(s.remove v).2, ?_, h.valid.remove, ?_⟩
    · simp [SetCall.apply, SetCall.onFinset, hb]
    · intro u
      rw [mem_remove h.valid, h.mem_read, SetCall.onFinset, Finset.mem_erase, and_comm]
  | write xs distinct =>
    obtain ⟨s', hw⟩ := exists_of_isOk (write_isOk (s := s) hfit)
    obtain ⟨hvalid, hread⟩ := write_spec h.valid distinct hw
    refine ⟨s', ?_, hvalid, ?_⟩
    · simp [SetCall.apply, SetCall.onFinset, hw]
    · intro u
      simp [hread, SetCall.onFinset]
  | delete =>
    refine ⟨s.delete, rfl, ?_⟩
    rw [delete_eq_empty h.valid]
    exact stores_empty

theorem Stores.applyAll (h : s.Stores S) (hfit : SetCall.FitsAll S cs) :
    ∃ s', SetCall.applyAll s cs = .ok ((SetCall.onFinsetAll S cs).1, s') ∧
      s'.Stores (SetCall.onFinsetAll S cs).2 := by
  induction cs generalizing s S with
  | nil => exact ⟨s, rfl, h⟩
  | cons c cs ih =>
    obtain ⟨t, ht, htS⟩ := h.apply hfit.1
    obtain ⟨u, hu, huS⟩ := ih htS hfit.2
    refine ⟨u, ?_, huS⟩
    simp [SetCall.applyAll, SetCall.onFinsetAll, ht, hu]

/-- Within the capacity of the vector every sequence of calls on an empty
stored set behaves as on the mathematical set. -/
theorem stored_set_refines_finset (cs : List (SetCall α)) (hfit : SetCall.FitsAll ∅ cs) :
    ∃ s, SetCall.applyAll (empty : SetSlots α) cs = .ok ((SetCall.onFinsetAll ∅ cs).1, s) ∧
      s.read.Nodup ∧ s.read.toFinset = (SetCall.onFinsetAll ∅ cs).2 ∧
      (∀ v, s.contains v = true ↔ v ∈ (SetCall.onFinsetAll ∅ cs).2) ∧
      (∀ v, ∀ i < s.len, (s.positions v).toNat = i + 1 ↔ s.values.data i = v) ∧
      (∀ v ∉ s.read, s.positions v = 0) ∧
      (∀ i, s.len ≤ i → s.values.data i = Storable.zero) := by
  obtain ⟨s, hrun, hs⟩ := (stores_empty (α := α)).applyAll hfit
  refine ⟨s, hrun, hs.valid.nodup, hs.toFinset_read, hs.contains_iff, ?_, ?_, hs.valid.clean⟩
  · intro v i hi
    exact hs.valid.position_iff hi
  · intro v hv
    exact hs.valid.position_eq_zero.mpr hv

theorem address_set_run :
    ∃ s, SetCall.applyAll (empty : SetSlots Address)
        [.insert 1, .insert 2, .insert 1, .remove 1, .write [3, 4] (by decide), .delete] =
          .ok ([.flag true, .flag true, .flag false, .flag true, .done, .done], s) ∧
      s.read.toFinset = ∅ := by
  obtain ⟨s, hrun, _, hread, _⟩ := stored_set_refines_finset (α := Address)
    [.insert 1, .insert 2, .insert 1, .remove 1, .write [3, 4] (by decide), .delete]
    ⟨Or.inr (by decide), Or.inr (by decide), Or.inl (by decide), trivial,
      show [3, 4].length < 2 ^ 32 by decide, trivial, trivial⟩
  exact ⟨s, hrun, hread⟩

def selectorsBelow (n : Nat) : List Selector := (List.range n).map (BitVec.ofNat 32)

theorem length_selectorsBelow (n : Nat) : (selectorsBelow n).length = n := by
  simp [selectorsBelow]

theorem nodup_selectorsBelow (h : n ≤ 2 ^ 32) : (selectorsBelow n).Nodup := by
  apply List.Nodup.map_on _ List.nodup_range
  intro i hi j hj he
  rw [List.mem_range] at hi hj
  have hv := congrArg BitVec.toNat he
  rwa [BitVec.toNat_ofNat, BitVec.toNat_ofNat, Nat.mod_eq_of_lt (by omega),
    Nat.mod_eq_of_lt (by omega)] at hv

theorem not_mem_selectorsBelow (h : n < 2 ^ 32) : BitVec.ofNat 32 n ∉ selectorsBelow n := by
  intro hin
  obtain ⟨i, hi, he⟩ := List.mem_map.mp hin
  rw [List.mem_range] at hi
  have hv := congrArg BitVec.toNat he
  rw [BitVec.toNat_ofNat, BitVec.toNat_ofNat, Nat.mod_eq_of_lt (by omega),
    Nat.mod_eq_of_lt h] at hv
  omega

/-- Selectors are packed, so their vector is full at a quarter of `u32::MAX`:
a set of that many takes no further selector. -/
theorem full_selector_set_refuses :
    ∃ (xs : List Selector) (hx : xs.Nodup) (v : Selector), v ∉ xs ∧ xs.length + 1 < 2 ^ 32 - 1 ∧
      (SetCall.applyAll empty [.write xs hx]).isOk = true ∧
      SetCall.applyAll empty [.write xs hx, .insert v] =
        .error (.fatal "Vec is at max capacity") := by
  have hmax : maxIndex Selector < (2 ^ 32 - 2) - 1 := by decide
  have hlen := length_selectorsBelow (maxIndex Selector)
  have hx := nodup_selectorsBelow (n := maxIndex Selector) (by omega)
  have hv := not_mem_selectorsBelow (n := maxIndex Selector) (by omega)
  exact ⟨_, hx, _, hv, by omega, full_set_refuses hx hlen (by omega) hv⟩

end SetSlots
end SciChain.Storage
