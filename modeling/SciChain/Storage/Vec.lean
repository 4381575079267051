import SciChain.Library.Result
import SciChain.Precompiles.Error

namespace SciChain.Storage
open Library

/-- Layout of an element type: what an unwritten lane decodes to, how many
elements share one storage word and the capacity of a vector of them. -/
class Storable (α : Type) where
  zero : α
  perSlot : Nat
  perSlot_pos : 0 < perSlot
  maxIndex : Nat
  maxIndex_lt : maxIndex < 2 ^ 32

/-- Twenty bytes do not pack, so each address has a word of its own. -/
instance : Storable Address where
  zero := 0
  perSlot := 1
  perSlot_pos := by decide
  maxIndex := 2 ^ 32 - 1
  maxIndex_lt := by decide

/-- Eight four-byte selectors share a word. -/
instance : Storable Selector where
  zero := 0
  perSlot := 32 / 4
  perSlot_pos := by decide
  maxIndex := (2 ^ 32 - 1) / 4
  maxIndex_lt := by decide

/-- A dynamic array in storage: the length word and the element lanes behind
it. No writer stores a length above `u32::MAX` and `load_checked_len` refuses
to read one, so the length is a 32-bit word here. -/
structure VecSlots (α : Type) where
  len : U32
  data : Nat → α

variable {α : Type} [Storable α]

namespace VecSlots

def empty : VecSlots α := ⟨0, fun _ => Storable.zero⟩

/-- `values[index].write`, without a bounds check. -/
def set (v : VecSlots α) (index : Nat) (x : α) : VecSlots α :=
  { v with data := Function.update v.data index x }

def push (v : VecSlots α) (x : α) : Result (VecSlots α) := do
  let length := v.len.toNat
  reject (Storable.maxIndex α ≤ length) (.fatal "Vec is at max capacity")
  pure { len := BitVec.ofNat 32 (length + 1), data := Function.update v.data length x }

/-- `calc_packed_slot_count`. -/
def slotCount (α : Type) [Storable α] (n : Nat) : Nat :=
  (n + Storable.perSlot α - 1) / Storable.perSlot α

/-- Zeroes the whole words holding elements `[lo, hi)`, except a boundary word
shared with an element below `lo`. -/
def clearElements (data : Nat → α) (lo hi : Nat) : Nat → α := fun i =>
  if lo < hi ∧ slotCount α lo ≤ i / Storable.perSlot α ∧
      i / Storable.perSlot α < slotCount α hi then Storable.zero else data i

def delete (v : VecSlots α) : VecSlots α :=
  { len := 0, data := clearElements v.data 0 v.len.toNat }

end VecSlots
end SciChain.Storage
