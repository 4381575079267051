import SciChain.Storage.Vec

namespace SciChain.Storage
open Library

/-- An enumerable set in storage: the values vector and the mapping from a
value to its one-based position, zero when the value is absent. -/
structure SetSlots (α : Type) where
  values : VecSlots α
  positions : α → U32

/-- One-based position of an index, refusing the one that would wrap to zero. -/
def checkedPosition (index : Nat) : Result U32 :=
  if index + 1 < 2 ^ 32 then .ok (BitVec.ofNat 32 (index + 1)) else .error (.panic .underOverflow)

variable {α : Type} [DecidableEq α] [Storable α]

namespace SetSlots

def empty : SetSlots α := ⟨VecSlots.empty, fun _ => 0⟩

def len (s : SetSlots α) : Nat := s.values.len.toNat

def isEmpty (s : SetSlots α) : Bool := s.len = 0

def contains (s : SetSlots α) (value : α) : Bool := s.positions value ≠ 0

/-- All elements in storage order. -/
def read (s : SetSlots α) : List α := (List.range s.len).map s.values.data

def insert (s : SetSlots α) (value : α) : Result (Bool × SetSlots α) := do
  if s.contains value then
    pure (false, s)
  else
    let position ← checkedPosition s.len
    let values ← s.values.push value
    pure (true, { values, positions := Function.update s.positions value position })

/-- Swap with the last element, shrink, clear the removed value's position. -/
def remove (s : SetSlots α) (value : α) : Bool × SetSlots α :=
  let position := s.positions value
  if position = 0 then (false, s) else
  let lastIndex := s.len - 1
  let index := position.toNat - 1
  let swapped : SetSlots α :=
    if index ≠ lastIndex then
      let lastValue := s.values.data lastIndex
      { values := s.values.set index lastValue,
        positions := Function.update s.positions lastValue position }
    else s
  (true,
    { values := { (swapped.values.set lastIndex Storable.zero) with
        len := BitVec.ofNat 32 lastIndex },
      positions := Function.update swapped.positions value 0 })

/-- Clears the position of every stored value. -/
def clearPositions (s : SetSlots α) : α → U32 :=
  s.read.foldl (fun positions value => Function.update positions value 0) s.positions

def writeFrom (s : SetSlots α) (index : Nat) : List α → Result (SetSlots α)
  | [] => .ok s
  | value :: rest => do
    let position ← checkedPosition index
    writeFrom
      { values := s.values.set index value,
        positions := Function.update s.positions value position } (index + 1) rest

/-- Replaces the whole set, reusing the old lanes and clearing those left over. -/
def write (s : SetSlots α) (value : List α) : Result (SetSlots α) := do
  let oldLen := s.len
  let newLen := value.length
  let written ← writeFrom { s with positions := s.clearPositions } 0 value
  pure { written with values := {
    len := BitVec.ofNat 32 newLen,
    data := fun i => if newLen ≤ i ∧ i < oldLen then Storable.zero else written.values.data i } }

def delete (s : SetSlots α) : SetSlots α :=
  { values := s.values.delete, positions := s.clearPositions }

end SetSlots
end SciChain.Storage
