import SciChain.Library.Lanes
import SciChain.Library.Result
import SciChain.Precompiles.Error

/-!
Words of storage slots: the layout contexts and the packing of single-word
values. `PackedSlot` is the word itself, so the `Storable` methods of a
single-word type are functions of the word of its slot.
-/

namespace SciChain.RawStorage
open Library

/-- The storage of one account. -/
abbrev Slots := U256 → U256

inductive LayoutCtx where
  | full
  | init
  | packed (offset : Nat)
  deriving DecidableEq, Repr

def LayoutCtx.packedOffset : LayoutCtx → Option Nat
  | .full | .init => none
  | .packed offset => some offset

def LayoutCtx.skipTailCleanup : LayoutCtx → Bool
  | .init => true
  | .full | .packed _ => false

structure FieldLocation where
  offsetSlots : Nat
  offsetBytes : Nat
  size : Nat
  deriving DecidableEq, Repr

/-- `gen_slot_packing_logic`: a field joins the slot of the single-slot field
before it when both fit. -/
def FieldLocation.next (prev : FieldLocation) (size : Nat) : FieldLocation :=
  if prev.offsetBytes + prev.size + size ≤ 32 then
    ⟨prev.offsetSlots, prev.offsetBytes + prev.size, size⟩
  else ⟨prev.offsetSlots + 1, 0, size⟩

def createElementMask (byteCount : Nat) : U256 :=
  if 32 ≤ byteCount then maxWord 256 else (1#256 <<< (byteCount * 8)) - 1#256

def spanError (offset bytes : Nat) : TempoPrecompileError :=
  .fatal (s!"Value of {bytes} bytes at offset {offset} would span slot boundary " ++
    s!"(max offset: {32 - bytes})")

def calcElementSlot (idx elemBytes : Nat) : Nat := idx / (32 / elemBytes)

def calcElementOffset (idx elemBytes : Nat) : Nat := idx % (32 / elemBytes) * elemBytes

def calcElementLoc (idx elemBytes : Nat) : FieldLocation :=
  ⟨calcElementSlot idx elemBytes, calcElementOffset idx elemBytes, elemBytes⟩

def calcPackedSlotCount (n elemBytes : Nat) : Nat :=
  let elemsPerSlot := 32 / elemBytes
  (n + elemsPerSlot - 1) / elemsPerSlot

/-- A value that fits one word, right-aligned in its low `bytes` bytes. -/
class FromWord (T : Type) where
  bytes : Nat
  toWord : T → U256
  fromWord : U256 → Result T
  bytes_pos : 0 < bytes
  bytes_le : bytes ≤ 32
  toWord_lt : ∀ x, (toWord x).toNat < 2 ^ (bytes * 8)
  fromWord_toWord : ∀ x, fromWord (toWord x) = .ok x

export FromWord (bytes toWord fromWord)

section Methods
variable {T : Type} [FromWord T]

def extractFromWord (slotValue : U256) (offset bytes : Nat) : Result T := do
  reject (32 < offset + bytes) (spanError offset bytes)
  let shiftBits := offset * 8
  let mask := createElementMask bytes
  fromWord ((slotValue >>> shiftBits) &&& mask)

def insertIntoWord (current : U256) (value : T) (offset bytes : Nat) :
    Result U256 := do
  reject (32 < offset + bytes) (spanError offset bytes)
  let fieldValue := toWord value
  let shiftBits := offset * 8
  let mask := createElementMask bytes
  let clearMask := ~~~(mask <<< shiftBits)
  let cleared := current &&& clearMask
  let positioned := (fieldValue &&& mask) <<< shiftBits
  pure (cleared ||| positioned)

/-- `Storable::load` on the word of the slot. A type of 32 bytes ignores the context. -/
def loadWord (word : U256) (ctx : LayoutCtx) : Result T :=
  if bytes T < 32 then
    match ctx.packedOffset with
    | none => fromWord word
    | some offset => extractFromWord word offset (bytes T)
  else fromWord word

/-- `Storable::store`: the word of the slot afterwards. -/
def storeWord (current : U256) (value : T) (ctx : LayoutCtx) :
    Result U256 :=
  if bytes T < 32 then
    match ctx.packedOffset with
    | none => pure (toWord value)
    | some offset => insertIntoWord current value offset (bytes T)
  else pure (toWord value)

end Methods

/-- Unsigned integers: a word above the type's maximum is refused. -/
@[reducible] def unsigned (n : Nat) (hpos : 0 < n) (hle : n ≤ 32) : FromWord (BitVec (n * 8)) where
  bytes := n
  toWord x := x.setWidth 256
  fromWord word :=
    if word.toNat < 2 ^ (n * 8) then .ok (word.setWidth _) else .error (.panic .underOverflow)
  bytes_pos := hpos
  bytes_le := hle
  toWord_lt x := by
    rw [BitVec.toNat_setWidth]
    exact Nat.lt_of_le_of_lt (Nat.mod_le _ _) x.isLt
  fromWord_toWord x := by
    have hx : (x.setWidth 256).toNat < 2 ^ (n * 8) := by
      rw [BitVec.toNat_setWidth]
      exact Nat.lt_of_le_of_lt (Nat.mod_le _ _) x.isLt
    rw [if_pos hx, BitVec.setWidth_setWidth_of_le x (by omega), BitVec.setWidth_eq]

/-- Fixed byte strings and addresses: the low bytes of the word. -/
@[reducible] def fixedBytes (n : Nat) (hpos : 0 < n) (hle : n ≤ 32) : FromWord (BitVec (n * 8)) where
  bytes := n
  toWord x := x.setWidth 256
  fromWord word := .ok (word.setWidth _)
  bytes_pos := hpos
  bytes_le := hle
  toWord_lt := (unsigned n hpos hle).toWord_lt
  fromWord_toWord x := by
    simp [BitVec.setWidth_setWidth_of_le x (by omega : n * 8 ≤ 256)]

instance : FromWord U8 := unsigned 1 Nat.one_pos (by decide)
instance : FromWord U64 := unsigned 8 (by decide) (by decide)
instance : FromWord U256 := unsigned 32 (by decide) (by decide)
instance : FromWord Address := fixedBytes 20 (by decide) (by decide)

instance : FromWord Bool where
  bytes := 1
  toWord b := if b then 1 else 0
  fromWord word := .ok (word ≠ 0)
  bytes_pos := Nat.one_pos
  bytes_le := by decide
  toWord_lt b := by cases b <;> decide
  fromWord_toWord b := by cases b <;> rfl

theorem createElementMask_eq (byteCount : Nat) :
    createElementMask byteCount = lowMask 256 (byteCount * 8) := by
  unfold createElementMask lowMask
  by_cases h : 32 ≤ byteCount
  · rw [if_pos h, if_pos (by omega)]
    rfl
  · rw [if_neg h, if_neg (by omega)]

section Lanes
variable {T : Type} [FromWord T] {offset : Nat}

theorem extractFromWord_eq (word : U256) (h : offset + bytes T ≤ 32) :
    extractFromWord word offset (bytes T) =
      (fromWord (lane word (offset * 8) (bytes T * 8)) : Except _ T) := by
  simp [extractFromWord, reject, Nat.not_lt.mpr h, createElementMask_eq, lane]

theorem insertIntoWord_eq (word : U256) (x : T) (h : offset + bytes T ≤ 32) :
    insertIntoWord word x offset (bytes T) =
      .ok (setLane word (toWord x) (offset * 8) (bytes T * 8)) := by
  simp [insertIntoWord, reject, Nat.not_lt.mpr h, createElementMask_eq, setLane, clearLane]

/-- What a packed load reads, for a value small enough to be packed. -/
theorem loadWord_packed (word : U256) (hb : bytes T < 32) (h : offset + bytes T ≤ 32) :
    loadWord word (.packed offset) =
      (fromWord (lane word (offset * 8) (bytes T * 8)) : Except _ T) := by
  rw [loadWord, if_pos hb]
  exact extractFromWord_eq word h

theorem storeWord_packed (word : U256) (x : T) (hb : bytes T < 32) (h : offset + bytes T ≤ 32) :
    storeWord word x (.packed offset) =
      .ok (setLane word (toWord x) (offset * 8) (bytes T * 8)) := by
  rw [storeWord, if_pos hb]
  exact insertIntoWord_eq word x h

/-- One packed write: its own lane reads back, every other lane is as before. -/
theorem storeWord_spec (word : U256) (x : T) (offset : Nat) (hb : bytes T < 32)
    (h : offset + bytes T ≤ 32) :
    ∃ word', storeWord word x (.packed offset) = .ok word' ∧
      (loadWord word' (.packed offset) : Except _ T) = .ok x ∧
      ∀ (U : Type) [FromWord U] (offset' : Nat), bytes U < 32 → offset' + bytes U ≤ 32 →
        offset + bytes T ≤ offset' ∨ offset' + bytes U ≤ offset →
        (loadWord word' (.packed offset') : Except _ U) = loadWord word (.packed offset') := by
  refine ⟨_, storeWord_packed word x hb h, ?_, ?_⟩
  · rw [loadWord_packed _ hb h, lane_setLane word (by omega) (FromWord.toWord_lt x),
      FromWord.fromWord_toWord]
  · intro U _ offset' hb' h' hd
    rw [loadWord_packed _ hb' h', loadWord_packed _ hb' h',
      lane_setLane_of_disjoint _ _ (by omega) (by omega)]

theorem loadWord_full (word : U256) : loadWord word .full = (fromWord word : Except _ T) := by
  unfold loadWord
  split <;> rfl

theorem storeWord_full (word : U256) (x : T) {ctx : LayoutCtx} (h : ctx.packedOffset = none) :
    storeWord word x ctx = .ok (toWord x) := by
  unfold storeWord
  rw [h]
  split <;> rfl

end Lanes
end SciChain.RawStorage
