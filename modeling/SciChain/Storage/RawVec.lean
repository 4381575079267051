import SciChain.Library.Loop
import SciChain.Storage.Packing

/-!
`Vec<T>` in raw storage: the length in its slot, the elements from
`keccak256(len_slot)` on.
-/

namespace SciChain.RawStorage
open Library

/-- A type of whole slots: a struct, an array or a dynamic type. The methods see
only the slots of `footprint`, and work wherever the slots hold what an earlier
value may have left (`Ready`). -/
structure SlotType (T : Type) where
  slots : Nat
  load : Slots → U256 → Result T
  store : TempoHardfork → T → Slots → U256 → LayoutCtx → Result Slots
  delete : Slots → U256 → Result Slots
  footprint : U256 → Set U256
  Ready : Slots → U256 → Prop
  slots_pos : 0 < slots
  load_local : ∀ {s s' : Slots} {slot}, (∀ a ∈ footprint slot, s a = s' a) →
    load s slot = load s' slot
  ready_local : ∀ {s s' : Slots} {slot}, (∀ a ∈ footprint slot, s a = s' a) →
    Ready s slot → Ready s' slot
  store_ok : ∀ (spec : TempoHardfork) (x : T) {s : Slots} {slot : U256} {ctx : LayoutCtx},
    ctx.packedOffset = none → Ready s slot →
    ∃ s', store spec x s slot ctx = .ok s' ∧ load s' slot = .ok x ∧ Ready s' slot ∧
      ∀ a ∉ footprint slot, s' a = s a
  delete_ok : ∀ {s : Slots} {slot : U256}, Ready s slot →
    ∃ s', delete s slot = .ok s' ∧ Ready s' slot ∧ ∀ a ∉ footprint slot, s' a = s a

/-- A single-word type with a slot of its own. -/
def FromWord.slotType {T : Type} (w : FromWord T) : SlotType T where
  slots := 1
  load s slot := loadWord (s slot) .full
  store _ x s slot ctx := do
    let word ← storeWord (s slot) x ctx
    pure (Function.update s slot word)
  delete s slot := pure (Function.update s slot 0)
  footprint slot := {slot}
  Ready _ _ := True
  slots_pos := Nat.one_pos
  load_local h := by rw [h _ rfl]
  ready_local _ h := h
  store_ok _ x {s slot ctx} h _ := by
    refine ⟨Function.update s slot (toWord x), ?_, ?_, trivial, ?_⟩
    · rw [storeWord_full (s slot) x h]
      rfl
    · rw [Function.update_self, loadWord_full, FromWord.fromWord_toWord]
    · exact fun a ha => Function.update_of_ne ha _ _
  delete_ok {s slot} _ := ⟨_, rfl, trivial, fun a ha => Function.update_of_ne ha _ _⟩

theorem add_ofNat_ne {d : U256} {i j : Nat} (hi : i < 2 ^ 32) (hj : j < 2 ^ 32) (h : i ≠ j) :
    d + BitVec.ofNat 256 i ≠ d + BitVec.ofNat 256 j := by
  intro heq
  have hval := congrArg BitVec.toNat (BitVec.add_right_inj d |>.mp heq)
  rw [BitVec.toNat_ofNat, BitVec.toNat_ofNat, Nat.mod_eq_of_lt (by omega),
    Nat.mod_eq_of_lt (by omega)] at hval
  exact h hval

theorem writeWords_ok (slot : U256) (xs : List U256) (hlen : xs.length < 2 ^ 32) (s : Slots) :
    ∃ s', forEnum xs (fun s x i => (.ok (Function.update s (slot + BitVec.ofNat 256 i) x) :
        Result Slots)) s = .ok s' ∧
      (∀ (i : Nat) (x : U256), xs[i]? = some x → s' (slot + BitVec.ofNat 256 i) = x) ∧
      ∀ a, (∀ i < xs.length, a ≠ slot + BitVec.ofNat 256 i) → s' a = s a := by
  have hloop := forEnum_ok (ε := TempoPrecompileError)
    (P := fun k (t : Slots) => (∀ (i : Nat) (x : U256), i < k → xs[i]? = some x →
        t (slot + BitVec.ofNat 256 i) = x) ∧
      ∀ a, (∀ i < xs.length, a ≠ slot + BitVec.ofNat 256 i) → t a = s a)
    ⟨fun i x hi => by omega, fun _ _ => rfl⟩ (fun k x t hx ⟨hwords, hframe⟩ => by
      have hk : k < xs.length := (List.getElem?_eq_some_iff.mp hx).1
      refine ⟨Function.update t (slot + BitVec.ofNat 256 k) x, rfl, fun i y hi hy => ?_,
        fun a ha => ?_⟩
      · by_cases hik : i = k
        · subst hik
          rw [hx] at hy
          cases hy
          exact Function.update_self _ _ _
        · rw [Function.update_of_ne (add_ofNat_ne (by omega) (by omega) hik)]
          exact hwords i y (by omega) hy
      · rw [Function.update_of_ne (ha k hk)]
        exact hframe a ha)
  obtain ⟨s', hs', hwords, hframe⟩ := hloop
  exact ⟨s', hs', fun i x hx => hwords i x (List.getElem?_eq_some_iff.mp hx).1 hx, hframe⟩

theorem zeroWords_ok (slot : U256) (n : Nat) (s : Slots) :
    ∃ s', forRange 0 n (fun s i => (.ok (Function.update s (slot + BitVec.ofNat 256 i) 0) :
        Result Slots)) s = .ok s' ∧
      ∀ a, (∀ i < n, a ≠ slot + BitVec.ofNat 256 i) → s' a = s a := by
  refine forRange_ok
    (P := fun _ (t : Slots) => ∀ a, (∀ i < n, a ≠ slot + BitVec.ofNat 256 i) → t a = s a)
    (Nat.zero_le n) (fun _ _ => rfl) ?_
  intro k t _ hk hframe
  refine ⟨_, rfl, fun a ha => ?_⟩
  rw [Function.update_of_ne (ha k hk)]
  exact hframe a ha

/-- An array `[U256; n]`: its words one behind the other. -/
def wordArray (n : Nat) (hpos : 0 < n) (hlt : n < 2 ^ 32) :
    SlotType {xs : List U256 // xs.length = n} where
  slots := n
  load s slot := .ok ⟨(List.range n).map fun i => s (slot + BitVec.ofNat 256 i), by simp⟩
  store _ xs s slot _ :=
    forEnum xs.1 (fun s x i => .ok (Function.update s (slot + BitVec.ofNat 256 i) x)) s
  delete s slot :=
    forRange 0 n (fun s i => .ok (Function.update s (slot + BitVec.ofNat 256 i) 0)) s
  footprint slot := {a | ∃ i < n, a = slot + BitVec.ofNat 256 i}
  Ready _ _ := True
  slots_pos := hpos
  load_local h := by
    congr 2
    apply List.map_congr_left
    intro i hi
    exact h _ ⟨i, List.mem_range.mp hi, rfl⟩
  ready_local _ h := h
  store_ok _ xs {s slot ctx} _ _ := by
    obtain ⟨s', hs', hwords, hframe⟩ := writeWords_ok slot xs.1 (by omega) s
    rw [xs.2] at hframe
    refine ⟨s', hs', ?_, trivial, fun a ha => hframe a fun i hi heq => ha ⟨i, hi, heq⟩⟩
    congr 2
    apply List.ext_getElem (by simp [xs.2])
    intro i _ hi
    rw [List.getElem_map, List.getElem_range]
    exact hwords i _ (List.getElem?_eq_getElem hi)
  delete_ok {s slot} _ := by
    obtain ⟨s', hs', hframe⟩ := zeroWords_ok slot n s
    exact ⟨s', hs', trivial, fun a ha => hframe a fun i hi heq => ha ⟨i, hi, heq⟩⟩

/-- An element type with its layout: `Layout::Bytes` or `Layout::Slots`. -/
inductive Storable (T : Type) where
  | word (w : FromWord T)
  | wide (w : SlotType T)

namespace Storable
variable {T : Type}

def bytes : Storable T → Nat
  | word w => w.bytes
  | wide w => w.slots * 32

def slotType : Storable T → SlotType T
  | word w => w.slotType
  | wide w => w

def slots (E : Storable T) : Nat := E.slotType.slots

/-- The test `T::BYTES <= 16`: only single-word types are that small. -/
def packed : Storable T → Option (FromWord T)
  | word w => if w.bytes ≤ 16 then some w else none
  | wide _ => none

def maxIndex (E : Storable T) : Nat :=
  if E.bytes ≤ 16 then (2 ^ 32 - 1) / E.bytes else (2 ^ 32 - 1) / E.slots

end Storable

def calcDataSlot (keccak256 : Bytes → B256) (lenSlot : U256) : U256 :=
  keccak256 (beBytes 32 lenSlot.toNat)

def loadCheckedLen (storage : Slots) (slot : U256) : Result Nat := do
  let raw := storage slot
  reject (2 ^ 32 - 1 < raw.toNat) (.panic .underOverflow)
  pure raw.toNat

namespace Vec
variable {T : Type}

section Packed
variable [FromWord T]

/-- The inner loop of `load_packed_elements`: `count` elements of one word. -/
def loadLanes (slotPacked : U256) (byteCount : Nat) :
    Nat → Nat → Result (List T)
  | 0, _ => pure []
  | count + 1, currentOffset => do
    let elem ← loadWord slotPacked (.packed currentOffset)
    let next := currentOffset + byteCount
    let rest ← loadLanes slotPacked byteCount count (if 32 ≤ next then 0 else next)
    pure (elem :: rest)

def loadPackedElements (storage : Slots) (dataStart : U256) (length byteCount : Nat) :
    Result (List T) :=
  let elementsPerSlot := 32 / byteCount
  let slotCount := calcPackedSlotCount length byteCount
  forRange 0 slotCount (fun result slotIdx => do
    let slotValue := storage (dataStart + BitVec.ofNat 256 slotIdx)
    let elementsInThisSlot :=
      if slotIdx = slotCount - 1 then length - slotIdx * elementsPerSlot else elementsPerSlot
    let elems ← loadLanes slotValue byteCount elementsInThisSlot 0
    pure (result ++ elems)) []

/-- The loop of `build_packed_slot`. -/
def buildLanes (byteCount : Nat) : List T → U256 → Nat → Result U256
  | [], slotValue, _ => pure slotValue
  | elem :: elements, slotValue, currentOffset => do
    let slotValue ← storeWord slotValue elem (.packed currentOffset)
    buildLanes byteCount elements slotValue (currentOffset + byteCount)

def buildPackedSlot (elements : List T) (byteCount : Nat) : Result U256 :=
  buildLanes byteCount elements 0 0

def storePackedElements (elements : List T) (storage : Slots) (dataStart : U256) :
    Result Slots :=
  let elementsPerSlot := 32 / bytes T
  let slotCount := calcPackedSlotCount elements.length (bytes T)
  forRange 0 slotCount (fun storage slotIdx => do
    let startElem := slotIdx * elementsPerSlot
    let endElem := min (startElem + elementsPerSlot) elements.length
    let slotValue ← buildPackedSlot ((elements.take endElem).drop startElem) (bytes T)
    pure (Function.update storage (dataStart + BitVec.ofNat 256 slotIdx) slotValue)) storage

end Packed

section Unpacked
variable (w : SlotType T)

def elemSlot (dataStart : U256) (index : Nat) : U256 :=
  dataStart + BitVec.ofNat 256 (index * w.slots)

def loadUnpackedElements (storage : Slots) (dataStart : U256) (length : Nat) :
    Result (List T) :=
  forRange 0 length (fun result index => do
    let elem ← w.load storage (elemSlot w dataStart index)
    pure (result ++ [elem])) []

def storeUnpackedElements (spec : TempoHardfork) (elements : List T) (storage : Slots)
    (dataStart : U256) : Result Slots :=
  forEnum elements (fun storage elem index =>
    w.store spec elem storage (elemSlot w dataStart index) .full) storage

end Unpacked

variable (E : Storable T) (keccak256 : Bytes → B256)

def clearElements (storage : Slots) (dataStart : U256) (lo hi : Nat) :
    Result Slots :=
  if hi ≤ lo then pure storage else
  match E.packed with
  | some w =>
    forRange (calcPackedSlotCount lo w.bytes) (calcPackedSlotCount hi w.bytes)
      (fun storage slotIdx =>
        pure (Function.update storage (dataStart + BitVec.ofNat 256 slotIdx) 0)) storage
  | none =>
    forRange lo hi (fun storage index =>
      E.slotType.delete storage (elemSlot E.slotType dataStart index)) storage

def load (storage : Slots) (lenSlot : U256) : Result (List T) := do
  let length ← loadCheckedLen storage lenSlot
  if length = 0 then pure [] else
  let dataStart := calcDataSlot keccak256 lenSlot
  match E.packed with
  | some w => loadPackedElements storage dataStart length w.bytes
  | none => loadUnpackedElements E.slotType storage dataStart length

/-- From T5 on the slots of a longer previous value are cleared first. -/
def cleanTail (spec : TempoHardfork) (newLen : Nat) (storage : Slots) (lenSlot : U256)
    (ctx : LayoutCtx) : Result Slots :=
  if !ctx.skipTailCleanup && spec.isT5 then do
    let prevLen ← loadCheckedLen storage lenSlot
    if newLen < prevLen then
      clearElements E storage (calcDataSlot keccak256 lenSlot) newLen prevLen
    else pure storage
  else pure storage

def store (spec : TempoHardfork) (xs : List T) (storage : Slots) (lenSlot : U256)
    (ctx : LayoutCtx) : Result Slots := do
  let dataStart := calcDataSlot keccak256 lenSlot
  let storage ← cleanTail E keccak256 spec xs.length storage lenSlot ctx
  let storage := Function.update storage lenSlot (BitVec.ofNat 256 xs.length)
  if xs.isEmpty then pure storage else
  match E.packed with
  | some _ => storePackedElements xs storage dataStart
  | none => storeUnpackedElements E.slotType spec xs storage dataStart

/-- `read` of the handler that `compute_handler` makes for an index. -/
def readAt (storage : Slots) (lenSlot : U256) (index : Nat) : Result T :=
  let dataStart := calcDataSlot keccak256 lenSlot
  match E.packed with
  | some w =>
    let location := calcElementLoc index w.bytes
    loadWord (storage (dataStart + BitVec.ofNat 256 location.offsetSlots))
      (.packed location.offsetBytes)
  | none => E.slotType.load storage (elemSlot E.slotType dataStart index)

def push (spec : TempoHardfork) (storage : Slots) (lenSlot : U256) (value : T) :
    Result Slots := do
  let length ← loadCheckedLen storage lenSlot
  reject (E.maxIndex ≤ length) (.fatal "Vec is at max capacity")
  let dataStart := calcDataSlot keccak256 lenSlot
  let storage ← (match E.packed with
    | some w => do
      let location := calcElementLoc length w.bytes
      let slot := dataStart + BitVec.ofNat 256 location.offsetSlots
      let word ← storeWord (storage slot) value (.packed location.offsetBytes)
      pure (Function.update storage slot word)
    | none => E.slotType.store spec value storage (elemSlot E.slotType dataStart length) .init)
  pure (Function.update storage lenSlot (BitVec.ofNat 256 (length + 1)))

end Vec
end SciChain.RawStorage
