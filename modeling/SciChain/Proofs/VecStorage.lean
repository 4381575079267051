import Mathlib.Order.CompletePartialOrder
import SciChain.Proofs.ByteStrings

namespace SciChain.RawStorage
open Library

namespace Vec
variable {T : Type}

section Packed
variable [FromWord T]

theorem lanes_apart (b : Nat) (h : k ≠ k') : k * b + b ≤ k' * b ∨ k' * b + b ≤ k * b := by
  rcases Nat.lt_or_gt_of_ne h with hlt | hgt
  · left
    rw [← Nat.succ_mul]
    exact Nat.mul_le_mul_right b hlt
  · right
    rw [← Nat.succ_mul]
    exact Nat.mul_le_mul_right b hgt

/-- A packed word holds the elements it was built from, behind the lanes that
were there. -/
theorem buildLanes_ok (hb : bytes T < 32) (elements : List T) (word : U256) (before : Nat)
    (h : (before + elements.length) * bytes T ≤ 32) :
    ∃ word', buildLanes (bytes T) elements word (before * bytes T) = .ok word' ∧
      (∀ k x, elements[k]? = some x → loadWord word' (.packed ((before + k) * bytes T)) = .ok x) ∧
      ∀ k < before, (loadWord word' (.packed (k * bytes T)) : Except _ T) =
        loadWord word (.packed (k * bytes T)) := by
  induction elements generalizing word before with
  | nil => exact ⟨word, rfl, by simp, fun _ _ => rfl⟩
  | cons elem elements ih =>
    rw [List.length_cons, ← Nat.add_assoc, Nat.add_right_comm] at h
    have hfit : before * bytes T + bytes T ≤ 32 := by
      rw [← Nat.succ_mul]
      exact Nat.le_trans (Nat.mul_le_mul_right _ (by omega)) h
    obtain ⟨w, hw, hself, hother⟩ := storeWord_spec word elem (before * bytes T) hb hfit
    obtain ⟨word', hbuild, hnew, hold⟩ := ih w (before + 1) h
    rw [Nat.succ_mul] at hbuild
    refine ⟨word', by rw [buildLanes, hw]; exact hbuild, ?_, ?_⟩
    · intro k x hx
      cases k with
      | zero =>
        cases hx
        exact (hold before (Nat.lt_succ_self before)).trans hself
      | succ k =>
        rw [← Nat.add_assoc, Nat.add_right_comm]
        exact hnew k x hx
    · intro k hk
      rw [hold k (by omega)]
      have hlane : k * bytes T + bytes T ≤ before * bytes T := by
        rw [← Nat.succ_mul]
        exact Nat.mul_le_mul_right _ hk
      exact hother T _ hb (by omega) (Or.inr hlane)

theorem loadLanes_ok {xs : List T} (word : U256) (h : (before + xs.length) * bytes T ≤ 32)
    (hx : ∀ k x, xs[k]? = some x → loadWord word (.packed ((before + k) * bytes T)) = .ok x) :
    loadLanes word (bytes T) xs.length (before * bytes T) = .ok xs := by
  induction xs generalizing before with
  | nil => rfl
  | cons x xs ih =>
    have hhead : loadWord word (.packed (before * bytes T)) = .ok x := hx 0 x rfl
    have htail : ∀ k y, xs[k]? = some y →
        loadWord word (.packed ((before + 1 + k) * bytes T)) = .ok y := fun k y hy => by
      have hk := hx (k + 1) y hy
      rwa [← Nat.add_assoc, Nat.add_right_comm] at hk
    rw [List.length_cons, ← Nat.add_assoc, Nat.add_right_comm] at h
    rw [List.length_cons, loadLanes, hhead]
    cases xs with
    | nil => rfl
    | cons y ys =>
      -- Another lane follows, so the offset has not reached the end of the word.
      have hpos := FromWord.bytes_pos (T := T)
      have hle : (before + 1 + 1) * bytes T ≤ 32 :=
        Nat.le_trans (Nat.mul_le_mul_right _ (by simp)) h
      have hlt : ¬ 32 ≤ before * bytes T + bytes T := by
        rw [Nat.succ_mul, Nat.succ_mul] at hle
        omega
      have hrest := ih h htail
      rw [Nat.succ_mul] at hrest
      simp only [hlt, if_false, hrest, bind_value, pure_eq]

theorem element_place (hk : k < per) (b : Nat) (hper : 32 / b = per) :
    calcElementSlot (m * per + k) b = m ∧ calcElementOffset (m * per + k) b = k * b := by
  have hpos : 0 < per := by omega
  unfold calcElementSlot calcElementOffset
  rw [hper, Nat.add_comm, Nat.add_mul_div_right _ _ hpos, Nat.div_eq_of_lt hk, Nat.zero_add,
    Nat.add_mul_mod_self_right, Nat.mod_eq_of_lt hk]
  exact ⟨rfl, rfl⟩

theorem slotCount_lt (hpos : 0 < 32 / b) (h : m < calcPackedSlotCount n b) : m * (32 / b) < n := by
  have hle := (Nat.le_div_iff_mul_le hpos).mp h
  rw [Nat.succ_mul] at hle
  omega

theorem le_slotCount_mul (n : Nat) (hpos : 0 < 32 / b) :
    n ≤ calcPackedSlotCount n b * (32 / b) := by
  have hdiv := Nat.div_add_mod (n + 32 / b - 1) (32 / b)
  have hmod := Nat.mod_lt (n + 32 / b - 1) hpos
  rw [calcPackedSlotCount, Nat.mul_comm]
  omega

/-- The lane of element `i`, as the element handler reads it. -/
def laneAt (s : Slots) (d : U256) (i : Nat) : Result T :=
  loadWord (s (d + BitVec.ofNat 256 (calcElementSlot i (bytes T))))
    (.packed (calcElementOffset i (bytes T)))

/-- The elements of the first `m` slots are in place, and only slots of elements
have changed. -/
structure Placed (xs : List T) (s : Slots) (d : U256) (m : Nat) (t : Slots) : Prop where
  read : ∀ i x, i < m * (32 / bytes T) → xs[i]? = some x → laneAt t d i = .ok x
  frame : ∀ a, (∀ i < xs.length, a ≠ d + BitVec.ofNat 256 (calcElementSlot i (bytes T))) →
    t a = s a

section Small
variable (hb : bytes T ≤ 16)
include hb

theorem perSlot_pos : 0 < 32 / bytes T := Nat.div_pos (by omega) FromWord.bytes_pos

omit hb in
theorem lanes_fit (h : n ≤ 32 / bytes T) : (0 + n) * bytes T ≤ 32 := by
  rw [Nat.zero_add]
  exact Nat.le_trans (Nat.mul_le_mul_right _ h) (Nat.div_mul_le_self 32 _)

theorem buildPackedSlot_ok (chunk : List T) (h : chunk.length ≤ 32 / bytes T) :
    ∃ word, buildPackedSlot chunk (bytes T) = .ok word ∧
      ∀ k x, chunk[k]? = some x → loadWord word (.packed (k * bytes T)) = .ok x := by
  obtain ⟨word, hw, hnew, -⟩ := buildLanes_ok (by omega) chunk 0 0 (lanes_fit h)
  rw [Nat.zero_mul] at hw
  refine ⟨word, hw, fun k x hx => ?_⟩
  have hk := hnew k x hx
  rwa [Nat.zero_add] at hk

theorem storeSlot_ok {xs : List T} (hlen : xs.length < 2 ^ 32)
    (hm : m * (32 / bytes T) < xs.length)
    (hread : ∀ i x, i < m * (32 / bytes T) → xs[i]? = some x → laneAt t d i = .ok x) :
    ∃ word, buildPackedSlot ((xs.take (min (m * (32 / bytes T) + 32 / bytes T) xs.length)).drop
        (m * (32 / bytes T))) (bytes T) = .ok word ∧
      ∀ i x, i < (m + 1) * (32 / bytes T) → xs[i]? = some x →
        laneAt (Function.update t (d + BitVec.ofNat 256 m) word) d i = .ok x := by
  have hpos := perSlot_pos hb
  generalize hper : 32 / bytes T = per at *
  obtain ⟨word, hw, hlanes⟩ := buildPackedSlot_ok hb
    ((xs.take (min (m * per + per) xs.length)).drop (m * per)) (by simp; omega)
  refine ⟨word, hw, fun i x hi hx => ?_⟩
  have hin : i < xs.length := (List.getElem?_eq_some_iff.mp hx).1
  by_cases hlow : i < m * per
  · -- An element of an earlier slot.
    have hslot : calcElementSlot i (bytes T) < m := by
      rw [calcElementSlot, hper]
      exact (Nat.div_lt_iff_lt_mul hpos).mpr hlow
    have hmlt : m < 2 ^ 32 :=
      Nat.lt_of_le_of_lt (Nat.le_mul_of_pos_right m hpos) (Nat.lt_trans hm hlen)
    rw [laneAt, Function.update_of_ne (add_ofNat_ne (by omega) hmlt (by omega))]
    exact hread i x hlow hx
  · obtain ⟨k, rfl⟩ : ∃ k, i = m * per + k := ⟨i - m * per, by omega⟩
    have hk : k < per := by
      rw [Nat.succ_mul] at hi
      omega
    obtain ⟨hslot, hoff⟩ := element_place (m := m) hk (bytes T) hper
    rw [laneAt, hslot, hoff, Function.update_self]
    apply hlanes k x
    rw [List.getElem?_drop, List.getElem?_take_of_lt (by omega), hx]

theorem storePackedElements_ok (xs : List T) (s : Slots) (d : U256) (hlen : xs.length < 2 ^ 32) :
    ∃ s', storePackedElements xs s d = .ok s' ∧
      (∀ i x, xs[i]? = some x → laneAt s' d i = .ok x) ∧
      ∀ a, (∀ i < xs.length, a ≠ d + BitVec.ofNat 256 (calcElementSlot i (bytes T))) →
        s' a = s a := by
  have hpos := perSlot_pos hb
  have hloop : ∃ s', storePackedElements xs s d = .ok s' ∧
      Placed xs s d (calcPackedSlotCount xs.length (bytes T)) s' := by
    refine forRange_ok (Nat.zero_le _) ⟨fun i x hi => by omega, fun _ _ => rfl⟩ ?_
    intro m t _ hm hP
    have hlt := slotCount_lt hpos hm
    obtain ⟨word, hw, hnew⟩ := storeSlot_ok hb hlen hlt hP.read
    refine ⟨Function.update t (d + BitVec.ofNat 256 m) word, ?_, hnew, ?_⟩
    · simp [hw]
    · intro a ha
      have hplace := (element_place (m := m) hpos (bytes T) rfl).1
      have hne := ha _ hlt
      rw [Nat.add_zero] at hplace
      rw [hplace] at hne
      rw [Function.update_of_ne hne]
      exact hP.frame a ha
  obtain ⟨s', hs', hP⟩ := hloop
  refine ⟨s', hs', fun i x hx => hP.read i x ?_ hx, hP.frame⟩
  have hin : i < xs.length := (List.getElem?_eq_some_iff.mp hx).1
  exact Nat.lt_of_lt_of_le hin (le_slotCount_mul xs.length hpos)

theorem loadSlot_ok {xs : List T} (hm : m < calcPackedSlotCount xs.length (bytes T))
    (hread : ∀ i x, xs[i]? = some x → laneAt s d i = .ok x) :
    loadLanes (s (d + BitVec.ofNat 256 m)) (bytes T)
      (if m = calcPackedSlotCount xs.length (bytes T) - 1 then
        xs.length - m * (32 / bytes T) else 32 / bytes T) 0 =
      .ok ((xs.drop (m * (32 / bytes T))).take (32 / bytes T)) := by
  have hpos := perSlot_pos hb
  have hall := le_slotCount_mul xs.length hpos
  have hcount : ((xs.drop (m * (32 / bytes T))).take (32 / bytes T)).length =
      if m = calcPackedSlotCount xs.length (bytes T) - 1 then
        xs.length - m * (32 / bytes T) else 32 / bytes T := by
    rw [List.length_take, List.length_drop]
    split
    next hlast =>
      rw [show calcPackedSlotCount xs.length (bytes T) = m + 1 by omega, Nat.succ_mul] at hall
      omega
    next hlast =>
      have hnext := slotCount_lt (n := xs.length) (m := m + 1) hpos (by omega)
      rw [Nat.succ_mul] at hnext
      omega
  rw [← hcount]
  have hfit := lanes_fit (List.length_take_le (32 / bytes T) (xs.drop (m * (32 / bytes T))))
  have hload := loadLanes_ok (s (d + BitVec.ofNat 256 m)) hfit (fun k x hx => by
    have hk : k < 32 / bytes T := by
      have := (List.getElem?_eq_some_iff.mp hx).1
      rw [List.length_take] at this
      omega
    rw [List.getElem?_take_of_lt hk, List.getElem?_drop] at hx
    have hlane := hread _ x hx
    obtain ⟨hslot, hoff⟩ := element_place (m := m) hk (bytes T) rfl
    rw [laneAt, hslot, hoff] at hlane
    rwa [Nat.zero_add])
  rwa [Nat.zero_mul] at hload

theorem loadPackedElements_ok {xs : List T}
    (hread : ∀ i x, xs[i]? = some x → laneAt s d i = .ok x) :
    loadPackedElements s d xs.length (bytes T) = .ok xs := by
  have hpos := perSlot_pos hb
  have hloop : ∃ result, loadPackedElements s d xs.length (bytes T) = .ok result ∧
      result = xs.take (calcPackedSlotCount xs.length (bytes T) * (32 / bytes T)) := by
    refine forRange_ok (P := fun m result => result = xs.take (m * (32 / bytes T)))
      (Nat.zero_le _) (by simp) ?_
    intro m result _ hm hr
    refine ⟨_, congrArg (· >>= fun elems => pure (result ++ elems)) (loadSlot_ok hb hm hread), ?_⟩
    rw [hr, Nat.succ_mul, List.take_add]
  obtain ⟨result, hres, htake⟩ := hloop
  rw [hres, htake, List.take_of_length_le (le_slotCount_mul xs.length hpos)]

theorem offset_fits (i : Nat) : calcElementOffset i (bytes T) + bytes T ≤ 32 := by
  rw [calcElementOffset, ← Nat.succ_mul]
  exact Nat.le_trans (Nat.mul_le_mul_right _ (Nat.mod_lt i (perSlot_pos hb)))
    (Nat.div_mul_le_self 32 _)

omit hb in
theorem offsets_apart (h : i ≠ j)
    (hslot : calcElementSlot i (bytes T) = calcElementSlot j (bytes T)) :
    calcElementOffset i (bytes T) + bytes T ≤ calcElementOffset j (bytes T) ∨
      calcElementOffset j (bytes T) + bytes T ≤ calcElementOffset i (bytes T) := by
  apply lanes_apart
  intro hmod
  apply h
  rw [← Nat.div_add_mod i (32 / bytes T), ← Nat.div_add_mod j (32 / bytes T), hmod]
  exact congrArg (32 / bytes T * · + _) hslot

theorem pushLane_ok (s : Slots) (d : U256) (hn : n < 2 ^ 32) (x : T) :
    ∃ word, storeWord (s (d + BitVec.ofNat 256 (calcElementSlot n (bytes T)))) x
        (.packed (calcElementOffset n (bytes T))) = .ok word ∧
      (∀ i < n, (laneAt (Function.update s
        (d + BitVec.ofNat 256 (calcElementSlot n (bytes T))) word) d i : Except _ T) =
          laneAt s d i) ∧
      laneAt (Function.update s
        (d + BitVec.ofNat 256 (calcElementSlot n (bytes T))) word) d n = .ok x := by
  have hb' : bytes T < 32 := by omega
  obtain ⟨word, hword, hself, hother⟩ :=
    storeWord_spec (s (d + BitVec.ofNat 256 (calcElementSlot n (bytes T)))) x
      (calcElementOffset n (bytes T)) hb' (offset_fits hb n)
  refine ⟨word, hword, fun i hi => ?_, ?_⟩
  · by_cases hslot : calcElementSlot i (bytes T) = calcElementSlot n (bytes T)
    · rw [laneAt, laneAt, hslot, Function.update_self]
      exact hother T _ hb' (offset_fits hb i) (offsets_apart (by omega) hslot.symm)
    · have hi' : calcElementSlot i (bytes T) ≤ i := Nat.div_le_self _ _
      have hn' : calcElementSlot n (bytes T) ≤ n := Nat.div_le_self _ _
      rw [laneAt, laneAt, Function.update_of_ne (add_ofNat_ne (by omega) (by omega) hslot)]
  · rw [laneAt, Function.update_self]
    exact hself

end Small
end Packed

theorem zeroSlots_ok (h : lo ≤ hi) (d : U256) (s : Slots) :
    ∃ s', forRange lo hi (fun storage slotIdx => (.ok (Function.update storage
      (d + BitVec.ofNat 256 slotIdx) 0) : Result Slots)) s = .ok s' := by
  obtain ⟨s', hs', -⟩ := forRange_ok (P := fun _ _ => True) h trivial
    fun _ _ _ _ _ => ⟨_, rfl, trivial⟩
  exact ⟨s', hs'⟩

section Unpacked
variable {w : SlotType T} {d : U256} {n : Nat}

/-- The slots of the first `n` elements do not meet, and all hold something the
element type accepts. -/
structure Spread (w : SlotType T) (d : U256) (n : Nat) (s : Slots) : Prop where
  apart : ∀ i j, i < n → j < n → i ≠ j →
    Disjoint (w.footprint (elemSlot w d i)) (w.footprint (elemSlot w d j))
  ready : ∀ i < n, w.Ready s (elemSlot w d i)

theorem Spread.step (h : Spread w d n s) (hj : j < n) (hready : w.Ready s' (elemSlot w d j))
    (hframe : ∀ a ∉ w.footprint (elemSlot w d j), s' a = s a) :
    Spread w d n s' ∧ ∀ i < n, i ≠ j → w.load s' (elemSlot w d i) = w.load s (elemSlot w d i) := by
  have hsame : ∀ i < n, i ≠ j → ∀ a ∈ w.footprint (elemSlot w d i), s a = s' a := by
    intro i hi hne a ha
    exact (hframe a (Set.disjoint_left.mp (h.apart i j hi hj hne) ha)).symm
  refine ⟨⟨h.apart, fun i hi => ?_⟩, fun i hi hne => (w.load_local (hsame i hi hne)).symm⟩
  by_cases hne : i = j
  · rw [hne]
    exact hready
  · exact w.ready_local (hsame i hi hne) (h.ready i hi)

theorem storeUnpackedElements_ok (spec : TempoHardfork) (h : Spread w d n s)
    (hlen : xs.length ≤ n) :
    ∃ s', storeUnpackedElements w spec xs s d = .ok s' ∧ Spread w d n s' ∧
      (∀ i x, xs[i]? = some x → w.load s' (elemSlot w d i) = .ok x) ∧
      ∀ a, (∀ i < n, a ∉ w.footprint (elemSlot w d i)) → s' a = s a := by
  have hloop : ∃ s', storeUnpackedElements w spec xs s d = .ok s' ∧ Spread w d n s' ∧
      (∀ i x, i < xs.length → xs[i]? = some x → w.load s' (elemSlot w d i) = .ok x) ∧
      ∀ a, (∀ i < n, a ∉ w.footprint (elemSlot w d i)) → s' a = s a := by
    refine forEnum_ok (P := fun k t => Spread w d n t ∧
      (∀ i x, i < k → xs[i]? = some x → w.load t (elemSlot w d i) = .ok x) ∧
      ∀ a, (∀ i < n, a ∉ w.footprint (elemSlot w d i)) → t a = s a)
      ⟨h, fun i x hi => by omega, fun _ _ => rfl⟩ ?_
    intro k x t hx ⟨ht, hread, hframe⟩
    have hk : k < n := Nat.lt_of_lt_of_le (List.getElem?_eq_some_iff.mp hx).1 hlen
    obtain ⟨t', hstore, hload, hready, hout⟩ :=
      w.store_ok spec x (show LayoutCtx.full.packedOffset = none from rfl) (ht.ready k hk)
    obtain ⟨ht', hsame⟩ := ht.step hk hready hout
    refine ⟨t', hstore, ht', ?_, fun a ha => (hout a (ha k hk)).trans (hframe a ha)⟩
    intro i y hi hy
    by_cases hik : i = k
    · subst hik
      rw [hx] at hy
      cases hy
      exact hload
    · rw [hsame i (by omega) hik]
      exact hread i y (by omega) hy
  obtain ⟨s', hs', hsp, hread, hframe⟩ := hloop
  exact ⟨s', hs', hsp, fun i x hx => hread i x (List.getElem?_eq_some_iff.mp hx).1 hx, hframe⟩

theorem loadUnpackedElements_ok
    (hread : ∀ i x, xs[i]? = some x → w.load s (elemSlot w d i) = .ok x) :
    loadUnpackedElements w s d xs.length = .ok xs := by
  have hloop : ∃ result, loadUnpackedElements w s d xs.length = .ok result ∧
      result = xs.take xs.length := by
    refine forRange_ok (P := fun k result => result = xs.take k) (Nat.zero_le _) (by simp) ?_
    intro k result _ hk hr
    have hx := List.getElem?_eq_getElem hk
    refine ⟨result ++ [xs[k]], ?_, ?_⟩
    · rw [hread k _ hx]
      rfl
    · rw [hr, List.take_append_getElem hk]
  obtain ⟨result, hres, htake⟩ := hloop
  rw [hres, htake, List.take_length]

theorem clear_ok (h : Spread w d n s) (hlo : lo ≤ hi) (hhi : hi ≤ n) :
    ∃ s', forRange lo hi (fun storage index => w.delete storage (elemSlot w d index)) s =
      .ok s' ∧ Spread w d n s' := by
  refine forRange_ok (P := fun _ => Spread w d n) hlo h ?_
  intro k t _ hk ht
  obtain ⟨t', hdel, hready, hout⟩ := w.delete_ok (ht.ready k (by omega))
  exact ⟨t', hdel, (ht.step (by omega) hready hout).1⟩

end Unpacked

section Vectors
variable (E : Storable T) (keccak256 : Bytes → B256)

/-- The slots that hold element `i`. -/
def elementSlots (d : U256) (i : Nat) : Set U256 :=
  match E.packed with
  | some w => {d + BitVec.ofNat 256 (calcElementSlot i w.bytes)}
  | none => E.slotType.footprint (elemSlot E.slotType d i)

/-- The data regions do not overlap: no element covers the length slot, and
elements with slots of their own do not cover each other's. -/
structure Regions (lenSlot : U256) : Prop where
  length : ∀ i < E.maxIndex, lenSlot ∉ elementSlots E (calcDataSlot keccak256 lenSlot) i
  elements : E.packed = none → ∀ i j, i < E.maxIndex → j < E.maxIndex → i ≠ j →
    Disjoint (elementSlots E (calcDataSlot keccak256 lenSlot) i)
      (elementSlots E (calcDataSlot keccak256 lenSlot) j)

/-- Some vector within the capacity limit is stored. -/
structure Old (storage : Slots) (lenSlot : U256) : Prop where
  length : (storage lenSlot).toNat ≤ E.maxIndex
  ready : ∀ i < E.maxIndex,
    E.slotType.Ready storage (elemSlot E.slotType (calcDataSlot keccak256 lenSlot) i)

/-- The slots hold exactly this vector, as length and element handlers see it. -/
structure Held (storage : Slots) (lenSlot : U256) (xs : List T) : Prop where
  length : storage lenSlot = BitVec.ofNat 256 xs.length
  length_le : xs.length ≤ E.maxIndex
  element : ∀ i x, xs[i]? = some x → readAt E keccak256 storage lenSlot i = .ok x
  ready : E.packed = none → ∀ i < E.maxIndex,
    E.slotType.Ready storage (elemSlot E.slotType (calcDataSlot keccak256 lenSlot) i)

variable {E keccak256} {storage : Slots} {lenSlot : U256}

theorem maxIndex_lt (E : Storable T) : E.maxIndex < 2 ^ 32 := by
  unfold Storable.maxIndex
  split <;> exact Nat.lt_of_le_of_lt (Nat.div_le_self _ _) (by decide)

theorem bytes_le_of_packed (h : E.packed = some w) : w.bytes ≤ 16 := by
  cases E with
  | wide w' => cases h
  | word w' =>
    by_cases hle : w'.bytes ≤ 16
    · rw [Storable.packed, if_pos hle] at h
      cases h
      exact hle
    · rw [Storable.packed, if_neg hle] at h
      cases h

theorem elementSlots_packed (h : E.packed = some w) (d : U256) (i : Nat) :
    elementSlots E d i = {d + BitVec.ofNat 256 (calcElementSlot i w.bytes)} := by
  unfold elementSlots
  rw [h]

theorem elementSlots_unpacked (h : E.packed = none) (d : U256) (i : Nat) :
    elementSlots E d i = E.slotType.footprint (elemSlot E.slotType d i) := by
  unfold elementSlots
  rw [h]

theorem loadCheckedLen_ok (h : storage lenSlot = BitVec.ofNat 256 n) (hn : n < 2 ^ 32) :
    loadCheckedLen storage lenSlot = .ok n := by
  have hval : (storage lenSlot).toNat = n := by
    rw [h, BitVec.toNat_ofNat, Nat.mod_eq_of_lt (by omega)]
  rw [loadCheckedLen, hval, reject_neg (by omega)]
  rfl

/-- The slots of all elements that a vector may have. -/
abbrev SpreadAt (E : Storable T) (keccak256 : Bytes → B256) (lenSlot : U256) (s : Slots) : Prop :=
  Spread E.slotType (calcDataSlot keccak256 lenSlot) E.maxIndex s

section
variable (hreg : Regions E keccak256 lenSlot)
include hreg

theorem Regions.spread (hp : E.packed = none) (hready : ∀ i < E.maxIndex,
      E.slotType.Ready storage (elemSlot E.slotType (calcDataSlot keccak256 lenSlot) i)) :
    SpreadAt E keccak256 lenSlot storage := by
  refine ⟨fun i j hi hj hne => ?_, hready⟩
  rw [← elementSlots_unpacked hp, ← elementSlots_unpacked hp]
  exact hreg.elements hp i j hi hj hne

theorem cleanTail_ok (hold : Old E keccak256 storage lenSlot) (spec : TempoHardfork)
    (newLen : Nat) :
    ∃ s, cleanTail E keccak256 spec newLen storage lenSlot .full = .ok s ∧
      (E.packed = none → SpreadAt E keccak256 lenSlot s) := by
  have hlt := maxIndex_lt E
  have hlen : loadCheckedLen storage lenSlot = .ok (storage lenSlot).toNat :=
    loadCheckedLen_ok (by rw [BitVec.ofNat_toNat, BitVec.setWidth_eq])
      (Nat.lt_of_le_of_lt hold.length hlt)
  have hspread (hp : E.packed = none) := hreg.spread hp hold.ready
  unfold cleanTail
  split
  · rw [hlen, bind_value]
    split
    next hshrink =>
      rw [clearElements, if_neg (by omega)]
      cases hp : E.packed with
      | some w =>
        have hcounts : calcPackedSlotCount newLen w.bytes ≤
            calcPackedSlotCount (storage lenSlot).toNat w.bytes :=
          Nat.div_le_div_right (by omega)
        obtain ⟨s, hs⟩ := zeroSlots_ok hcounts (calcDataSlot keccak256 lenSlot) storage
        exact ⟨s, hs, by simp⟩
      | none =>
        obtain ⟨s, hs, hsp⟩ := clear_ok (hspread hp) (Nat.le_of_lt hshrink) hold.length
        exact ⟨s, hs, fun _ => hsp⟩
    next => exact ⟨storage, rfl, hspread⟩
  · exact ⟨storage, rfl, hspread⟩

theorem Spread.setLength (hp : E.packed = none) (h : SpreadAt E keccak256 lenSlot s) (v : U256) :
    SpreadAt E keccak256 lenSlot (Function.update s lenSlot v) ∧
      ∀ i < E.maxIndex, E.slotType.load (Function.update s lenSlot v)
          (elemSlot E.slotType (calcDataSlot keccak256 lenSlot) i) =
        E.slotType.load s (elemSlot E.slotType (calcDataSlot keccak256 lenSlot) i) := by
  have hsame : ∀ i < E.maxIndex, ∀ a ∈ E.slotType.footprint
      (elemSlot E.slotType (calcDataSlot keccak256 lenSlot) i),
      s a = Function.update s lenSlot v a := by
    intro i hi a ha
    have hlen := hreg.length i hi
    rw [elementSlots_unpacked hp] at hlen
    have hne : a ≠ lenSlot := by
      intro heq
      rw [heq] at ha
      exact hlen ha
    rw [Function.update_of_ne hne]
  exact ⟨⟨h.apart, fun i hi => E.slotType.ready_local (hsame i hi) (h.ready i hi)⟩,
    fun i hi => (E.slotType.load_local (hsame i hi)).symm⟩

theorem Held.empty (hsp : E.packed = none → SpreadAt E keccak256 lenSlot s) :
    Held E keccak256 (Function.update s lenSlot (BitVec.ofNat 256 0)) lenSlot [] where
  length := Function.update_self _ _ _
  length_le := Nat.zero_le _
  element i x hx := by cases hx
  ready hp := ((hsp hp).setLength hreg hp _).1.ready

theorem store_held (hold : Old E keccak256 storage lenSlot) (spec : TempoHardfork) (xs : List T)
    (hcap : xs.length ≤ E.maxIndex) :
    ∃ s, store E keccak256 spec xs storage lenSlot .full = .ok s ∧
      Held E keccak256 s lenSlot xs := by
  obtain ⟨s₁, hclean, hsp⟩ := cleanTail_ok hreg hold spec xs.length
  have hlt := maxIndex_lt E
  rw [store, hclean, bind_value]
  cases xs with
  | nil => exact ⟨_, rfl, Held.empty hreg hsp⟩
  | cons x xs =>
    simp only [List.isEmpty_cons, Bool.false_eq_true, if_false]
    cases hp : E.packed with
    | some w =>
      obtain ⟨s, hs, hread, hframe⟩ := storePackedElements_ok (bytes_le_of_packed hp)
        (x :: xs) (Function.update s₁ lenSlot (BitVec.ofNat 256 (x :: xs).length))
        (calcDataSlot keccak256 lenSlot) (by omega)
      refine ⟨s, hs, ?_, hcap, ?_, by simp [hp]⟩
      · rw [hframe lenSlot, Function.update_self]
        intro i hi
        have hne := hreg.length i (by omega)
        rwa [elementSlots_packed hp] at hne
      · intro i y hy
        rw [readAt, hp]
        exact hread i y hy
    | none =>
      have hsp' := (hsp hp).setLength hreg hp (BitVec.ofNat 256 (x :: xs).length)
      obtain ⟨s, hs, hspread, hread, hframe⟩ := storeUnpackedElements_ok spec hsp'.1 hcap
      refine ⟨s, hs, ?_, hcap, ?_, fun _ => hspread.ready⟩
      · rw [hframe lenSlot, Function.update_self]
        intro i hi
        have hne := hreg.length i hi
        rwa [elementSlots_unpacked hp] at hne
      · intro i y hy
        rw [readAt, hp]
        exact hread i y hy

omit hreg in
theorem Held.load_eq {xs : List T} (h : Held E keccak256 storage lenSlot xs) :
    load E keccak256 storage lenSlot = .ok xs := by
  have hlt := maxIndex_lt E
  have hle := h.length_le
  have helement := h.element
  rw [load, loadCheckedLen_ok h.length (by omega), bind_value]
  unfold readAt at helement
  cases xs with
  | nil => rfl
  | cons x xs =>
    simp only [List.length_cons, Nat.add_eq_zero_iff, Nat.one_ne_zero, and_false, if_false]
    cases hp : E.packed with
    | some w =>
      rw [hp] at helement
      have hlanes : ∀ i y, (x :: xs)[i]? = some y →
          laneAt storage (calcDataSlot keccak256 lenSlot) i = .ok y := helement
      have hload := loadPackedElements_ok (bytes_le_of_packed hp) hlanes
      exact hload
    | none =>
      rw [hp] at helement
      exact loadUnpackedElements_ok helement

/-- One push: the new element reads back and the others are as before. -/
theorem Held.push (h : Held E keccak256 storage lenSlot xs) (spec : TempoHardfork) (x : T)
    (hroom : xs.length < E.maxIndex) :
    ∃ s, push E keccak256 spec storage lenSlot x = .ok s ∧
      Held E keccak256 s lenSlot (xs ++ [x]) := by
  have hlt := maxIndex_lt E
  have hlength : (xs ++ [x]).length = xs.length + 1 := by simp
  -- The old elements by index, and the pushed one at the end.
  have hcases : ∀ i y, (xs ++ [x])[i]? = some y →
      (i < xs.length ∧ xs[i]? = some y) ∨ (i = xs.length ∧ y = x) := by
    intro i y hy
    rw [List.getElem?_append] at hy
    split at hy
    · exact Or.inl ⟨‹_›, hy⟩
    · obtain ⟨hi, rfl⟩ := by simpa [List.getElem?_singleton] using hy
      exact Or.inr ⟨by omega, rfl⟩
  rw [Vec.push, loadCheckedLen_ok h.length (by omega), bind_value, reject_neg (by omega),
    bind_value]
  cases hp : E.packed with
  | some w =>
    obtain ⟨word, hword, hother, hself⟩ := pushLane_ok (bytes_le_of_packed hp) storage
      (calcDataSlot keccak256 lenSlot) (n := xs.length) (by omega) x
    refine ⟨_, by simp only [calcElementLoc, hword, bind_value, pure_eq]; rfl, ?_, by omega, ?_,
      by simp [hp]⟩
    · rw [Function.update_self, hlength]
    · intro i y hy
      -- The length slot is none of the lanes' slots.
      have hlane : ∀ j ≤ xs.length, ∀ s : Slots, (laneAt (Function.update s lenSlot
          (BitVec.ofNat 256 (xs.length + 1))) (calcDataSlot keccak256 lenSlot) j : Except _ T) =
          laneAt s (calcDataSlot keccak256 lenSlot) j := by
        intro j hj s
        have hne := hreg.length j (by omega)
        rw [elementSlots_packed hp] at hne
        rw [laneAt, laneAt, Function.update_of_ne (Ne.symm hne)]
      rw [readAt, hp]
      rcases hcases i y hy with ⟨hi, hold⟩ | ⟨rfl, rfl⟩
      · have helement := h.element i y hold
        rw [readAt, hp] at helement
        exact ((hlane i (by omega) _).trans (hother i hi)).trans helement
      · exact (hlane _ (Nat.le_refl _) _).trans hself
  | none =>
    have hspread := hreg.spread hp (h.ready hp)
    obtain ⟨t, hstore, hload, hready, hout⟩ := E.slotType.store_ok spec x
      (show LayoutCtx.init.packedOffset = none from rfl) (hspread.ready xs.length hroom)
    obtain ⟨ht, hsame⟩ := hspread.step hroom hready hout
    obtain ⟨ht', hkept⟩ := ht.setLength hreg hp (BitVec.ofNat 256 (xs.length + 1))
    refine ⟨_, by simp only [hstore, bind_value, pure_eq], ?_, by omega, ?_, fun _ => ht'.ready⟩
    · rw [Function.update_self, hlength]
    · intro i y hy
      rw [readAt, hp]
      rcases hcases i y hy with ⟨hi, hold⟩ | ⟨rfl, rfl⟩
      · have helement := h.element i y hold
        rw [readAt, hp] at helement
        exact ((hkept i (by omega)).trans (hsame i (by omega) (by omega))).trans helement
      · exact (hkept _ hroom).trans hload

/-- Pushing a list, one element after another. -/
def pushAll (E : Storable T) (keccak256 : Bytes → B256) (spec : TempoHardfork) (lenSlot : U256) :
    List T → Slots → Result Slots
  | [], storage => pure storage
  | x :: xs, storage => do
    let storage ← push E keccak256 spec storage lenSlot x
    pushAll E keccak256 spec lenSlot xs storage

theorem Held.pushAll (spec : TempoHardfork) (h : Held E keccak256 storage lenSlot xs)
    (hroom : xs.length + ys.length ≤ E.maxIndex) :
    ∃ s, pushAll E keccak256 spec lenSlot ys storage = .ok s ∧
      Held E keccak256 s lenSlot (xs ++ ys) := by
  induction ys generalizing storage xs with
  | nil => exact ⟨storage, rfl, by rwa [List.append_nil]⟩
  | cons y ys ih =>
    rw [List.length_cons] at hroom
    obtain ⟨s, hs, hheld⟩ := h.push hreg spec y (by omega)
    obtain ⟨s', hs', hheld'⟩ := ih hheld (by simp; omega)
    refine ⟨s', ?_, by simpa using hheld'⟩
    rw [Vec.pushAll, hs, bind_value, hs']

end

/-- A stored vector over any old one, and pushes after it: the bulk load and the
element handlers read exactly the new elements. -/
theorem store_pushes_read (hreg : Regions E keccak256 lenSlot)
    (hold : Old E keccak256 storage lenSlot) (spec : TempoHardfork) (xs ys : List T)
    (hcap : xs.length + ys.length ≤ E.maxIndex) :
    ∃ s, store E keccak256 spec xs storage lenSlot .full = .ok s ∧
      load E keccak256 s lenSlot = .ok xs ∧
      (∀ i x, xs[i]? = some x → readAt E keccak256 s lenSlot i = .ok x) ∧
      ∃ s', Vec.pushAll E keccak256 spec lenSlot ys s = .ok s' ∧
        load E keccak256 s' lenSlot = .ok (xs ++ ys) ∧
        ∀ i x, (xs ++ ys)[i]? = some x → readAt E keccak256 s' lenSlot i = .ok x := by
  obtain ⟨s, hs, hheld⟩ := store_held hreg hold spec xs (by omega)
  obtain ⟨s', hs', hheld'⟩ := hheld.pushAll hreg spec hcap
  exact ⟨s, hs, hheld.load_eq, hheld.element, s', hs', hheld'.load_eq, hheld'.element⟩

end Vectors

/-- For arrays of words the elements lie one behind the other, so only the
length slot has to be outside the data. -/
theorem regions_wordArray (hpos : 0 < n) (hlt : n < 2 ^ 32)
    (h : ∀ k < 2 ^ 32, lenSlot ≠ calcDataSlot keccak256 lenSlot + BitVec.ofNat 256 k) :
    Regions (.wide (wordArray n hpos hlt)) keccak256 lenSlot := by
  have hmax : (Storable.wide (wordArray n hpos hlt)).maxIndex = (2 ^ 32 - 1) / n :=
    if_neg (show ¬ n * 32 ≤ 16 by omega)
  -- Word `j` of element `i` counts from the start of the data.
  have hplace : ∀ (d : U256) (i j : Nat),
      elemSlot (Storable.wide (wordArray n hpos hlt)).slotType d i + BitVec.ofNat 256 j =
        d + BitVec.ofNat 256 (i * n + j) := by
    intro d i j
    rw [elemSlot, BitVec.add_assoc, ← BitVec.ofNat_add]
    rfl
  have hbound : ∀ i j, i < (2 ^ 32 - 1) / n → j < n → i * n + j < 2 ^ 32 := by
    intro i j hi hj
    have hle := Nat.le_trans (Nat.mul_le_mul_right n hi) (Nat.div_mul_le_self (2 ^ 32 - 1) n)
    rw [Nat.succ_mul] at hle
    omega
  constructor
  · intro i hi
    rw [hmax] at hi
    rw [elementSlots_unpacked rfl]
    rintro ⟨j, hj, heq⟩
    rw [hplace] at heq
    exact h _ (hbound i j hi hj) heq
  · intro _ i i' hi hi' hne
    rw [hmax] at hi hi'
    rw [elementSlots_unpacked rfl, elementSlots_unpacked rfl, Set.disjoint_left]
    rintro a ⟨j, hj, rfl⟩ ⟨j', hj', heq⟩
    rw [hplace, hplace] at heq
    refine add_ofNat_ne (hbound i j hi hj) (hbound i' j' hi' hj') ?_ heq
    intro hsum
    apply hne
    have hdiv := congrArg (· / n) hsum
    simpa [Nat.add_comm, Nat.add_mul_div_right _ _ hpos, Nat.div_eq_of_lt hj,
      Nat.div_eq_of_lt hj'] using hdiv

theorem regions_packed (hp : E.packed = some w)
    (h : ∀ k < 2 ^ 32, lenSlot ≠ calcDataSlot keccak256 lenSlot + BitVec.ofNat 256 k) :
    Regions E keccak256 lenSlot := by
  refine ⟨fun i hi => ?_, fun hnone => by rw [hp] at hnone; cases hnone⟩
  rw [elementSlots_packed hp]
  exact h _ (Nat.lt_of_le_of_lt (Nat.div_le_self ..) (Nat.lt_trans hi (maxIndex_lt E)))

/-- Four of these share a slot. -/
def quarters : Storable U64 := .word inferInstance

def pairs : Storable {xs : List U256 // xs.length = 2} :=
  .wide (wordArray 2 (by decide) (by decide))

/-- Short words that share slots, and pairs of words, over an old vector of three. -/
theorem store_pushes_read_shared :
    (∃ s s', store quarters slotHash .T5 [1, 2, 3, 4, 5] (fun _ => 3) 0 .full = .ok s ∧
      pushAll quarters slotHash .T5 0 [6, 7] s = .ok s' ∧
      load quarters slotHash s' 0 = .ok [1, 2, 3, 4, 5, 6, 7]) ∧
    ∃ s s', store pairs slotHash .T5 [⟨[7, 8], rfl⟩] (fun _ => 3) 0 .full = .ok s ∧
      pushAll pairs slotHash .T5 0 [⟨[9, 10], rfl⟩] s = .ok s' ∧
      load pairs slotHash s' 0 = .ok [⟨[7, 8], rfl⟩, ⟨[9, 10], rfl⟩] := by
  have hquarters : Old quarters slotHash (fun _ => 3) 0 := ⟨by decide, fun _ _ => trivial⟩
  have hpairs : Old pairs slotHash (fun _ => 3) 0 := ⟨by decide, fun _ _ => trivial⟩
  obtain ⟨s, hs, -, -, s', hs', hload, -⟩ := store_pushes_read (regions_packed rfl slotHash_ne)
    hquarters .T5 [1, 2, 3, 4, 5] [6, 7] (by decide)
  obtain ⟨t, ht, -, -, t', ht', htload, -⟩ := store_pushes_read
    (regions_wordArray (by decide) (by decide) slotHash_ne) hpairs .T5 [⟨[7, 8], rfl⟩]
    [⟨[9, 10], rfl⟩] (by decide)
  exact ⟨⟨s, s', hs, hs', hload⟩, t, t', ht, ht', htload⟩

end Vec
end SciChain.RawStorage
