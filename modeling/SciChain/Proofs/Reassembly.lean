import SciChain.Derive.Channel
import SciChain.Library.Run
import Mathlib.Data.List.Nodup

namespace SciChain.Derive.Channel
open Library

variable {c c' : Channel} {f : Frame}

/-- Buffered numbers, in no particular order. -/
def numbers (c : Channel) : List U16 := c.inputs.map Prod.fst

def totalSize : List (U16 × Frame) → Nat
  | [] => 0
  | e :: es => e.2.size + totalSize es

/-- Frames as they arrive; one that is refused changes nothing. -/
def addFrames (c : Channel) (frames : List (Frame × BlockInfo)) : Channel :=
  run (fun e c => addFrame c e.1 e.2) c frames

/-- The channel is closed and no number up to the last one is missing. -/
def Complete (c : Channel) : Prop :=
  c.closed = true ∧ ∀ n ≤ c.lastFrameNumber, n ∈ c.numbers

instance (c : Channel) : Decidable c.Complete := by unfold Complete; infer_instance

/-- The data of the frames up to the last number, in number order. -/
def contents (c : Channel) : Bytes :=
  (List.range (c.lastFrameNumber.toNat + 1)).flatMap
    (fun i => (c.frame? (BitVec.ofNat 16 i)).elim [] Frame.data)

/-- What holds of the buffered frames whatever has arrived. -/
structure Buffered (c : Channel) : Prop where
  distinct : c.numbers.Nodup
  named : ∀ e ∈ c.inputs, e.2.number = e.1
  highest : ∀ n ∈ c.numbers, n ≤ c.highestFrameNumber
  last : c.closed = true → ∀ n ∈ c.numbers, n ≤ c.lastFrameNumber
  sized : c.estimatedSize = totalSize c.inputs

theorem frame?_isSome_iff : (c.frame? n).isSome = true ↔ n ∈ c.numbers := by
  simp [frame?, numbers, List.lookup_isSome_iff]

theorem addFrame_cases (h : c.addFrame f b = .ok c') :
    f.id = c.id ∧ (f.isLast = true → c.closed = false) ∧ f.number ∉ c.numbers ∧
    (c.closed = true → f.number < c.lastFrameNumber) ∧ c'.id = c.id ∧
    ∃ d, d = (if f.isLast = true then c.close f.number else c) ∧
      c'.inputs = (f.number, f) :: d.inputs ∧ c'.closed = d.closed ∧
      c'.lastFrameNumber = d.lastFrameNumber ∧ c'.estimatedSize = d.estimatedSize + f.size ∧
      c'.highestFrameNumber =
        if d.highestFrameNumber < f.number then f.number else d.highestFrameNumber := by
  simp only [addFrame, reject_bind_ok, pure_eq, Except.ok.injEq] at h
  obtain ⟨hid, hlast, hnew, hbeyond, rfl⟩ := h
  have hid' : f.id = c.id := by simpa using hid
  have hclosed : ∀ n, (c.close n).id = c.id := by
    intro n
    unfold close
    split <;> rfl
  refine ⟨hid', ?_, ?_, ?_, ?_, _, rfl, rfl, rfl, rfl, rfl, rfl⟩
  · intro hl
    simpa [hl] using hlast
  · rwa [← frame?_isSome_iff]
  · intro hc
    simpa [hc] using hbeyond
  · show (if f.isLast = true then c.close f.number else c).id = c.id
    split
    · exact hclosed _
    · rfl

theorem numbers_of_cons {d : Channel} (h : c.inputs = (f.number, f) :: d.inputs) :
    c.numbers = f.number :: d.numbers := by
  rw [numbers, h]
  rfl

theorem mem_numbers_filter {p : U16 → Bool} :
    n ∈ (c.inputs.filter (fun e => p e.1)).map Prod.fst ↔ n ∈ c.numbers ∧ p n = true := by
  simp only [numbers, List.mem_map, List.mem_filter]
  constructor
  · rintro ⟨e, ⟨he, hp⟩, rfl⟩
    exact ⟨⟨e, he, rfl⟩, hp⟩
  · rintro ⟨⟨e, he, rfl⟩, hp⟩
    exact ⟨e, ⟨he, hp⟩, rfl⟩

/-- Subtracting the removed frames one by one leaves the size of the others and
never goes below zero. -/
theorem totalSize_filter (es : List (U16 × Frame)) (p : U16 × Frame → Bool) :
    totalSize es = totalSize (es.filter p) + totalSize (es.filter (fun e => !p e)) := by
  induction es with
  | nil => rfl
  | cons e es ih =>
    cases hp : p e <;> simp only [List.filter_cons, hp, totalSize, ih, Bool.not_true,
      Bool.not_false, Bool.false_eq_true, if_true, if_false] <;> omega

theorem foldl_sub_size (es : List (U16 × Frame)) (n : Nat) :
    es.foldl (fun size e => size - e.2.size) n = n - totalSize es := by
  induction es generalizing n with
  | nil => rfl
  | cons e es ih =>
    rw [List.foldl_cons, ih, totalSize]
    omega

theorem size_split (h : c.Buffered) (n : U16) :
    c.estimatedSize = totalSize (c.inputs.filter (fun e => e.1 < n)) + totalSize (c.beyond n) := by
  rw [h.sized, totalSize_filter c.inputs (fun e => e.1 < n)]
  simp only [beyond, decide_not]

theorem close_spec (h : c.Buffered) (hn : n ∉ c.numbers) :
    (c.close n).Buffered ∧ (c.close n).closed = true ∧ (c.close n).lastFrameNumber = n ∧
    ∀ m, m ∈ (c.close n).numbers ↔ m ∈ c.numbers ∧ m < n := by
  unfold close
  split
  · have hmem : ∀ m, m ∈ (c.inputs.filter (fun e => e.1 < n)).map Prod.fst ↔
        m ∈ c.numbers ∧ m < n := by
      intro m
      rw [mem_numbers_filter (p := fun m => m < n), decide_eq_true_iff]
    refine ⟨⟨?_, ?_, ?_, ?_, ?_⟩, rfl, rfl, hmem⟩
    · exact h.distinct.sublist (List.filter_sublist.map _)
    · intro e he
      exact h.named e (List.mem_of_mem_filter he)
    · intro m hm
      exact BitVec.le_of_lt ((hmem m).mp hm).2
    · intro _ m hm
      exact BitVec.le_of_lt ((hmem m).mp hm).2
    · simp only
      rw [foldl_sub_size, size_split h n, Nat.add_sub_cancel]
  · rename_i hhigh
    have hbelow : ∀ m ∈ c.numbers, m < n := by
      intro m hm
      have hle := h.highest m hm
      have hne : m ≠ n := fun he => hn (he ▸ hm)
      bv_omega
    refine ⟨⟨h.distinct, h.named, h.highest, ?_, h.sized⟩, rfl, rfl, ?_⟩
    · intro _ m hm
      exact BitVec.le_of_lt (hbelow m hm)
    · intro m
      exact ⟨fun hm => ⟨hm, hbelow m hm⟩, And.left⟩

theorem buffered_new (id : ChannelId) (b : BlockInfo) : (new id b).Buffered :=
  ⟨List.nodup_nil, by simp [new], by simp [numbers, new], by simp [new], rfl⟩

theorem Buffered.addFrame (h : c.Buffered) (ha : c.addFrame f b = .ok c') : c'.Buffered := by
  obtain ⟨_, _, hnew, hlow, _, d, hd, hin, hclosed, hlast, hsize, hhigh⟩ := addFrame_cases ha
  have hrest : d.Buffered ∧ f.number ∉ d.numbers ∧
      (d.closed = true → f.number ≤ d.lastFrameNumber) := by
    subst hd
    split
    · obtain ⟨hb, _, hl, hmem⟩ := close_spec h hnew
      refine ⟨hb, fun hm => hnew ((hmem _).mp hm).1, ?_⟩
      intro _
      rw [hl]
      exact BitVec.le_refl _
    · exact ⟨h, hnew, fun hc => BitVec.le_of_lt (hlow hc)⟩
  obtain ⟨hb, hfresh, hle⟩ := hrest
  have hnumbers := numbers_of_cons hin
  refine ⟨?_, ?_, ?_, ?_, ?_⟩
  · rw [hnumbers]
    exact List.nodup_cons.mpr ⟨hfresh, hb.distinct⟩
  · intro e he
    rw [hin] at he
    rcases List.mem_cons.mp he with rfl | he
    · rfl
    · exact hb.named e he
  · intro n hn
    rw [hnumbers] at hn
    rw [hhigh]
    rcases List.mem_cons.mp hn with rfl | hn
    · split
      · exact BitVec.le_refl _
      · bv_omega
    · have := hb.highest n hn
      split
      · bv_omega
      · exact this
  · intro hc n hn
    rw [hclosed] at hc
    rw [hnumbers] at hn
    rw [hlast]
    rcases List.mem_cons.mp hn with rfl | hn
    · exact hle hc
    · exact hb.last hc n hn
  · rw [hsize, hb.sized, hin, totalSize, Nat.add_comm]

theorem Buffered.addFrames (h : c.Buffered) (fs : List (Frame × BlockInfo)) :
    (c.addFrames fs).Buffered :=
  run_invariant (fun _ _ _ hs ha => hs.addFrame ha) h fs

/-- The frame that closes the channel: the first marked last whose number had
not arrived before. -/
def closingFrom (seen : List U16) : List Frame → Option Frame
  | [] => none
  | f :: fs =>
    if f.isLast = true ∧ f.number ∉ seen then some f else closingFrom (f.number :: seen) fs

def closingFrame (fs : List Frame) : Option Frame := closingFrom [] fs

theorem addFrames_closed (hc : c.closed = true) (fs : List (Frame × BlockInfo)) :
    (c.addFrames fs).closed = true ∧ (c.addFrames fs).lastFrameNumber = c.lastFrameNumber := by
  refine run_invariant
    (P := fun d : Channel => d.closed = true ∧ d.lastFrameNumber = c.lastFrameNumber) ?_ ⟨hc, rfl⟩ fs
  intro e d d' hd ha
  obtain ⟨_, hopen, _, _, _, _, rfl, _, hclosed, hlast, _⟩ := addFrame_cases ha
  have hnot : ¬e.1.isLast = true := by
    intro hl
    rw [hopen hl] at hd
    exact absurd hd.1 (by decide)
  rw [if_neg hnot] at hclosed hlast
  exact ⟨hclosed.trans hd.1, hlast.trans hd.2⟩

/-- An open channel refuses only what it has already buffered. -/
theorem addFrame_open (hc : c.closed = false) (hid : f.id = c.id) (b : BlockInfo)
    (hn : f.number ∉ c.numbers) : (c.addFrame f b).isOk = true := by
  have hnone : ¬(c.frame? f.number).isSome = true := mt frame?_isSome_iff.mp hn
  simp only [addFrame, hid, hc, ne_eq, not_true_eq_false, Bool.false_eq_true, and_false,
    false_and, reject_neg, hnone, not_false_eq_true, bind_value, pure_eq]
  rfl

theorem addFrames_id (c : Channel) (fs : List (Frame × BlockInfo)) : (c.addFrames fs).id = c.id :=
  run_invariant (P := fun d : Channel => d.id = c.id)
    (fun _ _ _ hd ha => (addFrame_cases ha).2.2.2.2.1.trans hd) rfl fs

theorem last_mem_numbers (h : c.closed = true → c.lastFrameNumber ∈ c.numbers)
    (fs : List (Frame × BlockInfo)) :
    (c.addFrames fs).closed = true → (c.addFrames fs).lastFrameNumber ∈ (c.addFrames fs).numbers := by
  refine run_invariant
    (P := fun d : Channel => d.closed = true → d.lastFrameNumber ∈ d.numbers) ?_ h fs
  intro e d d' hd ha hc
  obtain ⟨_, _, _, _, _, m, hm, hin, hclosed, hlast, _⟩ := addFrame_cases ha
  rw [numbers_of_cons hin, hlast]
  split at hm
  · subst hm
    unfold close
    split <;> exact List.mem_cons_self
  · subst hm
    exact List.mem_cons_of_mem _ (hd (hclosed ▸ hc))

section Arrival

variable {c : Channel} {seen : List U16} {e : Frame × BlockInfo}

/-- The channel after one more arrival. -/
def arrive (c : Channel) (e : Frame × BlockInfo) : Channel :=
  attempt (fun e c => addFrame c e.1 e.2) c e

theorem addFrames_concat (c : Channel) (fs : List (Frame × BlockInfo)) (e : Frame × BlockInfo) :
    c.addFrames (fs ++ [e]) = (c.addFrames fs).arrive e := run_append _ _ _

theorem Buffered.arrive (h : c.Buffered) : (c.arrive e).Buffered := h.addFrames [e]

theorem arrive_duplicate (hn : e.1.number ∈ c.numbers) : c.arrive e = c := by
  have hcases : c.arrive e = c ∨ addFrame c e.1 e.2 = .ok (c.arrive e) := attempt_cases c e
  rcases hcases with h | h
  · exact h
  · exact absurd hn (addFrame_cases h).2.2.1

theorem arrive_closing (hb : c.Buffered) (hc : c.closed = false) (hid : e.1.id = c.id)
    (hlast : e.1.isLast = true) (hnew : e.1.number ∉ c.numbers) :
    (c.arrive e).closed = true ∧ (c.arrive e).lastFrameNumber = e.1.number ∧
    ∀ n, n ∈ (c.arrive e).numbers ↔ n = e.1.number ∨ n ∈ c.numbers ∧ n < e.1.number := by
  obtain ⟨d, hd⟩ := exists_of_isOk (addFrame_open hc hid e.2 hnew)
  obtain ⟨_, _, _, _, _, m, hm, hin, hclosed, hl, _⟩ := addFrame_cases hd
  obtain ⟨_, hmc, hml, hmn⟩ := close_spec hb hnew
  rw [if_pos hlast] at hm
  subst hm
  rw [arrive, attempt_of_ok hd]
  refine ⟨hclosed.trans hmc, hl.trans hml, fun n => ?_⟩
  rw [numbers_of_cons hin, List.mem_cons, hmn]

theorem arrive_open (hc : c.closed = false) (hseen : ∀ n, n ∈ c.numbers ↔ n ∈ seen)
    (hid : e.1.id = c.id) (hnot : ¬(e.1.isLast = true ∧ e.1.number ∉ seen)) :
    (c.arrive e).closed = false ∧ (c.arrive e).lastFrameNumber = c.lastFrameNumber ∧
    (c.arrive e).id = c.id ∧ ∀ n, n ∈ (c.arrive e).numbers ↔ n ∈ e.1.number :: seen := by
  by_cases hdup : e.1.number ∈ c.numbers
  · rw [arrive_duplicate hdup]
    refine ⟨hc, rfl, rfl, fun n => ?_⟩
    rw [hseen, List.mem_cons]
    constructor
    · exact Or.inr
    · rintro (rfl | hn)
      · exact (hseen _).mp hdup
      · exact hn
  · have hmore : ¬e.1.isLast = true := fun hl => hnot ⟨hl, mt (hseen _).mpr hdup⟩
    obtain ⟨d, hd⟩ := exists_of_isOk (addFrame_open hc hid e.2 hdup)
    obtain ⟨_, _, _, _, hdid, m, hm, hin, hclosed, hl, _⟩ := addFrame_cases hd
    rw [if_neg hmore] at hm
    subst hm
    rw [arrive, attempt_of_ok hd]
    refine ⟨hclosed.trans hc, hl, hdid, fun n => ?_⟩
    rw [numbers_of_cons hin, List.mem_cons, List.mem_cons, hseen]

end Arrival

/-- What an open channel has become: still open with every number it was sent,
or closed by the first fresh frame marked last. -/
theorem addFrames_open (hb : c.Buffered) (hc : c.closed = false)
    (hseen : ∀ n, n ∈ c.numbers ↔ n ∈ seen) (hid : ∀ e ∈ fs, e.1.id = c.id) :
    (∀ f, closingFrom seen (fs.map Prod.fst) = some f →
      (c.addFrames fs).closed = true ∧ (c.addFrames fs).lastFrameNumber = f.number) ∧
    (closingFrom seen (fs.map Prod.fst) = none →
      (c.addFrames fs).closed = false ∧
      (c.addFrames fs).lastFrameNumber = c.lastFrameNumber ∧
      ∀ n, n ∈ (c.addFrames fs).numbers ↔ n ∈ seen ∨ ∃ e ∈ fs, e.1.number = n) := by
  induction fs generalizing c seen with
  | nil => exact ⟨by simp [closingFrom], fun _ => ⟨hc, rfl, by simpa [addFrames] using hseen⟩⟩
  | cons e fs ih =>
    have hrun : c.addFrames (e :: fs) = (c.arrive e).addFrames fs := rfl
    have hide := hid e List.mem_cons_self
    rw [hrun, List.map_cons, closingFrom]
    split
    · rename_i hclosing
      obtain ⟨hdc, hdl, _⟩ :=
        arrive_closing hb hc hide hclosing.1 (mt (hseen _).mp hclosing.2)
      have hstay := addFrames_closed hdc fs
      refine ⟨?_, by simp⟩
      rintro f ⟨⟩
      exact ⟨hstay.1, hstay.2.trans hdl⟩
    · rename_i hnot
      obtain ⟨hdc, hdl, hdid, hds⟩ := arrive_open hc hseen hide hnot
      obtain ⟨hsome, hnone⟩ := ih hb.arrive hdc hds
        (fun x hx => (hid x (List.mem_cons_of_mem _ hx)).trans hdid.symm)
      refine ⟨hsome, fun h => ?_⟩
      obtain ⟨h1, h2, h3⟩ := hnone h
      refine ⟨h1, h2.trans hdl, fun n => ?_⟩
      rw [h3, List.mem_cons, List.exists_mem_cons_iff]
      tauto

theorem mem_numbers_toNat (hi : i < 2 ^ 16) :
    BitVec.ofNat 16 i ∈ c.numbers ↔ i ∈ c.numbers.map BitVec.toNat := by
  rw [List.mem_map]
  constructor
  · intro h
    exact ⟨_, h, by rw [BitVec.toNat_ofNat, Nat.mod_eq_of_lt hi]⟩
  · rintro ⟨n, hn, rfl⟩
    rwa [BitVec.ofNat_toNat, BitVec.setWidth_eq]

/-- Checking each number up to the last one is checking for completeness. -/
theorem complete_iff_range :
    (∀ n ≤ c.lastFrameNumber, n ∈ c.numbers) ↔
      ∀ i ∈ List.range (c.lastFrameNumber.toNat + 1),
        (c.frame? (BitVec.ofNat 16 i)).isSome = true := by
  constructor
  · intro h i hi
    rw [List.mem_range] at hi
    apply frame?_isSome_iff.mpr
    apply h
    rw [BitVec.le_def, BitVec.toNat_ofNat, Nat.mod_eq_of_lt (by omega)]
    omega
  · intro h n hn
    rw [BitVec.le_def] at hn
    have := frame?_isSome_iff.mp (h n.toNat (List.mem_range.mpr (by omega)))
    rwa [BitVec.ofNat_toNat, BitVec.setWidth_eq] at this

theorem complete_length (h : c.Buffered) (hc : c.Complete) :
    c.inputs.length = c.lastFrameNumber.toNat + 1 := by
  have hnodup : (c.numbers.map BitVec.toNat).Nodup :=
    h.distinct.map (fun _ _ he => BitVec.eq_of_toNat_eq he)
  have hperm : (c.numbers.map BitVec.toNat).Perm (List.range (c.lastFrameNumber.toNat + 1)) := by
    rw [List.perm_ext_iff_of_nodup hnodup List.nodup_range]
    intro i
    rw [List.mem_range]
    constructor
    · rintro hi
      obtain ⟨n, hn, rfl⟩ := List.mem_map.mp hi
      have := BitVec.le_def.mp (h.last hc.1 n hn)
      omega
    · intro hi
      rw [← mem_numbers_toNat (by omega)]
      apply hc.2
      rw [BitVec.le_def, BitVec.toNat_ofNat, Nat.mod_eq_of_lt (by omega)]
      omega
  have hlen := hperm.length_eq
  simpa [numbers] using hlen

theorem Complete.inputs_ne_nil (h : c.Complete) : c.inputs ≠ [] := by
  intro hnil
  have hin := h.2 _ (BitVec.le_refl c.lastFrameNumber)
  simp [numbers, hnil] at hin

theorem isReady_open (mode : Overflow) (hc : c.closed = false) :
    c.isReady mode = some (decide c.Complete) := by
  simp [isReady, Complete, hc]

/-- Below the largest number readiness is completeness, in every build. -/
theorem isReady_closed (h : c.Buffered) (mode : Overflow) (hc : c.closed = true)
    (hlast : c.lastFrameNumber.toNat + 1 < 2 ^ 16) : c.isReady mode = some (decide c.Complete) := by
  have hadd : mode.add c.lastFrameNumber 1 = some (c.lastFrameNumber + 1) :=
    mode.add_of_lt (by simpa using hlast)
  have hsucc : (c.lastFrameNumber + 1).toNat = c.lastFrameNumber.toNat + 1 := by
    rw [BitVec.toNat_add, Nat.mod_eq_of_lt (by simpa using hlast)]
    rfl
  simp only [isReady, hc, not_true_eq_false, if_false, hadd, Option.bind_eq_bind,
    Option.bind_some, hsucc, ne_eq, ite_not]
  by_cases hcomplete : c.Complete
  · rw [if_pos (complete_length h hcomplete), decide_eq_true hcomplete, Option.some.injEq,
      List.all_eq_true]
    exact complete_iff_range.mp hcomplete.2
  · have hall : (List.range (c.lastFrameNumber.toNat + 1)).all
        (fun i => (c.frame? (BitVec.ofNat 16 i)).isSome) = false := by
      rw [Bool.eq_false_iff, ne_eq, List.all_eq_true]
      exact fun hr => hcomplete ⟨hc, complete_iff_range.mpr hr⟩
    rw [decide_eq_false hcomplete, hall, ite_self]

/-- At the largest number the count is never met: it wraps to zero, or the
addition panics. -/
theorem isReady_at_max (hc : c.closed = true) (hlast : c.lastFrameNumber = 65535)
    (hin : c.inputs ≠ []) : c.isReady .wraps = some false ∧ c.isReady .panics = none := by
  have hlen : c.inputs.length ≠ 0 := mt List.length_eq_zero_iff.mp hin
  have hwraps : Overflow.add .wraps (65535 : U16) 1 = some 0 := by decide
  have hpanics : Overflow.add .panics (65535 : U16) 1 = none := by decide
  unfold isReady
  rw [hlast, hwraps, hpanics]
  exact ⟨by simp [hc, hlen], by simp [hc]⟩

theorem foldlM_frames {ι : Type} (g : ι → Option Frame) (xs : List ι) (acc : Bytes) :
    xs.foldlM (fun data i => (g i).map (fun frame => data ++ frame.data)) acc =
      if ∀ i ∈ xs, (g i).isSome = true then
        some (acc ++ xs.flatMap (fun i => (g i).elim [] Frame.data))
      else none := by
  induction xs generalizing acc with
  | nil => simp
  | cons x xs ih =>
    rw [List.foldlM_cons]
    cases hx : g x with
    | none => simp [hx]
    | some f => simp [ih, hx, List.append_assoc]

theorem frameData_eq (hne : c.inputs ≠ []) :
    c.frameData = if ∀ n ≤ c.lastFrameNumber, n ∈ c.numbers then some c.contents else none := by
  have hnot : c.isEmpty = false := by simpa [isEmpty] using hne
  rw [frameData, if_neg (by simp [hnot]), foldlM_frames]
  simp [complete_iff_range, contents]

/-- What reassembly promises of a channel, in builds with and without overflow
checks. -/
structure Reassembled (c : Channel) : Prop where
  distinct : c.numbers.Nodup
  bounded : c.closed = true → ∀ n ∈ c.numbers, n ≤ c.lastFrameNumber
  ready : ∀ mode, c.isReady mode = some (decide c.Complete)
  data : c.frameData = if c.Complete then some c.contents else none
  sized : c.estimatedSize = totalSize c.inputs

theorem reassembled_closed (h : c.Buffered) (hc : c.closed = true) (hne : c.inputs ≠ []) :
    c.Reassembled ↔ c.lastFrameNumber ≠ 65535 := by
  constructor
  · intro hr hlast
    have := hr.ready .panics
    rw [(isReady_at_max hc hlast hne).2] at this
    cases this
  · intro hlast
    have hlt : c.lastFrameNumber.toNat + 1 < 2 ^ 16 := by
      have hne : c.lastFrameNumber.toNat ≠ 65535 := fun he => hlast (BitVec.eq_of_toNat_eq he)
      omega
    refine ⟨h.distinct, h.last, fun mode => isReady_closed h mode hc hlt, ?_, h.sized⟩
    simp [frameData_eq hne, Complete, hc]

/-- While a channel is open its last number is zero, so its first frame alone
reads as the whole content. -/
theorem reassembled_open (h : c.Buffered) (hc : c.closed = false) (hlast : c.lastFrameNumber = 0) :
    c.Reassembled ↔ 0 ∉ c.numbers := by
  have hnot : ¬c.Complete := by simp [Complete, hc]
  have hdata : c.frameData = none ↔ 0 ∉ c.numbers := by
    by_cases hne : c.inputs = []
    · simp [frameData, isEmpty, numbers, hne]
    · have hzero : (∀ n ≤ c.lastFrameNumber, n ∈ c.numbers) ↔ 0 ∈ c.numbers := by
        rw [hlast]
        constructor
        · exact fun hall => hall 0 (BitVec.le_refl _)
        · intro hin n hn
          have : n = 0 := by bv_omega
          rwa [this]
      rw [frameData_eq hne]
      simp [hzero]
  constructor
  · intro hr
    have := hr.data
    rw [if_neg hnot] at this
    exact hdata.mp this
  · intro hn
    refine ⟨h.distinct, h.last, fun mode => isReady_open mode hc, ?_, h.sized⟩
    rw [if_neg hnot]
    exact hdata.mpr hn

/-- Reassembly keeps its promise exactly if the frame that closes the channel is
not number 65535 and, as long as nothing closes it, no frame zero has arrived.
The sizes subtracted on closing never exceed the estimate. -/
theorem reassembled_iff (id : ChannelId) (b : BlockInfo) (fs : List (Frame × BlockInfo))
    (hid : ∀ e ∈ fs, e.1.id = id) :
    (((new id b).addFrames fs).Reassembled ∧
      ∀ before e after, fs = before ++ e :: after →
        totalSize (((new id b).addFrames before).beyond e.1.number) ≤
          ((new id b).addFrames before).estimatedSize) ↔
    (∀ f, closingFrame (fs.map Prod.fst) = some f → f.number ≠ 65535) ∧
    (closingFrame (fs.map Prod.fst) = none → ∀ e ∈ fs, e.1.number ≠ 0) := by
  have hsizes : ∀ before e after, fs = before ++ e :: after →
      totalSize (((new id b).addFrames before).beyond e.1.number) ≤
        ((new id b).addFrames before).estimatedSize := by
    intro before e after _
    rw [size_split ((buffered_new id b).addFrames before) e.1.number]
    exact Nat.le_add_left _ _
  have hb := (buffered_new id b).addFrames fs
  have hnumbers : ∀ n, n ∈ (new id b).numbers ↔ n ∈ ([] : List U16) := by simp [numbers, new]
  obtain ⟨hsome, hnone⟩ := addFrames_open (buffered_new id b) rfl hnumbers hid
  rw [and_iff_left hsizes]
  cases hclosing : closingFrame (fs.map Prod.fst) with
  | some f =>
    obtain ⟨hc, hl⟩ := hsome f hclosing
    have hne : ((new id b).addFrames fs).inputs ≠ [] := by
      intro hnil
      have hin := last_mem_numbers (c := new id b) (by simp [new]) fs hc
      simp [numbers, hnil] at hin
    rw [reassembled_closed hb hc hne, hl]
    simp
  | none =>
    obtain ⟨hc, hl, hn⟩ := hnone hclosing
    rw [reassembled_open hb hc hl, hn]
    simp

theorem reassembled_two_frames :
    ((new ⟨List.replicate 16 7, rfl⟩ default).addFrames
      [(⟨⟨List.replicate 16 7, rfl⟩, 1, [2], true⟩, default),
       (⟨⟨List.replicate 16 7, rfl⟩, 0, [1], false⟩, default)]).Reassembled :=
  ((reassembled_iff ⟨List.replicate 16 7, rfl⟩ default
    [(⟨⟨List.replicate 16 7, rfl⟩, 1, [2], true⟩, default),
     (⟨⟨List.replicate 16 7, rfl⟩, 0, [1], false⟩, default)] (by decide)).mpr
    ⟨by decide +kernel, by decide +kernel⟩).1

theorem closingFrom_none (h : ∀ f ∈ fs, f.isLast = false) : closingFrom seen fs = none := by
  induction fs generalizing seen with
  | nil => rfl
  | cons f fs ih =>
    rw [closingFrom, if_neg (by simp [h f List.mem_cons_self])]
    exact ih (fun g hg => h g (List.mem_cons_of_mem _ hg))

/-- Empty frames of one channel, numbered from zero. -/
def emptyFrames (id : ChannelId) (count : Nat) : List (Frame × BlockInfo) :=
  (List.range count).map (fun i => (⟨id, BitVec.ofNat 16 i, [], false⟩, default))

theorem mem_emptyFrames {id : ChannelId} :
    e ∈ emptyFrames id count ↔
      ∃ i < count, e = (⟨id, BitVec.ofNat 16 i, [], false⟩, default) := by
  simp [emptyFrames, eq_comm]

/-- Frames zero to 65534 and then the closing frame 65535 make the channel
complete. -/
theorem complete_at_max (id : ChannelId) (b : BlockInfo) :
    let c := (new id b).addFrames (emptyFrames id 65535 ++ [(⟨id, 65535, [], true⟩, default)])
    c.Complete ∧ c.lastFrameNumber = 65535 := by
  have hb := (buffered_new id b).addFrames (emptyFrames id 65535)
  have hid : ∀ e ∈ emptyFrames id 65535, e.1.id = id := by
    intro e he
    obtain ⟨i, _, rfl⟩ := mem_emptyFrames.mp he
    rfl
  have hmore : ∀ f ∈ (emptyFrames id 65535).map Prod.fst, f.isLast = false := by
    intro f hf
    obtain ⟨e, he, rfl⟩ := List.mem_map.mp hf
    obtain ⟨i, _, rfl⟩ := mem_emptyFrames.mp he
    rfl
  have hnumbers : ∀ n, n ∈ (new id b).numbers ↔ n ∈ ([] : List U16) := by simp [numbers, new]
  obtain ⟨hc, _, hn⟩ := (addFrames_open (buffered_new id b) rfl hnumbers hid).2
    (closingFrom_none hmore)
  have hnew : (65535 : U16) ∉ ((new id b).addFrames (emptyFrames id 65535)).numbers := by
    rw [hn]
    rintro (h | ⟨e, he, hnum⟩)
    · cases h
    · obtain ⟨i, hi, rfl⟩ := mem_emptyFrames.mp he
      have := congrArg BitVec.toNat hnum
      rw [BitVec.toNat_ofNat, Nat.mod_eq_of_lt (by omega)] at this
      simp at this
      omega
  obtain ⟨hclosed, hlast, hnumbers⟩ := arrive_closing (e := (⟨id, 65535, [], true⟩, default)) hb hc
    (addFrames_id (new id b) _).symm rfl hnew
  simp only [addFrames_concat]
  refine ⟨⟨hclosed, fun n _ => (hnumbers n).mpr ?_⟩, hlast⟩
  by_cases hmax : n = 65535
  · exact Or.inl hmax
  · have hlt : n < 65535 := by bv_omega
    refine Or.inr ⟨(hn n).mpr (Or.inr ⟨_, mem_emptyFrames.mpr ⟨n.toNat, ?_, rfl⟩, ?_⟩), hlt⟩
    · exact BitVec.lt_def.mp hlt
    · exact (BitVec.ofNat_toNat 16 n).trans (BitVec.setWidth_eq n)

/-- A complete channel of 65536 frames is never ready, and the first frame of an
open channel is already handed out as its content. -/
theorem reassembly_diverges :
    (∃ c, c = (new ⟨List.replicate 16 7, rfl⟩ default).addFrames
        (emptyFrames ⟨List.replicate 16 7, rfl⟩ 65535 ++
          [(⟨⟨List.replicate 16 7, rfl⟩, 65535, [], true⟩, default)]) ∧
      c.Complete ∧ c.isReady .wraps = some false ∧ c.isReady .panics = none) ∧
    (∃ c, c = (new ⟨List.replicate 16 7, rfl⟩ default).addFrames
        [(⟨⟨List.replicate 16 7, rfl⟩, 0, [1], false⟩, default)] ∧
      c.closed = false ∧ c.frameData = some [1]) := by
  constructor
  · obtain ⟨hcomplete, hlast⟩ := complete_at_max ⟨List.replicate 16 7, rfl⟩ default
    exact ⟨_, rfl, hcomplete, isReady_at_max hcomplete.1 hlast hcomplete.inputs_ne_nil⟩
  · exact ⟨_, rfl, by decide +kernel, by decide +kernel⟩

end SciChain.Derive.Channel
