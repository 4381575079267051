import SciChain.Derive.ChannelAssembler
import SciChain.Library.Assoc
import SciChain.Proofs.Reassembly

namespace SciChain.Derive.ChannelAssembler
open Library

variable {mode : Overflow} {cfg : RollupConfig} {calls : List Call} {call : Call}
  {taken : List (Frame × BlockInfo)} {c c' : Channel} {frame : Frame} {origin : BlockInfo}
  {s s' : ChannelAssembler}

/-- An L1 block in which a channel may still be added to. -/
def Timely (cfg : RollupConfig) (opened origin : BlockInfo) : Prop :=
  origin.number.toNat ≤ opened.number.toNat + (cfg.channelTimeoutAt origin.timestamp).toNat

def totalSize : List (Frame × BlockInfo) → Nat
  | [] => 0
  | e :: es => e.1.size + totalSize es

theorem totalSize_concat (es : List (Frame × BlockInfo)) (e : Frame × BlockInfo) :
    totalSize (es ++ [e]) = totalSize es + e.1.size := by
  induction es with
  | nil => simp [totalSize]
  | cons e' es ih => simp only [List.cons_append, totalSize, ih, Nat.add_assoc]

theorem getElem?_concat_some {α : Type} {xs : List α} {x y : α} {i : Nat}
    (h : (xs ++ [x])[i]? = some y) : (i < xs.length ∧ xs[i]? = some y) ∨ i = xs.length ∧ y = x := by
  rcases Nat.lt_trichotomy i xs.length with hi | rfl | hi
  · rw [List.getElem?_append_left hi] at h
    exact Or.inl ⟨hi, h⟩
  · rw [List.getElem?_concat_length] at h
    exact Or.inr ⟨rfl, (Option.some.inj h).symm⟩
  · rw [List.getElem?_eq_none (by simp; omega)] at h
    cases h

/-- A frame that is not below the others closes an open channel if it is the last, and removes
nothing. -/
theorem closed_by {d : Channel} (hopen : c.closed = false)
    (hnot : ¬frame.number < c.highestFrameNumber)
    (hd : d = if frame.isLast = true then c.close frame.number else c) :
    d.inputs = c.inputs ∧ d.estimatedSize = c.estimatedSize ∧
      d.highestFrameNumber = c.highestFrameNumber ∧ (d.closed = true ↔ frame.isLast = true) ∧
      (d.closed = true → d.lastFrameNumber = frame.number) ∧ d.openBlock = c.openBlock := by
  subst hd
  by_cases hl : frame.isLast = true
  · rw [if_pos hl, Channel.close, if_neg hnot]
    exact ⟨rfl, rfl, rfl, ⟨fun _ => hl, fun _ => rfl⟩, fun _ => rfl, rfl⟩
  · rw [if_neg hl]
    have hstill : ¬c.closed = true := by rw [hopen]; exact Bool.false_ne_true
    exact ⟨rfl, rfl, rfl, iff_of_false hstill hl, fun hc => absurd hc hstill, rfl⟩

/-- The frames that a channel consists of, in the order they were added. -/
structure Content (cfg : RollupConfig) (taken : List (Frame × BlockInfo)) (c : Channel) : Prop where
  opened : ∀ e, taken.head? = some e → e.2 = c.openBlock
  ordered : ∀ (i : Nat) (e : Frame × BlockInfo), taken[i]? = some e → e.1.number.toNat = i
  lasts : ∀ (i : Nat) (e : Frame × BlockInfo), taken[i]? = some e →
    (e.1.isLast = true ↔ c.closed = true ∧ i + 1 = taken.length)
  named : ∀ e ∈ taken, e.1.id = c.id
  timely : ∀ e ∈ taken, Timely cfg c.openBlock e.2
  inputs : c.inputs = (taken.map fun e => (e.1.number, e.1)).reverse
  sized : c.estimatedSize = totalSize taken
  highest : c.highestFrameNumber.toNat ≤ taken.length
  last : c.closed = true → c.lastFrameNumber.toNat + 1 = taken.length

theorem content_new (cfg : RollupConfig) (id : ChannelId) (origin : BlockInfo) :
    Content cfg [] (Channel.new id origin) where
  opened := by simp
  ordered := by simp
  lasts := by simp
  named := by simp
  timely := by simp
  inputs := rfl
  sized := rfl
  highest := Nat.le_refl 0
  last h := by cases h

namespace Content

section

variable (h : Content cfg taken c)
include h

theorem length_eq : c.len = taken.length := by
  rw [Channel.len, h.inputs, List.length_reverse, List.length_map]

theorem add (hopen : c.closed = false) (hnumber : frame.number.toNat = taken.length)
    (htimely : Timely cfg c.openBlock origin) (hfirst : taken = [] → origin = c.openBlock)
    (hadd : c.addFrame frame origin = .ok c') :
    Content cfg (taken ++ [(frame, origin)]) c' ∧ c'.openBlock = c.openBlock := by
  have hnot : ¬frame.number < c.highestFrameNumber := by
    rw [BitVec.lt_def]
    have := h.highest
    omega
  obtain ⟨hid, -, -, -, hid', d, hd, hinputs, hclosed, hlast, hsize, hhighest⟩ :=
    Channel.addFrame_cases hadd
  obtain ⟨hdi, hds, hdh, hdc, hdl, hdo⟩ := closed_by hopen hnot hd
  have hopened : c'.openBlock = c.openBlock := by
    simp only [Channel.addFrame, reject_bind_ok, pure_eq, Except.ok.injEq] at hadd
    obtain ⟨-, -, -, -, rfl⟩ := hadd
    rw [← hdo, hd]
  refine ⟨⟨?_, ?_, ?_, ?_, ?_, ?_, ?_, ?_, ?_⟩, hopened⟩
  · intro e he
    rw [hopened]
    cases taken with
    | nil =>
      cases he
      exact hfirst rfl
    | cons e' es => exact h.opened e he
  · intro i e he
    rcases getElem?_concat_some he with ⟨-, he⟩ | ⟨rfl, rfl⟩
    · exact h.ordered i e he
    · exact hnumber
  · intro i e he
    rw [hclosed, List.length_append, List.length_singleton]
    rcases getElem?_concat_some he with ⟨hi, he⟩ | ⟨rfl, rfl⟩
    · have hearlier : ¬e.1.isLast = true := by
        rw [h.lasts i e he, hopen]
        simp
      exact ⟨fun hl => absurd hl hearlier, fun hi' => absurd hi'.2 (by omega)⟩
    · rw [hdc]
      simp
  · rw [hid']
    exact List.forall_mem_append.mpr ⟨h.named, List.forall_mem_singleton.mpr hid⟩
  · rw [hopened]
    exact List.forall_mem_append.mpr ⟨h.timely, List.forall_mem_singleton.mpr htimely⟩
  · rw [hinputs, hdi, h.inputs, List.map_append, List.reverse_append]
    rfl
  · rw [hsize, hds, h.sized, totalSize_concat]
  · rw [hhighest, hdh, List.length_append, List.length_singleton]
    have := h.highest
    split
    · omega
    · omega
  · intro hc
    rw [hclosed] at hc
    rw [hlast, hdl hc, hnumber, List.length_append, List.length_singleton]

theorem numbers_eq : taken.map (fun e => e.1.number.toNat) = List.range taken.length := by
  apply List.ext_getElem?
  intro i
  rw [List.getElem?_map]
  cases he : taken[i]? with
  | none => rw [List.getElem?_eq_none (by simpa using List.getElem?_eq_none_iff.mp he)]; rfl
  | some e =>
    have hi := (List.getElem?_eq_some_iff.mp he).1
    rw [List.getElem?_range hi, Option.map_some, h.ordered i e he]

theorem frame?_eq (he : taken[i]? = some e) : c.frame? (BitVec.ofNat 16 i) = some e.1 := by
  have hkeys : keys c.inputs = (taken.map fun e => e.1.number).reverse := by
    rw [h.inputs, keys, List.map_reverse, List.map_map]
    rfl
  have hnodup : (keys c.inputs).Nodup := by
    rw [hkeys, List.nodup_reverse]
    refine List.Nodup.of_map BitVec.toNat ?_
    rw [List.map_map, show (BitVec.toNat ∘ fun e : Frame × BlockInfo => e.1.number) =
      fun e => e.1.number.toNat from rfl, h.numbers_eq]
    exact List.nodup_range
  have hname : BitVec.ofNat 16 i = e.1.number := by
    rw [← h.ordered i e he, BitVec.ofNat_toNat, BitVec.setWidth_eq]
  rw [Channel.frame?, lookup_eq_some_iff_mem hnodup, h.inputs, List.mem_reverse, hname]
  exact List.mem_map.mpr ⟨e, List.mem_of_getElem? he, rfl⟩

theorem frameData_eq (hclosed : c.closed = true) (hne : taken ≠ []) :
    c.frameData = some (taken.flatMap fun e => e.1.data) := by
  have hlast := h.last hclosed
  have hinputs : c.inputs ≠ [] := by
    rw [h.inputs]
    simpa using hne
  have hall : ∀ i ∈ List.range (c.lastFrameNumber.toNat + 1),
      (c.frame? (BitVec.ofNat 16 i)).isSome = true := by
    intro i hi
    rw [List.mem_range, hlast] at hi
    rw [h.frame?_eq (List.getElem?_eq_getElem hi)]
    rfl
  rw [Channel.frameData_eq hinputs, if_pos (Channel.complete_iff_range.mpr hall),
    Channel.contents, hlast, List.flatMap_def, List.flatMap_def]
  congr 2
  apply List.ext_getElem?
  intro i
  rw [List.getElem?_map, List.getElem?_map]
  cases he : taken[i]? with
  | none => rw [List.getElem?_eq_none (by simpa using List.getElem?_eq_none_iff.mp he)]; rfl
  | some e =>
    have hi := (List.getElem?_eq_some_iff.mp he).1
    rw [List.getElem?_range hi, Option.map_some, h.frame?_eq he]
    rfl

/-- A channel that is closed and not ready has no room for another number. -/
theorem full_of_not_ready (hready : c.isReady mode = some false)
    (hclosed : c.closed = true) : taken.length = 2 ^ 16 := by
  by_contra hshort
  have hlast := h.last hclosed
  have hadd : mode.add c.lastFrameNumber 1 = some (c.lastFrameNumber + 1) :=
    mode.add_of_lt (by rw [show (1 : U16).toNat = 1 from rfl]; omega)
  have hsucc : (c.lastFrameNumber + 1).toNat = taken.length := by
    rw [BitVec.toNat_add, show (1 : U16).toNat = 1 from rfl, Nat.mod_eq_of_lt (by omega), hlast]
  have hlen : c.inputs.length = taken.length := h.length_eq
  simp only [Channel.isReady, hclosed, not_true_eq_false, if_false, hadd, Option.bind_eq_bind,
    Option.bind_some, hsucc, hlen, ne_eq, Option.some.injEq, List.all_eq_false,
    List.mem_range] at hready
  obtain ⟨i, hi, hnone⟩ := hready
  rw [hlast] at hi
  exact hnone (by rw [h.frame?_eq (List.getElem?_eq_getElem hi)]; rfl)

end

theorem closed_of_ready (hready : c.isReady mode = some true) : c.closed = true := by
  by_contra hopen
  rw [Channel.isReady, if_pos hopen] at hready
  cases hready

end Content

/-- Frames that were received in these calls, from the first one on, with no other
first frame since. -/
structure Since (calls : List Call) (taken : List (Frame × BlockInfo)) : Prop where
  first : taken.head? = calls.head?.bind Call.received
  nonempty : taken ≠ []
  fresh : ∀ call ∈ calls.tail, ∀ e, call.received = some e → e.1.number ≠ 0
  sublist : taken.Sublist (calls.filterMap Call.received)

namespace Since

theorem single {e : Frame × BlockInfo} (h : call.received = some e) : Since [call] [e] where
  first := h.symm
  nonempty := List.cons_ne_nil _ _
  fresh := by simp
  sublist := by simp [h]

theorem calls_ne_nil (h : Since calls taken) : calls ≠ [] := by
  rintro rfl
  exact h.nonempty (List.head?_eq_none_iff.mp h.first)

theorem skip (h : Since calls taken) (hnew : ∀ e, call.received = some e → e.1.number ≠ 0) :
    Since (calls ++ [call]) taken where
  first := by
    rw [h.first, List.head?_append_of_ne_nil _ h.calls_ne_nil]
  nonempty := h.nonempty
  fresh := by
    rw [List.tail_append_of_ne_nil h.calls_ne_nil]
    exact List.forall_mem_append.mpr ⟨h.fresh, List.forall_mem_singleton.mpr hnew⟩
  sublist := by
    rw [List.filterMap_append]
    exact h.sublist.trans (List.sublist_append_left _ _)

theorem add (h : Since calls taken) {e : Frame × BlockInfo} (he : call.received = some e)
    (hnew : e.1.number ≠ 0) : Since (calls ++ [call]) (taken ++ [e]) where
  first := by
    rw [List.head?_append_of_ne_nil _ h.nonempty, List.head?_append_of_ne_nil _ h.calls_ne_nil,
      h.first]
  nonempty := by simp
  fresh := (h.skip fun e' he' => by
    rw [he] at he'
    rw [← Option.some.inj he']
    exact hnew).fresh
  sublist := by
    rw [List.filterMap_append]
    refine h.sublist.append ?_
    simp [he]

end Since

/-- What an emitted string is made of: all frames of one channel in order, the
last one marked so, each in time, together within the limit. -/
structure Emitted (cfg : RollupConfig) (calls : List Call) (taken : List (Frame × BlockInfo))
    (data : Bytes) : Prop where
  since : Since calls taken
  last : taken.getLast? = calls.getLast?.bind Call.received
  data_eq : data = taken.flatMap fun e => e.1.data
  named : ∃ id, ∀ e ∈ taken, e.1.id = id
  ordered : ∀ (i : Nat) (e : Frame × BlockInfo), taken[i]? = some e →
    e.1.number.toNat = i ∧ (e.1.isLast = true ↔ i + 1 = taken.length)
  timely : ∀ opening, taken.head? = some opening → ∀ e ∈ taken, Timely cfg opening.2 e.2
  sized : ∀ e, taken.getLast? = some e →
    totalSize taken ≤ cfg.maxRlpBytesPerChannel e.2.timestamp

/-- What can become of a frame that is given to a channel. -/
theorem addFrame_cases {r : PipelineResult (Option Bytes)} (h : Content cfg taken c)
    (hfull : c.closed = true → taken.length = 2 ^ 16) (htimely : Timely cfg c.openBlock origin)
    (hfirst : taken = [] → c = Channel.new frame.id origin ∧ frame.number = 0)
    (hadd : addFrame mode cfg origin frame c = some (r, s')) :
    (s' = ⟨some c⟩ ∧ taken ≠ [] ∧ ∃ e, r = .error e) ∨ (s' = new ∧ ∃ e, r = .error e) ∨
      ∃ c', Content cfg (taken ++ [(frame, origin)]) c' ∧ frame.number.toNat = taken.length ∧
        ((s' = ⟨some c'⟩ ∧ (∃ e, r = .error e) ∧
            (c'.closed = true → (taken ++ [(frame, origin)]).length = 2 ^ 16)) ∨
          (s' = new ∧ c'.closed = true ∧
            r = .ok (some ((taken ++ [(frame, origin)]).flatMap fun e => e.1.data)) ∧
            totalSize (taken ++ [(frame, origin)]) ≤
              cfg.maxRlpBytesPerChannel origin.timestamp)) := by
  obtain ⟨-, -, hadd⟩ := Option.bind_eq_some_iff.mp hadd
  rw [h.length_eq] at hadd
  split at hadd
  · rename_i hnumber
    cases hadd
    refine Or.inl ⟨rfl, ?_, _, rfl⟩
    rintro rfl
    exact hnumber (by rw [(hfirst rfl).2]; rfl)
  · rename_i hnumber
    rw [ne_eq, not_not] at hnumber
    split at hadd
    · rename_i e he
      cases hadd
      refine Or.inl ⟨rfl, ?_, _, rfl⟩
      rintro rfl
      obtain ⟨rfl, hzero⟩ := hfirst rfl
      simp [Channel.addFrame, Channel.new, Channel.frame?, reject, bind, Except.bind, pure,
        Except.pure] at he
    · rename_i c' hc'
      have hopen : c.closed = false := by
        rw [← Bool.not_eq_true]
        intro hclosed
        have := hfull hclosed
        omega
      have hcontent :=
        (h.add hopen hnumber htimely (fun hnil => by rw [(hfirst hnil).1]; rfl) hc').1
      have hne : taken ++ [(frame, origin)] ≠ [] := by simp
      unfold forward at hadd
      split at hadd
      · cases hadd
        exact Or.inr (Or.inl ⟨rfl, _, rfl⟩)
      · rename_i hsize
        obtain ⟨ready, hready, hout⟩ := Option.map_eq_some_iff.mp hadd
        refine Or.inr (Or.inr ⟨c', hcontent, hnumber, ?_⟩)
        cases ready with
        | false =>
          cases hout
          exact Or.inl ⟨rfl, ⟨_, rfl⟩, hcontent.full_of_not_ready hready⟩
        | true =>
          have hclosed := Content.closed_of_ready hready
          simp only [if_true, hcontent.frameData_eq hclosed hne, Prod.mk.injEq] at hout
          refine Or.inr ⟨hout.2.symm, hclosed, hout.1.symm, ?_⟩
          rw [← hcontent.sized]
          exact Nat.le_of_not_lt hsize

theorem run_concat (mode : Overflow) (cfg : RollupConfig) (calls : List Call) (call : Call) :
    run mode cfg (calls ++ [call]) = (run mode cfg calls).bind fun s =>
      (nextData mode cfg call.origin call.next s).map Prod.snd := by
  rw [run, List.foldlM_append]
  simp [run]

theorem run_concat_of (hrun : run mode cfg calls = some s)
    (h : nextData mode cfg call.origin call.next s = some (r, s')) :
    run mode cfg (calls ++ [call]) = some s' := by
  rw [run_concat, hrun, Option.bind_some, h]
  rfl

/-- The channel of the stage comes from the calls since its first frame, which
alone lead to the same state. -/
def Held (mode : Overflow) (cfg : RollupConfig) (calls : List Call) (s : ChannelAssembler) : Prop :=
  ∀ c, s.channel = some c → ∃ before rest taken, calls = before ++ rest ∧
    run mode cfg rest = some s ∧ Since rest taken ∧ Content cfg taken c ∧
    (c.closed = true → taken.length = 2 ^ 16)

theorem toNat_le_of_add (h : mode.add a b = some sum) : sum.toNat ≤ a.toNat + b.toNat := by
  have hle : (a + b).toNat ≤ a.toNat + b.toNat := by
    rw [BitVec.toNat_add]
    exact Nat.mod_le _ _
  unfold Overflow.add at h
  split at h
  · rwa [← Option.some.inj h]
  · cases mode with
    | panics => cases h
    | wraps => rwa [← Option.some.inj h]

theorem timely_of_not_timedOut
    (h : isTimedOut mode cfg origin (some c) = some false) : Timely cfg c.openBlock origin := by
  obtain ⟨last, hlast, hle⟩ := Option.map_eq_some_iff.mp h
  have hlast' : last.toNat ≤
      c.openBlockNumber.toNat + (cfg.channelTimeoutAt origin.timestamp).toNat :=
    toNat_le_of_add hlast
  have hle' := of_decide_eq_false hle
  rw [BitVec.lt_def] at hle'
  unfold Timely
  rw [Channel.openBlockNumber] at hlast'
  omega

theorem emitted_of_content (hsince : Since (rest ++ [call]) (taken ++ [(frame, origin)]))
    (hcall : call.received = some (frame, origin))
    (hcontent : Content cfg (taken ++ [(frame, origin)]) c) (hclosed : c.closed = true)
    (hsize : totalSize (taken ++ [(frame, origin)]) ≤ cfg.maxRlpBytesPerChannel origin.timestamp) :
    Emitted cfg (rest ++ [call]) (taken ++ [(frame, origin)])
      ((taken ++ [(frame, origin)]).flatMap fun e => e.1.data) where
  since := hsince
  last := by simp [hcall]
  data_eq := rfl
  named := ⟨c.id, hcontent.named⟩
  ordered i e he := ⟨hcontent.ordered i e he, by simpa [hclosed] using hcontent.lasts i e he⟩
  timely opening hopening := by
    rw [hcontent.opened opening hopening]
    exact hcontent.timely
  sized e he := by
    rw [List.getLast?_concat] at he
    rw [← Option.some.inj he]
    exact hsize

/-- The calls end with one that emits the data. -/
def Emits (cfg : RollupConfig) (calls : List Call) (s : ChannelAssembler)
    (r : PipelineResult (Option Bytes)) : Prop :=
  ∀ data, r = .ok (some data) → s = new ∧
    ∃ before rest taken, calls = before ++ rest ∧ Emitted cfg rest taken data

theorem emits_error : Emits cfg calls s (.error e) := by
  intro data h
  cases h

theorem held_new : Held mode cfg calls new := by
  intro c hc
  cases hc

theorem eq_of_received (h : call.received = some (frame, origin)) :
    call = ⟨some origin, .ok frame⟩ := by
  obtain ⟨origin', next⟩ := call
  cases origin' with
  | none => cases h
  | some o =>
    cases next with
    | error e => cases h
    | ok f =>
      cases h
      rfl

theorem nextData_first (hcall : call.received = some (frame, origin)) (hnumber : frame.number = 0)
    (h : nextData mode cfg call.origin call.next s = some (r, s')) :
    nextData mode cfg call.origin call.next new = some (r, s') ∧
      addFrame mode cfg origin frame (Channel.new frame.id origin) = some (r, s') := by
  rw [eq_of_received hcall] at h ⊢
  obtain ⟨timedOut, -, hnext⟩ := Option.bind_eq_some_iff.mp h
  have hcurrent : ∀ channel, current origin frame channel = some (Channel.new frame.id origin) :=
    fun _ => if_pos hnumber
  simp only [hcurrent] at hnext
  refine ⟨?_, hnext⟩
  simp only [nextData, new, isTimedOut, Option.bind_some, hcurrent]
  exact hnext

/-- The ways in which a call makes the stage forget its channel: one that is timed out, or
replaced by a first frame, has no part in the call, and one that grows too large is dropped. -/
structure Forgets (mode : Overflow) (cfg : RollupConfig) (s : ChannelAssembler) (call : Call)
    (r : PipelineResult (Option Bytes)) (s' : ChannelAssembler) : Prop where
  timeout : ∀ origin c, call.origin = some origin → s.channel = some c →
    ¬Timely cfg c.openBlock origin → nextData mode cfg call.origin call.next new = some (r, s')
  replaced : ∀ frame origin, call.received = some (frame, origin) → frame.number = 0 →
    nextData mode cfg call.origin call.next new = some (r, s')
  oversized : ∀ frame origin c c', call.received = some (frame, origin) →
    current origin frame s.channel = some c → frame.number.toNat = c.len →
    c.addFrame frame origin = .ok c' → cfg.maxRlpBytesPerChannel origin.timestamp < c'.size →
    s' = new

theorem addFrame_oversized (hnumber : frame.number.toNat = c.len)
    (hadd : c.addFrame frame origin = .ok c')
    (hsize : cfg.maxRlpBytesPerChannel origin.timestamp < c'.size)
    (h : addFrame mode cfg origin frame c = some (r, s')) : s' = new := by
  obtain ⟨last, -, h⟩ := Option.bind_eq_some_iff.mp h
  rw [if_neg (not_not.mpr hnumber), hadd] at h
  dsimp only at h
  rw [forward, if_pos hsize] at h
  exact (Prod.mk.inj (Option.some.inj h)).2.symm

theorem nextData_forgets (h : nextData mode cfg call.origin call.next s = some (r, s')) :
    Forgets mode cfg s call r s' where
  timeout origin c horigin hchannel htimely := by
    rw [horigin] at h ⊢
    obtain ⟨timedOut, htimed, hnext⟩ := Option.bind_eq_some_iff.mp h
    rw [hchannel] at htimed
    cases timedOut with
    | false => exact absurd (timely_of_not_timedOut htimed) htimely
    | true => exact hnext
  replaced frame origin hcall hnumber := (nextData_first hcall hnumber h).1
  oversized frame origin c c' hcall hcurrent hnumber hadd hsize := by
    rw [eq_of_received hcall] at h
    obtain ⟨timedOut, -, hnext⟩ := Option.bind_eq_some_iff.mp h
    unfold current at hcurrent
    split at hcurrent
    · rename_i hzero
      cases hcurrent
      simp only [current, if_pos hzero] at hnext
      exact addFrame_oversized hnumber hadd hsize hnext
    · rename_i hzero
      simp only [current, if_neg hzero, hcurrent] at hnext
      cases timedOut with
      | true => exact (Prod.mk.inj (Option.some.inj hnext)).2.symm
      | false => exact addFrame_oversized hnumber hadd hsize hnext

theorem step_first (hcall : call.received = some (frame, origin)) (hnumber : frame.number = 0)
    (h : nextData mode cfg call.origin call.next s = some (r, s')) :
    Held mode cfg (calls ++ [call]) s' ∧ Emits cfg (calls ++ [call]) s' r := by
  obtain ⟨hnew, hadd⟩ := nextData_first hcall hnumber h
  have hsince : Since ([] ++ [call]) ([] ++ [(frame, origin)]) := Since.single hcall
  have hrun : run mode cfg ([] ++ [call]) = some s' := run_concat_of rfl hnew
  have htimely : Timely cfg (Channel.new frame.id origin).openBlock origin := Nat.le_add_right _ _
  rcases addFrame_cases (content_new cfg frame.id origin) nofun htimely
    (fun _ => ⟨rfl, hnumber⟩) hadd with ⟨-, hne, -⟩ | ⟨rfl, e, rfl⟩ |
    ⟨c', hcontent, -, ⟨rfl, ⟨e, rfl⟩, hfull⟩ | ⟨rfl, hclosed, rfl, hsize⟩⟩
  · exact absurd rfl hne
  · exact ⟨held_new, emits_error⟩
  · refine ⟨fun c hc => ?_, emits_error⟩
    cases hc
    exact ⟨calls, _, _, rfl, hrun, hsince, hcontent, hfull⟩
  · refine ⟨held_new, fun data hdata => ?_⟩
    cases Except.ok.inj hdata
    exact ⟨rfl, calls, _, _, rfl, emitted_of_content hsince hcall hcontent hclosed hsize⟩

/-- Any other frame, or none, leaves the channel, adds to it or ends it. -/
theorem step_other (hheld : Held mode cfg calls s)
    (hcall : ∀ e, call.received = some e → e.1.number ≠ 0)
    (h : nextData mode cfg call.origin call.next s = some (r, s')) :
    Held mode cfg (calls ++ [call]) s' ∧ Emits cfg (calls ++ [call]) s' r := by
  have hkept : s' = s → (∃ e, r = .error e) →
      Held mode cfg (calls ++ [call]) s' ∧ Emits cfg (calls ++ [call]) s' r := by
    rintro rfl ⟨e, rfl⟩
    refine ⟨fun c hc => ?_, emits_error⟩
    obtain ⟨before, rest, taken, rfl, hrun, hsince, hcontent, hfull⟩ := hheld c hc
    exact ⟨before, rest ++ [call], taken, List.append_assoc .., run_concat_of hrun h,
      hsince.skip hcall, hcontent, hfull⟩
  have hgone : s' = new → (∃ e, r = .error e) →
      Held mode cfg (calls ++ [call]) s' ∧ Emits cfg (calls ++ [call]) s' r := by
    rintro rfl ⟨e, rfl⟩
    exact ⟨held_new, emits_error⟩
  obtain ⟨origin', next⟩ := call
  cases origin' with
  | none =>
    obtain ⟨hr, hs⟩ := Prod.mk.inj (Option.some.inj h)
    exact hkept hs.symm ⟨_, hr.symm⟩
  | some origin =>
    obtain ⟨timedOut, htimed, hnext⟩ := Option.bind_eq_some_iff.mp h
    obtain ⟨channel⟩ := s
    -- A channel that timed out is as good as none.
    cases hchannel : (if timedOut then none else channel) with
    | none =>
      simp only [hchannel] at hnext
      cases next with
      | error e =>
        obtain ⟨hr, hs⟩ := Prod.mk.inj (Option.some.inj hnext)
        exact hgone hs.symm ⟨_, hr.symm⟩
      | ok frame =>
        simp only [current, if_neg (hcall (frame, origin) rfl)] at hnext
        obtain ⟨hr, hs⟩ := Prod.mk.inj (Option.some.inj hnext)
        exact hgone hs.symm ⟨_, hr.symm⟩
    | some c =>
      have hfalse : timedOut = false := by
        cases timedOut with
        | false => rfl
        | true => cases hchannel
      subst hfalse
      obtain rfl : channel = some c := hchannel
      cases next with
      | error e =>
        obtain ⟨hr, hs⟩ := Prod.mk.inj (Option.some.inj hnext)
        exact hkept hs.symm ⟨_, hr.symm⟩
      | ok frame =>
        have hnumber : frame.number ≠ 0 := hcall (frame, origin) rfl
        simp only [Bool.false_eq_true, if_false, current, if_neg hnumber] at hnext
        obtain ⟨before, rest, taken, rfl, hrun, hsince, hcontent, hfull⟩ := hheld c rfl
        have hadded : Since (rest ++ [⟨some origin, .ok frame⟩]) (taken ++ [(frame, origin)]) :=
          hsince.add rfl hnumber
        rcases addFrame_cases hcontent hfull (timely_of_not_timedOut htimed)
          (fun hnil => absurd hnil hsince.nonempty) hnext with ⟨hs, -, herror⟩ | ⟨hs, herror⟩ |
          ⟨c', hcontent', -, ⟨rfl, ⟨e, rfl⟩, hfull'⟩ | ⟨rfl, hclosed, rfl, hsize⟩⟩
        · exact hkept hs herror
        · exact hgone hs herror
        · refine ⟨fun c hc => ?_, emits_error⟩
          cases hc
          exact ⟨before, _, _, List.append_assoc .., run_concat_of hrun h, hadded, hcontent',
            hfull'⟩
        · refine ⟨held_new, fun data hdata => ?_⟩
          cases Except.ok.inj hdata
          exact ⟨rfl, before, _, _, List.append_assoc ..,
            emitted_of_content hadded rfl hcontent' hclosed hsize⟩

theorem step_held (hheld : Held mode cfg calls s)
    (h : nextData mode cfg call.origin call.next s = some (r, s')) :
    Held mode cfg (calls ++ [call]) s' ∧ Emits cfg (calls ++ [call]) s' r := by
  by_cases hfirst : ∃ e, call.received = some e ∧ e.1.number = 0
  · obtain ⟨⟨frame, origin⟩, hcall, hnumber⟩ := hfirst
    exact step_first hcall hnumber h
  · exact step_other hheld (fun e he hnumber => hfirst ⟨e, he, hnumber⟩) h

theorem run_held (hrun : run mode cfg calls = some s) : Held mode cfg calls s := by
  induction calls using List.reverseRecOn generalizing s with
  | nil =>
    cases hrun
    exact held_new
  | append_singleton calls call ih =>
    rw [run_concat] at hrun
    obtain ⟨s₀, hs₀, hnext⟩ := Option.bind_eq_some_iff.mp hrun
    obtain ⟨⟨r, s'⟩, hout, rfl⟩ := Option.map_eq_some_iff.mp hnext
    exact (step_held (ih hs₀) hout).1

/-- Whatever was received before, an emitted string is made of the frames of one
channel, and the stage that a call leaves is that of the calls since the first
frame of the channel it still holds. A channel that is emitted, timed out, replaced or
oversized is forgotten. -/
theorem assembled_output {r : PipelineResult (Option Bytes)} (hrun : run mode cfg calls = some s)
    (h : nextData mode cfg call.origin call.next s = some (r, s')) :
    (∀ data, r = .ok (some data) → s' = new ∧ ∃ before rest taken,
      calls ++ [call] = before ++ rest ∧ Emitted cfg rest taken data) ∧
    Forgets mode cfg s call r s' ∧
    (s' = new ∨ ∃ before rest taken, calls ++ [call] = before ++ rest ∧ Since rest taken ∧
      run mode cfg rest = some s') := by
  obtain ⟨hheld, hemits⟩ := step_held (run_held hrun) h
  refine ⟨hemits, nextData_forgets h, ?_⟩
  obtain ⟨channel⟩ := s'
  cases channel with
  | none => exact Or.inl rfl
  | some c =>
    obtain ⟨before, rest, taken, hcalls, hrest, hsince, -, -⟩ := hheld c rfl
    exact Or.inr ⟨before, rest, taken, hcalls, hsince, hrest⟩

def sampleConfig : RollupConfig := .withUpgrades ⟨none, none, none, none, none, some 0, none, none⟩

/-- A frame of the channel whose id repeats a byte. -/
def sampleFrame (id : UInt8) (number : U16) (data : Bytes) (isLast : Bool) : Frame :=
  ⟨⟨List.replicate 16 id, List.length_replicate⟩, number, data, isLast⟩

def sampleCall (number : U64) (f : Frame) : Call := ⟨some ⟨1, number, 0, 1000⟩, .ok f⟩

/-- An unfinished channel, a second one that replaces it, and a frame of a third. -/
def sampleCalls : List Call :=
  [sampleCall 100 (sampleFrame 6 0 [5] false), sampleCall 110 (sampleFrame 7 0 [1] false),
    sampleCall 120 (sampleFrame 8 1 [9] false)]

/-- The last frame of the second channel. -/
def lastCall (number : U64) : Call := sampleCall number (sampleFrame 7 1 [2] true)

/-- The channel is finished in time, or its last frame finds it timed out. -/
theorem assembled_output_after_others :
    (∃ before rest taken, sampleCalls ++ [lastCall 160] = before ++ rest ∧
      Emitted sampleConfig rest taken [1, 2]) ∧
    nextData .panics sampleConfig (lastCall 161).origin (lastCall 161).next new =
      some (.error PipelineError.notEnoughData.temp, new) := by
  have hrun : ∃ s, run .panics sampleConfig sampleCalls = some s ∧
      s.channel.map Channel.openBlock = some ⟨1, 110, 0, 1000⟩ ∧
      nextData .panics sampleConfig (lastCall 160).origin (lastCall 160).next s =
        some (.ok (some [1, 2]), new) ∧
      nextData .panics sampleConfig (lastCall 161).origin (lastCall 161).next s =
        some (.error PipelineError.notEnoughData.temp, new) := ⟨_, rfl, rfl, rfl, rfl⟩
  obtain ⟨s, hs, hopen, hemits, htimeout⟩ := hrun
  obtain ⟨c, hc, hblock⟩ := Option.map_eq_some_iff.mp hopen
  refine ⟨((assembled_output hs hemits).1 [1, 2] rfl).2,
    (assembled_output hs htimeout).2.1.timeout _ c rfl hc ?_⟩
  rw [hblock]
  unfold Timely
  decide

/-- Two frames of one channel are put together although one of another channel
arrived between them. -/
theorem emitted_not_consecutive :
    (run .panics sampleConfig [sampleCall 100 (sampleFrame 7 0 [1] false),
        sampleCall 100 (sampleFrame 8 1 [9] false)]).bind
      (nextData .panics sampleConfig (some ⟨1, 100, 0, 1000⟩) (.ok (sampleFrame 7 1 [2] true))) =
      some (.ok (some [1, 2]), new) := by
  rfl

end SciChain.Derive.ChannelAssembler
