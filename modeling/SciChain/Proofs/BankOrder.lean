import SciChain.Derive.ChannelBank
import SciChain.Library.Assoc
import SciChain.Proofs.Reassembly

namespace SciChain.Derive.ChannelBank
open Library

/-! A bank is a line of channels: the one that arrived first stands first. -/

/-- The bank holds exactly these channels, in this order. -/
structure Holds (bank : ChannelBank) (held : List Channel) : Prop where
  queue : bank.channelQueue = held.map Channel.id
  entries : bank.channels.Perm (held.map fun c => (c.id, c))
  distinct : (held.map Channel.id).Nodup

def total : List Channel → Nat
  | [] => 0
  | c :: held => c.size + total held

/-- The line without its first channels, as many as must go to get below `max`. -/
def shorten (max : Nat) : List Channel → List Channel
  | [] => []
  | c :: held => if max < total (c :: held) then shorten max held else c :: held

theorem total_shorten (max : Nat) (held : List Channel) : total (shorten max held) ≤ max := by
  induction held with
  | nil => exact Nat.zero_le _
  | cons c held ih =>
    unfold shorten
    split
    · exact ih
    · omega

theorem shorten_suffix (max : Nat) (held : List Channel) : shorten max held <:+ held := by
  induction held with
  | nil => exact List.suffix_refl _
  | cons c held ih =>
    unfold shorten
    split
    · exact ih.trans (List.suffix_cons c held)
    · exact List.suffix_refl _

/-- The line with `c` in the place of the channel of `id`. -/
def replace (id : ChannelId) (c : Channel) (held : List Channel) : List Channel :=
  held.map fun d => if d.id = id then c else d

theorem map_id_replace {id : ChannelId} (hid : c.id = id) (held : List Channel) :
    (replace id c held).map Channel.id = held.map Channel.id := by
  rw [replace, List.map_map]
  apply List.map_congr_left
  intro d _
  simp only [Function.comp_apply]
  split
  · rename_i he
    rw [hid, he]
  · rfl

theorem nodup_concat (hd : (held.map Channel.id).Nodup) (hnew : c.id ∉ held.map Channel.id) :
    ((held ++ [c]).map Channel.id).Nodup := by
  rw [List.map_append, List.map_singleton]
  exact (List.perm_append_singleton _ _).nodup_iff.mpr (List.nodup_cons.mpr ⟨hnew, hd⟩)

theorem total_perm_entries (xs : List (ChannelId × Channel)) (acc : Nat) :
    xs.foldl (fun acc e => acc + e.2.size) acc = acc + total (xs.map Prod.snd) := by
  induction xs generalizing acc with
  | nil => rfl
  | cons e xs ih => rw [List.foldl_cons, ih, List.map_cons, total, Nat.add_assoc]

theorem total_perm (h : l.Perm l') : total l = total l' := by
  induction h with
  | nil => rfl
  | cons c _ ih => rw [total, total, ih]
  | swap a b l =>
    simp only [total]
    omega
  | trans _ _ ih₁ ih₂ => exact ih₁.trans ih₂

namespace Holds

variable {bank : ChannelBank} {held : List Channel}

section

variable (h : Holds bank held)
include h

theorem keys_eq : (keys bank.channels).Perm bank.channelQueue := by
  have hperm := keys_perm h.entries
  rw [h.queue]
  rwa [keys, keys, List.map_map] at hperm

theorem nodup_keys : (keys bank.channels).Nodup := by
  rw [h.keys_eq.nodup_iff, h.queue]
  exact h.distinct

theorem size_eq : bank.size = total held := by
  have hperm := total_perm (h.entries.map Prod.snd)
  rw [List.map_map] at hperm
  rw [size, total_perm_entries, Nat.zero_add, hperm]
  exact congrArg total (List.map_id _)

theorem channel?_eq_some {id : ChannelId} :
    bank.channel? id = some c ↔ c ∈ held ∧ c.id = id := by
  rw [channel?, lookup_eq_some_iff_mem h.nodup_keys, h.entries.mem_iff, List.mem_map]
  constructor
  · rintro ⟨d, hd, he⟩
    cases he
    exact ⟨hd, rfl⟩
  · rintro ⟨hc, rfl⟩
    exact ⟨c, hc, rfl⟩

theorem channel?_eq_none {id : ChannelId} : bank.channel? id = none ↔ id ∉ held.map Channel.id := by
  rw [channel?, lookup_eq_none_iff_not_mem, h.keys_eq.mem_iff, h.queue]

theorem channel?_at {i : Nat} (hi : held[i]? = some c) :
    bank.channel? c.id = some c :=
  h.channel?_eq_some.mpr ⟨List.mem_of_getElem? hi, rfl⟩

theorem push (hnew : c.id ∉ held.map Channel.id) :
    Holds ⟨(c.id, c) :: bank.channels, bank.channelQueue ++ [c.id]⟩ (held ++ [c]) where
  queue := by simp [h.queue]
  entries := by
    rw [List.map_append, List.map_singleton]
    exact (h.entries.cons _).trans (List.perm_append_singleton _ _).symm
  distinct := nodup_concat h.distinct hnew

theorem erase (hi : held[i]? = some c) :
    Holds ⟨without bank.channels c.id, bank.channelQueue.eraseIdx i⟩ (held.eraseIdx i) := by
  obtain ⟨hlt, rfl⟩ := List.getElem?_eq_some_iff.mp hi
  have hsplit : held = held.take i ++ held[i] :: held.drop (i + 1) := by
    rw [← List.drop_eq_getElem_cons hlt, List.take_append_drop]
  have hrest : held.eraseIdx i = held.take i ++ held.drop (i + 1) :=
    List.eraseIdx_eq_take_drop_succ held i
  have hout : ∀ d ∈ held.eraseIdx i, d.id ≠ held[i].id := by
    intro d hd he
    have hn := h.distinct
    rw [hsplit, List.map_append, List.map_cons, List.perm_middle.nodup_iff, List.nodup_cons,
      ← List.map_append, ← hrest] at hn
    exact hn.1 (he ▸ List.mem_map_of_mem hd)
  refine ⟨?_, ?_, ?_⟩
  · rw [h.queue, List.eraseIdx_map]
  · have hperm : bank.channels.Perm (((held[i] :: held.eraseIdx i)).map fun c => (c.id, c)) := by
      refine h.entries.trans ?_
      conv => lhs; rw [hsplit]
      rw [hrest]
      exact List.perm_middle.map _
    have hfilter := hperm.filter (fun e => decide (e.1 ≠ held[i].id))
    rw [List.map_cons, List.filter_cons_of_neg (by simp)] at hfilter
    refine hfilter.trans (List.Perm.of_eq (List.filter_eq_self.mpr ?_))
    intro e he
    obtain ⟨d, hd, rfl⟩ := List.mem_map.mp he
    exact decide_eq_true (hout d hd)
  · rw [← List.eraseIdx_map]
    exact h.distinct.sublist (List.eraseIdx_sublist _ _)

theorem set {id : ChannelId} (hid : c'.id = id) :
    Holds (bank.setChannel id c') (replace id c' held) := by
  refine ⟨?_, ?_, ?_⟩
  · rw [map_id_replace hid]
    exact h.queue
  · refine (h.entries.map _).trans (List.Perm.of_eq ?_)
    rw [replace, List.map_map, List.map_map]
    apply List.map_congr_left
    intro c _
    simp only [Function.comp_apply]
    split
    · rw [hid]
    · rfl
  · rw [map_id_replace hid]
    exact h.distinct

theorem obtainChannel (id : ChannelId) (origin : BlockInfo) :
    (∃ c ∈ held, c.id = id ∧ bank.obtainChannel id origin = (c, bank)) ∨
    (id ∉ held.map Channel.id ∧ ∃ bank', bank.obtainChannel id origin = (.new id origin, bank') ∧
      Holds bank' (held ++ [.new id origin])) := by
  unfold ChannelBank.obtainChannel
  cases hc : bank.channel? id with
  | some c =>
    obtain ⟨hmem, hid⟩ := h.channel?_eq_some.mp hc
    exact .inl ⟨c, hmem, hid, rfl⟩
  | none =>
    have hnew := h.channel?_eq_none.mp hc
    exact .inr ⟨hnew, _, rfl, h.push (c := .new id origin) hnew⟩

end

/-- Pruning never finds the queue short or an id without a channel. -/
theorem pruneFrom {channels : List (ChannelId × Channel)} {queue : List ChannelId}
    (h : Holds ⟨channels, queue⟩ held) (max : Nat) :
    ∃ bank', ChannelBank.pruneFrom max (total held) channels queue = (.ok (), bank') ∧
      Holds bank' (shorten max held) := by
  induction held generalizing channels queue with
  | nil =>
    obtain rfl : queue = [] := h.queue
    refine ⟨⟨channels, []⟩, ?_, h⟩
    simp [ChannelBank.pruneFrom, total]
  | cons c held ih =>
    obtain rfl : queue = c.id :: held.map Channel.id := h.queue
    have hfirst : channels.lookup c.id = some c := h.channel?_at (i := 0) rfl
    by_cases hmax : max < total (c :: held)
    · obtain ⟨bank', hprune, hb⟩ := ih (h.erase (i := 0) rfl)
      have hsub : total (c :: held) - c.size = total held := Nat.add_sub_cancel_left _ _
      refine ⟨bank', ?_, ?_⟩
      · rw [ChannelBank.pruneFrom, if_pos hmax]
        simp only [hfirst, hsub]
        exact hprune
      · rwa [shorten, if_pos hmax]
    · refine ⟨⟨channels, c.id :: held.map Channel.id⟩, ?_, ?_⟩
      · rw [ChannelBank.pruneFrom, if_neg hmax]
      · rwa [shorten, if_neg hmax]

theorem prune (h : Holds bank held) (cfg : RollupConfig) (origin : BlockInfo) :
    ∃ bank', bank.prune cfg (some origin) = (.ok (), bank') ∧
      Holds bank' (shorten (maxSize cfg origin) held) := by
  rw [ChannelBank.prune, h.size_eq]
  exact h.pruneFrom (maxSize cfg origin)

end Holds

/-! ### One frame -/

section Ingest

variable {mode : Overflow} {cfg : RollupConfig} {origin : BlockInfo} {frame : Frame}
  {bank bank' : ChannelBank} {held : List Channel}

/-- The line once the channel of a frame is in it. -/
def withChannel (id : ChannelId) (origin : BlockInfo) (held : List Channel) : List Channel :=
  if id ∈ held.map Channel.id then held else held ++ [.new id origin]

theorem nodup_withChannel (id : ChannelId) (hd : (held.map Channel.id).Nodup) :
    ((withChannel id origin held).map Channel.id).Nodup := by
  unfold withChannel
  split
  · exact hd
  · rename_i hnew
    exact nodup_concat hd hnew

theorem Holds.queue_obtainChannel (h : Holds bank held) (id : ChannelId) :
    (bank.obtainChannel id origin).2.channelQueue =
      (withChannel id origin held).map Channel.id := by
  unfold withChannel
  rcases h.obtainChannel id origin with ⟨c, hc, hid, heq⟩ | ⟨hnew, opened, heq, ho⟩
  · rw [if_pos (hid ▸ List.mem_map_of_mem hc), heq]
    exact h.queue
  · rw [if_neg hnew, heq]
    exact ho.queue

/-- A frame is ignored, or it is buffered and the line shortened from the front. -/
theorem Holds.ingestFrame (h : Holds bank held) {r : PipelineResult Unit}
    (hi : bank.ingestFrame mode cfg (some origin) frame = some (r, bank')) :
    r = .ok () ∧ (Holds bank' (withChannel frame.id origin held) ∨
      ∃ c c', c ∈ withChannel frame.id origin held ∧ c.addFrame frame origin = .ok c' ∧
        Holds bank' (shorten (maxSize cfg origin)
          (replace frame.id c' (withChannel frame.id origin held)))) := by
  have hopen : ∃ c opened, bank.obtainChannel frame.id origin = (c, opened) ∧
      c ∈ withChannel frame.id origin held ∧ Holds opened (withChannel frame.id origin held) := by
    unfold withChannel
    rcases h.obtainChannel frame.id origin with ⟨c, hc, hid, heq⟩ | ⟨hnew, opened, heq, ho⟩
    · rw [if_pos (hid ▸ List.mem_map_of_mem hc)]
      exact ⟨c, bank, heq, hc, h⟩
    · rw [if_neg hnew]
      exact ⟨_, opened, heq, List.mem_append_right _ List.mem_cons_self, ho⟩
  obtain ⟨c, opened, heq, hmem, ho⟩ := hopen
  simp only [ChannelBank.ingestFrame, heq, Option.bind_eq_bind, Option.bind_eq_some_iff] at hi
  obtain ⟨out, -, hi⟩ := hi
  cases out with
  | true =>
    cases hi
    exact ⟨rfl, .inl ho⟩
  | false =>
    cases hadd : c.addFrame frame origin with
    | error e =>
      simp only [hadd, Bool.false_eq_true, if_false, Option.some.injEq, Prod.mk.injEq] at hi
      obtain ⟨rfl, rfl⟩ := hi
      exact ⟨rfl, .inl ho⟩
    | ok c' =>
      have hid : c'.id = frame.id := by
        obtain ⟨hf, _, _, _, hc', _⟩ := Channel.addFrame_cases hadd
        rw [hc', hf]
      obtain ⟨pruned, hp, hb⟩ := (ho.set hid).prune cfg origin
      simp only [hadd, Bool.false_eq_true, if_false, hp, Option.some.injEq, Prod.mk.injEq] at hi
      obtain ⟨rfl, rfl⟩ := hi
      exact ⟨rfl, .inr ⟨c, c', hmem, hadd, hb⟩⟩

end Ingest

/-! ### One read -/

section Read

variable {mode : Overflow} {cfg : RollupConfig} {origin : BlockInfo}
  {bank bank' : ChannelBank} {held : List Channel} {c : Channel}

/-- The channel may be read: it is not timed out and all its frames are there. -/
def Readable (mode : Overflow) (cfg : RollupConfig) (origin : BlockInfo) (c : Channel) : Prop :=
  timedOut mode cfg origin c = some false ∧ c.isReady mode = some true

/-- The channel was looked at and left. -/
def Skipped (mode : Overflow) (cfg : RollupConfig) (origin : BlockInfo) (c : Channel) : Prop :=
  timedOut mode cfg origin c = some true ∨
    (timedOut mode cfg origin c = some false ∧ c.isReady mode = some false)

theorem Skipped.not_readable (h : Skipped mode cfg origin c) : ¬Readable mode cfg origin c := by
  rintro ⟨hout, hready⟩
  rcases h with h | ⟨_, h⟩
  · rw [hout] at h
    cases h
  · rw [hready] at h
    cases h

theorem frameData_of_ready (h : c.isReady mode = some true) : ∃ data, c.frameData = some data := by
  unfold Channel.isReady at h
  split at h
  · cases h
  · simp only [Option.bind_eq_bind, Option.bind_eq_some_iff] at h
    obtain ⟨expected, -, h⟩ := h
    split at h
    · cases h
    · have hall : ∀ i ∈ List.range (c.lastFrameNumber.toNat + 1),
          (c.frame? (BitVec.ofNat 16 i)).isSome = true :=
        List.all_eq_true.mp (Option.some.inj h)
      have hne : c.inputs ≠ [] := by
        intro hnil
        have hzero := hall 0 (List.mem_range.mpr (Nat.succ_pos _))
        simp [Channel.frame?, hnil] at hzero
      exact ⟨_, by rw [Channel.frameData_eq hne, if_pos (Channel.complete_iff_range.mpr hall)]⟩

/-- What trying the channel at a position of the line gives. -/
theorem Holds.tryRead (h : Holds bank held) {i : Nat} (hi : held[i]? = some c)
    (ht : bank.tryReadChannelAtIndex mode cfg origin i = some (r, bank')) :
    (r = .error PipelineError.eof.temp ∧ bank' = bank ∧ Skipped mode cfg origin c) ∨
    ∃ data, r = .ok data ∧ Readable mode cfg origin c ∧ c.frameData = some data ∧
      bank' = ⟨without bank.channels c.id, bank.channelQueue.eraseIdx i⟩ := by
  have hid : bank.channelQueue[i]? = some c.id := by rw [h.queue, List.getElem?_map, hi]; rfl
  simp only [tryReadChannelAtIndex, hid, h.channel?_at hi, Option.bind_eq_bind,
    Option.bind_some, Option.bind_eq_some_iff] at ht
  obtain ⟨out, hout, ht⟩ := ht
  cases out with
  | true =>
    cases ht
    exact .inl ⟨rfl, rfl, .inl hout⟩
  | false =>
    simp only [Bool.false_eq_true, if_false, Option.bind_eq_some_iff] at ht
    obtain ⟨ready, hready, ht⟩ := ht
    cases ready with
    | false =>
      cases ht
      exact .inl ⟨rfl, rfl, .inr ⟨hout, hready⟩⟩
    | true =>
      obtain ⟨data, hdata⟩ := frameData_of_ready hready
      simp only [hdata, not_true_eq_false, if_false, Option.some.injEq, Prod.mk.injEq] at ht
      obtain ⟨rfl, rfl⟩ := ht
      exact .inr ⟨data, rfl, ⟨hout, hready⟩, hdata, rfl⟩

/-- The search leaves everything as it was, or takes the first channel that may
be read. -/
theorem Holds.findReadable (h : Holds bank held) (hlen : i + left = held.length)
    (hf : bank.findReadable mode cfg origin left i = some (r, bank')) :
    (r = .error PipelineError.eof.temp ∧ bank' = bank ∧
      ∀ k c, i ≤ k → held[k]? = some c → Skipped mode cfg origin c) ∨
    ∃ k c data, held[k]? = some c ∧ r = .ok (some data) ∧ Readable mode cfg origin c ∧
      c.frameData = some data ∧
      bank' = ⟨without bank.channels c.id, bank.channelQueue.eraseIdx k⟩ ∧
      ∀ j d, i ≤ j → j < k → held[j]? = some d → Skipped mode cfg origin d := by
  induction left generalizing i with
  | zero =>
    cases hf
    refine .inl ⟨rfl, rfl, ?_⟩
    intro k c hk hc
    have := (List.getElem?_eq_some_iff.mp hc).1
    omega
  | succ left ih =>
    obtain ⟨c, hc⟩ : ∃ c, held[i]? = some c :=
      ⟨_, List.getElem?_eq_getElem (show i < held.length by omega)⟩
    simp only [ChannelBank.findReadable, Option.bind_eq_bind, Option.bind_eq_some_iff] at hf
    obtain ⟨⟨r₁, bank₁⟩, htry, hf⟩ := hf
    rcases h.tryRead hc htry with ⟨rfl, rfl, hskip⟩ | ⟨data, rfl, hread, hdata, rfl⟩
    · have hcons : ∀ k d, i ≤ k → (i + 1 ≤ k → Skipped mode cfg origin d) → held[k]? = some d →
          Skipped mode cfg origin d := by
        intro k d hk hlater hd
        rcases Nat.eq_or_lt_of_le hk with rfl | hlt
        · cases hc.symm.trans hd
          exact hskip
        · exact hlater hlt
      rcases ih (by omega) hf with ⟨hr, hb, hall⟩ | ⟨k, d, data, hd, hr, hread, hdata, hb, hall⟩
      · refine .inl ⟨hr, hb, fun k d hk hd => hcons k d hk (fun hlt => hall k d hlt hd) hd⟩
      · refine .inr ⟨k, d, data, hd, hr, hread, hdata, hb, fun j e hj hjk he => ?_⟩
        exact hcons j e hj (fun hlt => hall j e hlt hjk he) he
    · cases hf
      refine .inr ⟨i, c, data, hc, rfl, hread, hdata, rfl, ?_⟩
      intro j d hj hji
      omega

end Read
end SciChain.Derive.ChannelBank
