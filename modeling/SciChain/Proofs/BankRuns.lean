import SciChain.Proofs.BankOrder

namespace SciChain.Derive
open Library

/-- One L1 block stands at or before another. -/
def BlockInfo.NotAfter (a b : BlockInfo) : Prop := a.number ≤ b.number ∧ a.timestamp ≤ b.timestamp

instance (a b : BlockInfo) : Decidable (a.NotAfter b) :=
  inferInstanceAs (Decidable (_ ∧ _))

namespace ChannelBank

/-- What holds of a bank at the last L1 block it was used at: the channels stand in
the order of the blocks that opened them, and their size is bounded. -/
structure Sound (cfg : RollupConfig) (last : BlockInfo) (bank : ChannelBank)
    (held : List Channel) : Prop extends Holds bank held where
  opened : (held.map Channel.openBlockNumber).Pairwise (· ≤ ·)
  recent : ∀ n ∈ held.map Channel.openBlockNumber, n ≤ last.number
  bounded : total held ≤ maxSize cfg last

section Steps

variable {mode : Overflow} {cfg : RollupConfig} {last origin : BlockInfo} {frame : Frame}
  {bank bank' : ChannelBank} {held : List Channel}

theorem maxSize_mono (h : last.NotAfter origin) : maxSize cfg last ≤ maxSize cfg origin := by
  unfold maxSize
  split
  · rename_i ha
    rw [if_pos (RollupConfig.isFjordActive_mono h.2 ha)]
  · split
    · simp [maxChannelBankSize, fjordMaxChannelBankSize]
    · exact Nat.le_refl _

theorem Sound.later (h : Sound cfg last bank held) (ho : last.NotAfter origin) :
    Sound cfg origin bank held where
  toHolds := h.toHolds
  opened := h.opened
  recent n hn := BitVec.le_trans (h.recent n hn) ho.1
  bounded := Nat.le_trans h.bounded (maxSize_mono ho)

theorem total_append (held : List Channel) (c : Channel) :
    total (held ++ [c]) = total held + c.size := by
  induction held with
  | nil => simp [total]
  | cons d held ih => rw [List.cons_append, total, total, ih, Nat.add_assoc]

theorem withChannel_opened (id : ChannelId)
    (hopen : (held.map Channel.openBlockNumber).Pairwise (· ≤ ·))
    (hrecent : ∀ n ∈ held.map Channel.openBlockNumber, n ≤ origin.number) :
    ((withChannel id origin held).map Channel.openBlockNumber).Pairwise (· ≤ ·) ∧
      (∀ n ∈ (withChannel id origin held).map Channel.openBlockNumber, n ≤ origin.number) ∧
      total (withChannel id origin held) = total held := by
  unfold withChannel
  split
  · exact ⟨hopen, hrecent, rfl⟩
  · rw [List.map_append, List.map_singleton, total_append]
    refine ⟨List.pairwise_append.mpr ⟨hopen, List.pairwise_singleton _ _, ?_⟩, ?_, Nat.add_zero _⟩
    · intro n hn m hm
      rw [List.mem_singleton.mp hm]
      exact hrecent n hn
    · exact List.forall_mem_append.mpr
        ⟨hrecent, List.forall_mem_singleton.mpr (BitVec.le_refl _)⟩

theorem addFrame_openBlock {c c' : Channel} (h : c.addFrame frame origin = .ok c') :
    c'.openBlockNumber = c.openBlockNumber := by
  simp only [Channel.addFrame, reject_bind_ok, pure_eq, Except.ok.injEq] at h
  obtain ⟨-, -, -, -, rfl⟩ := h
  split
  · unfold Channel.close
    split <;> rfl
  · rfl

theorem map_openBlock_replace (hd : (held.map Channel.id).Nodup) {c c' : Channel} (hc : c ∈ held)
    (h : c.addFrame frame origin = .ok c') :
    (replace frame.id c' held).map Channel.openBlockNumber =
      held.map Channel.openBlockNumber := by
  rw [replace, List.map_map]
  apply List.map_congr_left
  intro d hdm
  simp only [Function.comp_apply]
  split
  · rename_i he
    have hid : d.id = c.id := he.trans (Channel.addFrame_cases h).1
    obtain rfl := List.inj_on_of_nodup_map hd hdm hc hid
    exact addFrame_openBlock h
  · rfl

/-- Ingesting a frame never fails, and the bank is within its bound afterwards. -/
theorem Sound.ingestFrame (h : Sound cfg last bank held) (ho : last.NotAfter origin)
    (hi : bank.ingestFrame mode cfg (some origin) frame = some (r, bank')) :
    r = .ok () ∧ ∃ held', Sound cfg origin bank' held' ∧
      held'.map Channel.id <:+ (withChannel frame.id origin held).map Channel.id := by
  obtain ⟨hopen, hrecent, htotal⟩ :=
    withChannel_opened frame.id (h.later ho).opened (h.later ho).recent
  obtain ⟨hr, hb | ⟨c, c', hc, hadd, hb⟩⟩ := h.toHolds.ingestFrame hi
  · refine ⟨hr, _, ⟨hb, hopen, hrecent, ?_⟩, List.suffix_refl _⟩
    rw [htotal]
    exact (h.later ho).bounded
  · obtain ⟨hf, _, _, _, hid, _⟩ := Channel.addFrame_cases hadd
    have hmap := map_openBlock_replace (nodup_withChannel frame.id h.distinct) hc hadd
    have hsuffix := shorten_suffix (maxSize cfg origin)
      (replace frame.id c' (withChannel frame.id origin held))
    have hnumbers := hsuffix.map Channel.openBlockNumber
    have hids := hsuffix.map Channel.id
    rw [hmap] at hnumbers
    rw [map_id_replace (hid.trans hf.symm)] at hids
    exact ⟨hr, _, ⟨hb, hopen.sublist hnumbers.sublist,
      fun n hn => hrecent n (hnumbers.subset hn), total_shorten _ _⟩, hids⟩

theorem total_eraseIdx_le (held : List Channel) (i : Nat) : total (held.eraseIdx i) ≤ total held := by
  induction held generalizing i with
  | nil => exact Nat.le_refl _
  | cons c held ih =>
    cases i with
    | zero => exact Nat.le_add_left _ _
    | succ i => exact Nat.add_le_add_left (ih i) _

theorem Sound.erase (h : Sound cfg last bank held) (hi : held[i]? = some c) :
    Sound cfg last ⟨without bank.channels c.id, bank.channelQueue.eraseIdx i⟩ (held.eraseIdx i) where
  toHolds := h.toHolds.erase hi
  opened := h.opened.sublist ((List.eraseIdx_sublist held i).map _)
  recent n hn := h.recent n (((List.eraseIdx_sublist held i).map _).subset hn)
  bounded := Nat.le_trans (total_eraseIdx_le held i) h.bounded

/-- A sum that wraps is below the block that opened the channel, so a channel still
in time is one whose timeout does not overflow. -/
theorem timedOut_eq_false (hc : c.openBlockNumber ≤ origin.number) :
    timedOut mode cfg origin c = some false ↔
      c.openBlockNumber.toNat + (cfg.channelTimeoutAt origin.timestamp).toNat < 2 ^ 64 ∧
      origin.number.toNat ≤
        c.openBlockNumber.toNat + (cfg.channelTimeoutAt origin.timestamp).toNat := by
  rw [BitVec.le_def] at hc
  unfold timedOut Overflow.add
  have hsum := BitVec.toNat_add c.openBlockNumber (cfg.channelTimeoutAt origin.timestamp)
  by_cases hfit : c.openBlockNumber.toNat + (cfg.channelTimeoutAt origin.timestamp).toNat < 2 ^ 64
  · rw [Nat.mod_eq_of_lt hfit] at hsum
    rw [if_pos hfit, Option.map_some, Option.some.injEq, decide_eq_false_iff_not, BitVec.lt_def,
      hsum]
    omega
  · rw [if_neg hfit]
    constructor
    · intro h
      cases mode with
      | panics => cases h
      | wraps =>
        rw [Option.map_some, Option.some.injEq, decide_eq_false_iff_not, BitVec.lt_def, hsum] at h
        omega
    · intro h
      exact absurd h.1 hfit

theorem timedOut_between (hac : a.openBlockNumber ≤ c.openBlockNumber)
    (hcb : c.openBlockNumber ≤ b.openBlockNumber) (hb : b.openBlockNumber ≤ origin.number)
    (ha : timedOut mode cfg origin a = some false) (hbt : timedOut mode cfg origin b = some false) :
    timedOut mode cfg origin c = some false := by
  have hcn := BitVec.le_trans hcb hb
  rw [timedOut_eq_false (BitVec.le_trans hac hcn)] at ha
  rw [timedOut_eq_false hb] at hbt
  rw [timedOut_eq_false hcn]
  rw [BitVec.le_def] at hac hcb
  omega

/-- What a read may answer. Before Canyon only the head of the queue may be read,
and from Canyon on the first channel that is ready. -/
inductive Answers (mode : Overflow) (cfg : RollupConfig) (origin : BlockInfo)
    (bank : ChannelBank) : PipelineResult (Option Bytes) → ChannelBank → Prop
  | nothing :
      (∀ i id c, cfg.isCanyonActive origin.timestamp ∨ i = 0 → bank.channelQueue[i]? = some id →
        bank.channel? id = some c → ¬Readable mode cfg origin c) →
      Answers mode cfg origin bank (.error PipelineError.eof.temp) bank
  | expired {id : ChannelId} {rest : List ChannelId} {c : Channel} :
      bank.channelQueue = id :: rest → bank.channel? id = some c →
      timedOut mode cfg origin c = some true →
      Answers mode cfg origin bank (.ok none) ⟨without bank.channels id, rest⟩
  | data {i : Nat} {id : ChannelId} {c : Channel} {data : Bytes} :
      bank.channelQueue[i]? = some id → bank.channel? id = some c → Readable mode cfg origin c →
      c.frameData = some data → (cfg.isCanyonActive origin.timestamp = false → i = 0) →
      (∀ j, j < i → ∀ id' d, bank.channelQueue[j]? = some id' → bank.channel? id' = some d →
        d.isReady mode = some false) →
      Answers mode cfg origin bank (.ok (some data))
        ⟨without bank.channels id, bank.channelQueue.eraseIdx i⟩

theorem Holds.queue_at (h : Holds bank held) {i : Nat} {id : ChannelId} {c : Channel}
    (hid : bank.channelQueue[i]? = some id) (hc : bank.channel? id = some c) :
    held[i]? = some c := by
  rw [h.queue, List.getElem?_map] at hid
  cases hi : held[i]? with
  | none =>
    rw [hi] at hid
    cases hid
  | some d =>
    rw [hi] at hid
    cases hid
    rw [h.channel?_at hi] at hc
    exact hc

theorem Holds.queue_get (h : Holds bank held) {i : Nat} (hi : held[i]? = some c) :
    bank.channelQueue[i]? = some c.id := by
  rw [h.queue, List.getElem?_map, hi]
  rfl

theorem Sound.opened_le (h : Sound cfg last bank held) {i j : Nat} (hij : i ≤ j)
    (ha : held[i]? = some a) (hb : held[j]? = some b) :
    a.openBlockNumber ≤ b.openBlockNumber := by
  rcases Nat.eq_or_lt_of_le hij with rfl | hlt
  · cases ha.symm.trans hb
    exact BitVec.le_refl _
  · obtain ⟨hi, rfl⟩ := List.getElem?_eq_some_iff.mp ha
    obtain ⟨hj, rfl⟩ := List.getElem?_eq_some_iff.mp hb
    have hp := List.pairwise_iff_getElem.mp h.opened i j (by simpa using hi) (by simpa using hj) hlt
    simpa using hp

/-- Taking the channel at a position, every one before it having been skipped. -/
theorem Sound.take (h : Sound cfg origin bank held) {head c : Channel} {k : Nat} {data : Bytes}
    (hhead : held[0]? = some head) (hout : timedOut mode cfg origin head = some false)
    (hk : held[k]? = some c) (hread : Readable mode cfg origin c) (hdata : c.frameData = some data)
    (hpre : cfg.isCanyonActive origin.timestamp = false → k = 0)
    (hskip : ∀ j d, j < k → held[j]? = some d → Skipped mode cfg origin d) :
    Answers mode cfg origin bank (.ok (some data))
      ⟨without bank.channels c.id, bank.channelQueue.eraseIdx k⟩ ∧
    ∃ held', Sound cfg origin
      ⟨without bank.channels c.id, bank.channelQueue.eraseIdx k⟩ held' ∧
      (held'.map Channel.id).Sublist (held.map Channel.id) := by
  refine ⟨.data (h.queue_get hk) (h.channel?_at hk) hread hdata hpre ?_,
    _, h.erase hk, (List.eraseIdx_sublist held k).map _⟩
  intro j hj id' d hid' hd
  have hjd := h.queue_at hid' hd
  have hrecent := h.recent _ (List.mem_map_of_mem (List.mem_of_getElem? hk))
  have hin : timedOut mode cfg origin d = some false :=
    timedOut_between (h.opened_le (Nat.zero_le j) hhead hjd)
      (h.opened_le (Nat.le_of_lt hj) hjd hk) hrecent hout hread.1
  rcases hskip j d hj hjd with hbad | ⟨_, hready⟩
  · rw [hin] at hbad
    cases hbad
  · exact hready

theorem Sound.read (h : Sound cfg last bank held) (ho : last.NotAfter origin)
    {r : PipelineResult (Option Bytes)}
    (hr : bank.read mode cfg (some origin) = some (r, bank')) :
    Answers mode cfg origin bank r bank' ∧ ∃ held', Sound cfg origin bank' held' ∧
      (held'.map Channel.id).Sublist (held.map Channel.id) := by
  have hs := h.later ho
  cases hline : held with
  | nil =>
    have hq : bank.channelQueue = [] := by rw [h.queue, hline]; rfl
    simp only [ChannelBank.read, hq, Option.some.injEq, Prod.mk.injEq] at hr
    obtain ⟨rfl, rfl⟩ := hr
    refine ⟨.nothing ?_, [], hline ▸ hs, List.Sublist.refl _⟩
    intro i id c _ hid
    simp [hq] at hid
  | cons head rest =>
    have hhead : held[0]? = some head := by rw [hline]; rfl
    have hq : bank.channelQueue = head.id :: rest.map Channel.id := by rw [h.queue, hline]; rfl
    have hfirst := h.channel?_at hhead
    rw [ChannelBank.read] at hr
    simp only [hq, hfirst, Option.bind_eq_bind, Option.bind_eq_some_iff] at hr
    obtain ⟨out, hout, hr⟩ := hr
    cases out with
    | true =>
      cases hr
      have herase := hs.erase hhead
      rw [hq, hline] at herase
      exact ⟨.expired hq hfirst hout, rest, herase, List.sublist_cons_self _ _⟩
    | false =>
      simp only [Bool.false_eq_true, if_false] at hr
      rw [← hline]
      by_cases hcanyon : cfg.isCanyonActive origin.timestamp = true
      · rw [if_neg (by simp [hcanyon]), ← hq] at hr
        have hlen : 0 + bank.channelQueue.length = held.length := by simp [h.queue]
        rcases h.toHolds.findReadable hlen hr with
          ⟨rfl, rfl, hall⟩ | ⟨k, c, data, hk, rfl, hread, hdata, rfl, hskip⟩
        · refine ⟨.nothing ?_, held, hs, List.Sublist.refl _⟩
          intro i id c _ hid hc
          exact (hall i c (Nat.zero_le i) (h.queue_at hid hc)).not_readable
        · refine hs.take hhead hout hk hread hdata (fun hno => ?_)
            (fun j d hj hd => hskip j d (Nat.zero_le j) hj hd)
          rw [hcanyon] at hno
          cases hno
      · rw [if_pos hcanyon] at hr
        simp only [Option.bind_eq_some_iff, Option.some.injEq, Prod.mk.injEq] at hr
        obtain ⟨⟨r₁, bank₁⟩, htry, rfl, rfl⟩ := hr
        rcases h.toHolds.tryRead hhead htry with ⟨rfl, rfl, hskip⟩ | ⟨data, rfl, hread, hdata, rfl⟩
        · refine ⟨.nothing ?_, held, hs, List.Sublist.refl _⟩
          intro i id c hi hid hc
          obtain rfl : i = 0 := hi.resolve_left hcanyon
          cases hhead.symm.trans (h.queue_at hid hc)
          exact hskip.not_readable
        · refine hs.take hhead hout hhead hread hdata (fun _ => rfl) ?_
          intro j d hj
          omega

end Steps

/-! ### Runs -/

inductive BankOp where
  | ingestFrame (frame : Frame)
  | read

/-- A use of the bank at an L1 block. -/
structure BankCall where
  origin : BlockInfo
  op : BankOp

/-- A bank with the time at which each of its channels first arrived and the last
L1 block it was used at. -/
structure Tracked where
  bank : ChannelBank
  firstSeen : ChannelId → Nat
  clock : Nat
  last : BlockInfo

namespace Tracked

def new : Tracked := ⟨.new, fun _ => 0, 0, default⟩

/-- The time of arrival of a channel that a frame opens. -/
def see (t : Tracked) (id : ChannelId) : ChannelId → Nat :=
  if (t.bank.channel? id).isSome then t.firstSeen
  else fun i => if i = id then t.clock else t.firstSeen i

/-- A panic is the only failure; every error leaves a bank behind. -/
def apply (mode : Overflow) (cfg : RollupConfig) (call : BankCall) (t : Tracked) :
    Except Unit Tracked :=
  match call.op with
  | .ingestFrame frame =>
    match t.bank.ingestFrame mode cfg (some call.origin) frame with
    | none => .error ()
    | some (_, bank) => .ok ⟨bank, t.see frame.id, t.clock + 1, call.origin⟩
  | .read =>
    match t.bank.read mode cfg (some call.origin) with
    | none => .error ()
    | some (_, bank) => .ok { t with bank, last := call.origin }

end Tracked

/-- Reached by ingestions and reads at L1 blocks that never go back. -/
def Reached (mode : Overflow) (cfg : RollupConfig) (t : Tracked) : Prop :=
  Reachable (Tracked.apply mode cfg) (fun call t => t.last.NotAfter call.origin) .new t

/-- The queue is in the order of first arrival. -/
structure Arrived (t : Tracked) : Prop where
  order : t.bank.channelQueue.Pairwise (fun a b => t.firstSeen a < t.firstSeen b)
  past : ∀ id ∈ t.bank.channelQueue, t.firstSeen id < t.clock

variable {mode : Overflow} {cfg : RollupConfig} {t : Tracked}

theorem Arrived.see (h : Arrived t) (hl : Holds t.bank held) (frame : Frame) (origin : BlockInfo) :
    ((withChannel frame.id origin held).map Channel.id).Pairwise
      (fun a b => t.see frame.id a < t.see frame.id b) ∧
    ∀ id ∈ (withChannel frame.id origin held).map Channel.id, t.see frame.id id < t.clock + 1 := by
  have horder := h.order
  have hpast := h.past
  rw [hl.queue] at horder hpast
  by_cases hmem : frame.id ∈ held.map Channel.id
  · have hsome : (t.bank.channel? frame.id).isSome = true :=
      Option.isSome_iff_ne_none.mpr (fun hnone => hl.channel?_eq_none.mp hnone hmem)
    rw [withChannel, if_pos hmem, Tracked.see, if_pos hsome]
    exact ⟨horder, fun id hid => Nat.lt_succ_of_lt (hpast id hid)⟩
  · have hnone : t.bank.channel? frame.id = none := hl.channel?_eq_none.mpr hmem
    have hother : ∀ id ∈ held.map Channel.id,
        t.see frame.id id = t.firstSeen id := by
      intro id hid
      have hne : id ≠ frame.id := fun he => hmem (he ▸ hid)
      simp [Tracked.see, hnone, hne]
    have hself : t.see frame.id frame.id = t.clock := by simp [Tracked.see, hnone]
    rw [withChannel, if_neg hmem, List.map_append, List.map_singleton]
    refine ⟨List.pairwise_append.mpr ⟨?_, List.pairwise_singleton _ _, ?_⟩, ?_⟩
    · refine horder.imp_of_mem ?_
      intro a b ha hb hab
      rwa [hother a ha, hother b hb]
    · intro a ha b hb
      obtain rfl := List.mem_singleton.mp hb
      change t.see frame.id a < t.see frame.id frame.id
      rw [hother a ha, hself]
      exact hpast a ha
    · intro id hid
      rcases List.mem_append.mp hid with hid | hid
      · rw [hother id hid]
        exact Nat.lt_succ_of_lt (hpast id hid)
      · obtain rfl := List.mem_singleton.mp hid
        change t.see frame.id frame.id < t.clock + 1
        rw [hself]
        exact Nat.lt_succ_self _

theorem reached_sound (h : Reached mode cfg t) :
    (∃ held, Sound cfg t.last t.bank held) ∧ Arrived t := by
  refine Reachable.invariant (P := fun t => (∃ held, Sound cfg t.last t.bank held) ∧ Arrived t)
    h ?_ ?_
  · exact ⟨⟨[], ⟨rfl, List.Perm.refl _, List.nodup_nil⟩, List.Pairwise.nil, by simp,
      Nat.zero_le _⟩, List.Pairwise.nil, by simp [Tracked.new, ChannelBank.new]⟩
  · intro call t t' hallowed ht hstep
    obtain ⟨⟨held, hs⟩, harr⟩ := ht
    obtain ⟨origin, op⟩ := call
    cases op with
    | ingestFrame frame =>
      cases hi : t.bank.ingestFrame mode cfg (some origin) frame with
      | none => simp [Tracked.apply, hi] at hstep
      | some res =>
        obtain ⟨r, bank'⟩ := res
        simp only [Tracked.apply, hi, Except.ok.injEq] at hstep
        subst hstep
        obtain ⟨-, held', hs', hsuffix⟩ := hs.ingestFrame hallowed hi
        obtain ⟨horder, hpast⟩ := harr.see hs.toHolds frame origin
        rw [← hs'.queue] at hsuffix
        exact ⟨⟨held', hs'⟩, horder.sublist hsuffix.sublist,
          fun id hid => hpast id (hsuffix.subset hid)⟩
    | read =>
      cases hr : t.bank.read mode cfg (some origin) with
      | none => simp [Tracked.apply, hr] at hstep
      | some res =>
        simp only [Tracked.apply, hr, Except.ok.injEq] at hstep
        subst hstep
        obtain ⟨-, held', hs', hsub⟩ := hs.read hallowed hr
        rw [← hs'.queue, ← hs.queue] at hsub
        exact ⟨⟨held', hs'⟩, harr.order.sublist hsub, fun id hid => harr.past id (hsub.subset hid)⟩

/-! Without overflow checks nothing panics. -/

theorem timedOut_wraps (cfg : RollupConfig) (origin : BlockInfo) (c : Channel) :
    ∃ out, timedOut .wraps cfg origin c = some out := by
  unfold timedOut Overflow.add
  split <;> exact ⟨_, rfl⟩

theorem isReady_wraps (c : Channel) : ∃ ready, c.isReady .wraps = some ready := by
  unfold Channel.isReady Overflow.add
  split
  · exact ⟨false, rfl⟩
  · split <;> simp only [Option.bind_eq_bind, Option.bind_some] <;> split <;> exact ⟨_, rfl⟩

theorem ingestFrame_wraps (bank : ChannelBank) (origin : BlockInfo) (frame : Frame) :
    (bank.ingestFrame .wraps cfg (some origin) frame).isSome = true := by
  obtain ⟨out, hout⟩ :=
    timedOut_wraps cfg origin (bank.obtainChannel frame.id origin).1
  simp only [ingestFrame, hout, Option.bind_eq_bind, Option.bind_some]
  split
  · rfl
  · split <;> rfl

section Wraps

variable {bank : ChannelBank} {held : List Channel} {origin : BlockInfo}

theorem Holds.tryRead_wraps (h : Holds bank held) (cfg : RollupConfig) (origin : BlockInfo)
    {i : Nat} (hi : i < held.length) :
    (bank.tryReadChannelAtIndex .wraps cfg origin i).isSome = true := by
  have hget := List.getElem?_eq_getElem hi
  obtain ⟨out, hout⟩ := timedOut_wraps cfg origin held[i]
  obtain ⟨ready, hready⟩ := isReady_wraps held[i]
  simp only [tryReadChannelAtIndex, h.queue_get hget, h.channel?_at hget, hout, hready,
    Option.bind_eq_bind, Option.bind_some]
  split
  · rfl
  · split
    · rfl
    · split <;> rfl

theorem Holds.findReadable_wraps (h : Holds bank held) (hlen : i + left = held.length) :
    (bank.findReadable .wraps cfg origin left i).isSome = true := by
  induction left generalizing i with
  | zero => rfl
  | succ left ih =>
    have hi : i < held.length := by omega
    obtain ⟨⟨r, bank'⟩, htry⟩ := Option.isSome_iff_exists.mp (h.tryRead_wraps cfg origin hi)
    simp only [ChannelBank.findReadable, htry, Option.bind_eq_bind, Option.bind_some]
    rcases h.tryRead (List.getElem?_eq_getElem hi) htry with ⟨rfl, rfl, -⟩ | ⟨data, rfl, -⟩
    · exact ih (by omega)
    · rfl

theorem Holds.read_wraps (h : Holds bank held) :
    (bank.read .wraps cfg (some origin)).isSome = true := by
  cases hline : held with
  | nil =>
    have hq : bank.channelQueue = [] := by rw [h.queue, hline]; rfl
    simp [ChannelBank.read, hq]
  | cons head rest =>
    have hhead : held[0]? = some head := by rw [hline]; rfl
    have hq : bank.channelQueue = head.id :: rest.map Channel.id := by rw [h.queue, hline]; rfl
    obtain ⟨out, hout⟩ := timedOut_wraps cfg origin head
    rw [ChannelBank.read]
    simp only [hq, h.channel?_at hhead, hout, Option.bind_eq_bind, Option.bind_some]
    split
    · rfl
    · split
      · obtain ⟨res, htry⟩ := Option.isSome_iff_exists.mp
          (h.tryRead_wraps cfg origin (i := 0) (by simp [hline]))
        simp [htry]
      · rw [← hq]
        exact h.findReadable_wraps (by simp [h.queue])

end Wraps

/-- The bank over whole runs: the queue has no duplicates and names exactly the
channels there are, in the order in which they first arrived; a frame never fails
and leaves the bank within its bound, channels having left only at the front; and a
read answers in the order of arrival and removes what it answers. -/
theorem channel_bank_invariants (mode : Overflow) (cfg : RollupConfig) (t : Tracked)
    (h : Reached mode cfg t) :
    t.bank.channelQueue.Nodup ∧ (keys t.bank.channels).Perm t.bank.channelQueue ∧
    t.bank.channelQueue.Pairwise (fun a b => t.firstSeen a < t.firstSeen b) ∧
    ∀ origin, t.last.NotAfter origin →
      (∀ frame r bank', t.bank.ingestFrame mode cfg (some origin) frame = some (r, bank') →
        r = .ok () ∧ bank'.size ≤ maxSize cfg origin ∧
        bank'.channelQueue <:+ (t.bank.obtainChannel frame.id origin).2.channelQueue) ∧
      (∀ r bank', t.bank.read mode cfg (some origin) = some (r, bank') →
        Answers mode cfg origin t.bank r bank') ∧
      (mode = .wraps → (t.bank.read mode cfg (some origin)).isSome ∧
        ∀ frame, (t.bank.ingestFrame mode cfg (some origin) frame).isSome) := by
  obtain ⟨⟨held, hs⟩, harr⟩ := reached_sound h
  refine ⟨hs.queue ▸ hs.distinct, hs.keys_eq, harr.order, ?_⟩
  intro origin ho
  refine ⟨?_, fun r bank' hr => (hs.read ho hr).1, ?_⟩
  · intro frame r bank' hi
    obtain ⟨hr, held', hs', hsuffix⟩ := hs.ingestFrame ho hi
    refine ⟨hr, hs'.size_eq ▸ hs'.bounded, ?_⟩
    rw [← hs'.queue] at hsuffix
    rwa [hs.toHolds.queue_obtainChannel]
  · rintro rfl
    exact ⟨hs.toHolds.read_wraps, ingestFrame_wraps t.bank origin⟩

/-- Two channels arrive in one L1 block and the first one is complete in the next. -/
def twoArrivals : List BankCall :=
  let first : ChannelId := ⟨List.replicate 16 1, rfl⟩
  let second : ChannelId := ⟨List.replicate 16 2, rfl⟩
  [⟨⟨1, 1, 0, 12⟩, .ingestFrame ⟨first, 0, [1], false⟩⟩,
    ⟨⟨1, 1, 0, 12⟩, .ingestFrame ⟨second, 0, [2], false⟩⟩,
    ⟨⟨2, 2, 1, 24⟩, .ingestFrame ⟨first, 1, [3], true⟩⟩]

def canyonRollup : RollupConfig := .withUpgrades ⟨some 0, none, none, none, none, none, none, none⟩

def afterArrivals : Tracked := run (Tracked.apply .panics canyonRollup) .new twoArrivals

/-- Both channels are there in their order, and a read answers as described. -/
theorem channel_bank_two_arrivals :
    afterArrivals.bank.channelQueue.length = 2 ∧
    afterArrivals.bank.channelQueue.Pairwise
      (fun a b => afterArrivals.firstSeen a < afterArrivals.firstSeen b) ∧
    ∀ r bank', afterArrivals.bank.read .panics canyonRollup (some ⟨2, 2, 1, 24⟩) = some (r, bank') →
      Answers .panics canyonRollup ⟨2, 2, 1, 24⟩ afterArrivals.bank r bank' := by
  have hr : Reached .panics canyonRollup afterArrivals :=
    Reachable.start.admissible (by decide +kernel)
  obtain ⟨_, _, horder, hstep⟩ := channel_bank_invariants .panics canyonRollup afterArrivals hr
  exact ⟨by decide +kernel, horder, (hstep ⟨2, 2, 1, 24⟩ (by decide +kernel)).2.1⟩

end ChannelBank
end SciChain.Derive
