import SciChain.Prover.Aggregation
import SciChain.Library.Sampling

namespace SciChain.Prover
open Derive Library

/-! What the aggregation program states of the ranges that it is given. -/

/-! ### Roots as bytes -/

theorem rootBytes_cons (root : B256) (roots : List B256) :
    rootBytes (root :: roots) = beBytes 32 root.toNat ++ rootBytes roots := rfl

theorem beBytes_root_inj {a b : B256} (h : beBytes 32 a.toNat = beBytes 32 b.toNat) : a = b := by
  have hvalue := congrArg beValue h
  rw [beValue_beBytes (by have := a.isLt; omega), beValue_beBytes (by have := b.isLt; omega)]
    at hvalue
  exact BitVec.eq_of_toNat_eq hvalue

theorem rootBytes_inj {roots roots' : List B256} (h : rootBytes roots = rootBytes roots') :
    roots = roots' := by
  induction roots generalizing roots' with
  | nil =>
    cases roots' with
    | nil => rfl
    | cons root' roots' =>
      have hlength := congrArg List.length h
      simp [rootBytes] at hlength
      omega
  | cons root roots ih =>
    cases roots' with
    | nil =>
      have hlength := congrArg List.length h
      simp [rootBytes] at hlength
    | cons root' roots' =>
      rw [rootBytes_cons, rootBytes_cons] at h
      obtain ⟨hroot, hrest⟩ := List.append_inj h (by simp)
      rw [beBytes_root_inj hroot, ih hrest]

/-! ### What a range states -/

/-- The output roots of the chain with a configuration, by the number of the block, as they are
derived from L1 up to a head. -/
abbrev DerivedRoots := B256 → B256 → ℕ → Option B256

/-- The roots at `start + interval`, `start + 2 * interval` and so on up to `stop`. -/
def SampledEvery (root : ℕ → Option B256) (start stop interval : ℕ) (bytes : Bytes) : Prop :=
  ∃ roots, bytes = rootBytes roots ∧ roots.map some =
    (List.range ((stop - start) / interval)).map (fun i => root (start + (i + 1) * interval))

/-- Committed values that are true of the chain, when every `interval` blocks are sampled. -/
structure BootInfoStruct.TrueOf (derived : DerivedRoots) (interval : ℕ) (b : BootInfoStruct) :
    Prop where
  positive : 0 < interval
  ordered : b.l2PreBlockNumber.toNat ≤ b.l2BlockNumber.toNat
  blocks : ∀ n, b.l2PreBlockNumber.toNat ≤ n → n ≤ b.l2BlockNumber.toNat →
    ∃ root, derived b.rollupConfigHash b.l1Head n = some root
  pre : derived b.rollupConfigHash b.l1Head b.l2PreBlockNumber.toNat = some b.l2PreRoot
  post : derived b.rollupConfigHash b.l1Head b.l2BlockNumber.toNat = some b.l2PostRoot
  roots : SampledEvery (derived b.rollupConfigHash b.l1Head) b.l2PreBlockNumber.toNat
    b.l2BlockNumber.toNat interval b.intermediateRoots

/-- A block of L1 that is another one or comes before it. -/
inductive Zkvm.Ancestor {η : Type} (z : Zkvm η) : B256 → B256 → Prop
  | self (hash : B256) : Ancestor z hash hash
  | parent {hash : B256} (header : η) : Ancestor z hash (z.parentHash header) →
      Ancestor z hash (z.hashSlow header)

/-- Outputs that are true of the whole range. -/
structure AggregationOutputs.TrueOf {η : Type} (z : Zkvm η) (derived : DerivedRoots)
    (inputs : AggregationInputs) (out : AggregationOutputs) : Prop where
  pre : derived out.rollupConfigHash out.l1Head out.startingL2SequenceNumber.toNat =
    some out.l2PreRoot
  post : derived out.rollupConfigHash out.l1Head out.endingL2SequenceNumber.toNat =
    some out.l2PostRoot
  heads : ∀ b ∈ inputs.bootInfos, z.Ancestor b.l1Head out.l1Head
  roots : ∃ interval, 0 < interval ∧
    SampledEvery (derived out.rollupConfigHash out.l1Head) out.startingL2SequenceNumber.toNat
      out.endingL2SequenceNumber.toNat interval out.intermediateRoots

def BootInfoStruct.length (b : BootInfoStruct) : ℕ :=
  b.l2BlockNumber.toNat - b.l2PreBlockNumber.toNat

/-- The blocks that each range samples are those at the multiples of one interval, counted from
the start of the first range. -/
def Aligned (sampling : BootInfoStruct → ℕ) (interval : ℕ) : ℕ → List BootInfoStruct → Prop
  | _, [] => True
  | offset, b :: rest =>
    (∀ k, 1 ≤ k → k ≤ b.length → (sampling b ∣ k ↔ interval ∣ offset + k)) ∧
      Aligned sampling interval (offset + b.length) rest

/-! ### The positions of the samples -/

/-- The roots after block `start`. -/
def span (root : ℕ → Option B256) (start count : ℕ) : List (Option B256) :=
  (List.range count).map (fun k => root (start + k + 1))

@[simp] theorem length_span (root : ℕ → Option B256) (start count : ℕ) :
    (span root start count).length = count := by simp [span]

theorem span_append (root : ℕ → Option B256) (start count more : ℕ) :
    span root start count ++ span root (start + count) more = span root start (count + more) := by
  rw [span, span, span, List.range_add, List.map_append, List.map_map]
  simp [Function.comp_def, Nat.add_assoc]

theorem sampledEvery_iff (hpos : 0 < interval) : SampledEvery root start stop interval bytes ↔
      ∃ roots, bytes = rootBytes roots ∧
        roots.map some = pick (multipleOf interval) 0 (span root start (stop - start)) := by
  have hsame : (List.range ((stop - start) / interval)).map
        (fun i => root (start + (i + 1) * interval)) =
      pick (multipleOf interval) 0 (span root start (stop - start)) := by
    rw [span, pick_multiples hpos]
    refine List.map_congr_left fun i _ => congrArg root ?_
    have hone : 1 ≤ (i + 1) * interval := Nat.mul_pos (Nat.succ_pos i) hpos
    omega
  rw [SampledEvery, hsame]

def totalLength (bootInfos : List BootInfoStruct) : ℕ :=
  (bootInfos.map BootInfoStruct.length).foldr (· + ·) 0

/-- A position in the whole range that the range it is in samples. -/
def wantedBy (sampling : BootInfoStruct → ℕ) : List BootInfoStruct → ℕ → Bool
  | [], _ => false
  | b :: rest, k =>
    if k ≤ b.length then multipleOf (sampling b) k else wantedBy sampling rest (k - b.length)

theorem wantedBy_after (sampling : BootInfoStruct → ℕ) (b : BootInfoStruct)
    (rest : List BootInfoStruct) (hk : 1 ≤ k) :
    wantedBy sampling (b :: rest) (b.length + k) = wantedBy sampling rest k := by
  rw [wantedBy, if_neg (by omega), Nat.add_sub_cancel_left]

theorem aligned_iff : Aligned sampling interval offset bootInfos ↔
      ∀ k, 1 ≤ k → k ≤ totalLength bootInfos →
        wantedBy sampling bootInfos k = multipleOf interval (offset + k) := by
  induction bootInfos generalizing offset with
  | nil =>
    refine iff_of_true trivial ?_
    intro k hk hle
    simp only [totalLength, List.map_nil, List.foldr_nil] at hle
    omega
  | cons b rest ih =>
    have hwithin {k : ℕ} (hle : k ≤ b.length) :
        (sampling b ∣ k ↔ interval ∣ offset + k) ↔
          wantedBy sampling (b :: rest) k = multipleOf interval (offset + k) := by
      rw [wantedBy, if_pos hle, Bool.eq_iff_iff, multipleOf_iff, multipleOf_iff]
    have htotal : totalLength (b :: rest) = b.length + totalLength rest := rfl
    rw [Aligned, ih, htotal]
    constructor
    · intro ⟨hfirst, hrest⟩ k hk hle
      rcases Nat.lt_or_ge b.length k with hout | hin
      · have htail := hrest (k - b.length) (by omega) (by omega)
        rw [← wantedBy_after sampling b rest (by omega),
          show b.length + (k - b.length) = k by omega,
          show offset + b.length + (k - b.length) = offset + k by omega] at htail
        exact htail
      · exact (hwithin hin).mp (hfirst k hk hin)
    · intro hall
      refine ⟨fun k hk hle => (hwithin hle).mpr (hall k hk (by omega)), ?_⟩
      intro k hk hle
      rw [← wantedBy_after sampling b rest hk, hall (b.length + k) (by omega) (by omega),
        Nat.add_assoc]

/-- What the checks of two ranges in a row ensure. -/
structure Follows (prev next : BootInfoStruct) : Prop where
  root : prev.l2PostRoot = next.l2PreRoot
  block : prev.l2BlockNumber = next.l2PreBlockNumber
  config : prev.rollupConfigHash = next.rollupConfigHash

theorem checkSequential_ok (h : checkSequential bootInfos = .ok ()) :
    bootInfos.IsChain Follows := by
  match bootInfos with
  | [] => exact .nil
  | [b] => exact .singleton b
  | prev :: next :: rest =>
    rw [checkSequential] at h
    simp only [bind_ok, reject_ok, not_not] at h
    obtain ⟨-, hroot, -, hblock, -, hconfig, hrest⟩ := h
    exact .cons_cons ⟨hroot, hblock, hconfig⟩ (checkSequential_ok hrest)

/-- The samples of the ranges are those of the whole range at the positions that they want. -/
theorem flatten_picks (root : ℕ → Option B256) (sampling : BootInfoStruct → ℕ)
    (h : (b :: rest).IsChain Follows)
    (hordered : ∀ b' ∈ b :: rest, b'.l2PreBlockNumber.toNat ≤ b'.l2BlockNumber.toNat) :
    ((b :: rest).map (fun b => pick (multipleOf (sampling b)) 0
        (span root b.l2PreBlockNumber.toNat b.length))).flatten =
      pick (wantedBy sampling (b :: rest)) 0
        (span root b.l2PreBlockNumber.toNat (totalLength (b :: rest))) := by
  induction rest generalizing b with
  | nil =>
    have htotal : totalLength [b] = b.length := rfl
    simp only [List.map_cons, List.map_nil, List.flatten_cons, List.flatten_nil, List.append_nil,
      htotal]
    apply pick_congr
    intro k _ hle
    rw [length_span] at hle
    rw [wantedBy, if_pos (by omega)]
  | cons next rest ih =>
    obtain ⟨hfollows, hrest⟩ := List.isChain_cons_cons.mp h
    have htotal : totalLength (b :: next :: rest) = b.length + totalLength (next :: rest) := rfl
    have hnext : next.l2PreBlockNumber.toNat = b.l2PreBlockNumber.toNat + b.length := by
      have hle := hordered b List.mem_cons_self
      rw [← hfollows.block, BootInfoStruct.length]
      omega
    rw [List.map_cons, List.flatten_cons,
      ih hrest (fun b' hb' => hordered b' (List.mem_cons_of_mem _ hb')), htotal, ← span_append,
      pick_append, length_span, ← hnext]
    congr 1
    · apply pick_congr
      intro k _ hle
      rw [length_span] at hle
      rw [wantedBy, if_pos (by omega)]
    · rw [Nat.zero_add, ← Nat.add_zero b.length, pick_add]
      apply pick_congr
      intro k hk _
      rw [Nat.zero_add]
      exact (wantedBy_after sampling b (next :: rest) hk).symm

/-- The ranges together go from the first block to the last one. -/
theorem totalLength_eq (h : (b :: rest).IsChain Follows)
    (hordered : ∀ b' ∈ b :: rest, b'.l2PreBlockNumber.toNat ≤ b'.l2BlockNumber.toNat) :
    b.l2PreBlockNumber.toNat + totalLength (b :: rest) = (rest.getLastD b).l2BlockNumber.toNat := by
  induction rest generalizing b with
  | nil =>
    have htotal : totalLength [b] = b.length := rfl
    have hle := hordered b List.mem_cons_self
    rw [htotal, BootInfoStruct.length, List.getLastD_nil]
    omega
  | cons next rest ih =>
    obtain ⟨hfollows, hrest⟩ := List.isChain_cons_cons.mp h
    have htotal : totalLength (b :: next :: rest) = b.length + totalLength (next :: rest) := rfl
    have hle := hordered b List.mem_cons_self
    have hih := ih hrest (fun b' hb' => hordered b' (List.mem_cons_of_mem _ hb'))
    rw [← hfollows.block] at hih
    rw [List.getLastD_cons, ← hih, htotal, BootInfoStruct.length]
    omega

theorem config_eq (h : (b :: rest).IsChain Follows) :
    ∀ b' ∈ b :: rest, b'.rollupConfigHash = (rest.getLastD b).rollupConfigHash := by
  induction rest generalizing b with
  | nil =>
    intro b' hb'
    rw [List.mem_singleton.mp hb', List.getLastD_nil]
  | cons next rest ih =>
    obtain ⟨hfollows, hrest⟩ := List.isChain_cons_cons.mp h
    intro b' hb'
    rw [List.getLastD_cons]
    rcases List.mem_cons.mp hb' with rfl | hb'
    · rw [hfollows.config, ih hrest next List.mem_cons_self]
    · exact ih hrest b' hb'

/-! ### The L1 heads -/

section Headers

variable {η : Type} {z : Zkvm η}

theorem mem_markFound {hash head : B256}
    (h : (head, true) ∈ markFound hash heads) : (head, true) ∈ heads ∨ head = hash := by
  obtain ⟨⟨head', found⟩, hmem, heq⟩ := List.mem_map.mp h
  obtain ⟨rfl, hfound⟩ := Prod.mk.inj heq
  cases found with
  | true => exact .inl hmem
  | false => exact .inr (by simpa using hfound)

theorem walkHeaders_found (h : z.walkHeaders current heads headers = .ok heads')
    (hfound : (head, true) ∈ heads') : (head, true) ∈ heads ∨ z.Ancestor head current := by
  induction headers generalizing current heads with
  | nil =>
    cases h
    exact .inl hfound
  | cons header headers ih =>
    rw [Zkvm.walkHeaders] at h
    simp only [bind_ok, reject_ok, not_not] at h
    obtain ⟨-, hhash, hrest⟩ := h
    subst hhash
    rcases ih hrest with hmarked | hancestor
    · rcases mem_markFound hmarked with hbefore | rfl
      · exact .inl hbefore
      · exact .inr (.self _)
    · exact .inr (.parent header hancestor)

theorem walkHeaders_heads (h : z.walkHeaders current heads headers = .ok heads') :
    heads'.map Prod.fst = heads.map Prod.fst := by
  induction headers generalizing current heads with
  | nil =>
    cases h
    rfl
  | cons header headers ih =>
    rw [Zkvm.walkHeaders] at h
    simp only [bind_ok] at h
    obtain ⟨-, -, hrest⟩ := h
    rw [ih hrest, markFound, List.map_map]
    rfl

/-- What accepted inputs are. -/
structure Accepted (z : Zkvm η) (inputs : AggregationInputs) (first : BootInfoStruct)
    (rest : List BootInfoStruct) : Prop where
  bootInfos : inputs.bootInfos = first :: rest
  follows : (first :: rest).IsChain Follows
  verified : ∀ b ∈ first :: rest, z.verified inputs.multiBlockVkey b = true
  heads : ∀ b ∈ first :: rest, z.Ancestor b.l1Head inputs.latestL1CheckpointHead

theorem aggregate_accepted (h : z.aggregate inputs headersBytes = .ok (out, digest)) :
    ∃ first rest, Accepted z inputs first rest ∧
      out = inputs.outputs first (rest.getLastD first) := by
  unfold Zkvm.aggregate at h
  rw [bind_ok] at h
  obtain ⟨headers, -, h⟩ := h
  split at h
  · cases h
  · rename_i first rest hbootInfos
    simp only [bind_ok, reject_ok, not_not] at h
    obtain ⟨⟨⟩, hsequential, -, hverified, heads, hwalk, -, hfound, heq⟩ := h
    cases heq
    refine ⟨first, rest, ⟨hbootInfos, checkSequential_ok hsequential, List.all_eq_true.mp hverified,
      ?_⟩, rfl⟩
    intro b hb
    have hkey : b.l1Head ∈ heads.map Prod.fst := by
      rw [walkHeaders_heads hwalk, List.map_map]
      exact List.mem_map.mpr ⟨b, hb, rfl⟩
    obtain ⟨⟨head, found⟩, hmem, rfl⟩ := List.mem_map.mp hkey
    have htrue : found = true := List.all_eq_true.mp hfound _ hmem
    subst htrue
    rcases walkHeaders_found hwalk hmem with hstart | hancestor
    · obtain ⟨b', -, heq⟩ := List.mem_map.mp hstart
      cases (Prod.mk.inj heq).2
    · exact hancestor

end Headers

/-! ### The whole range -/

/-- More L1 data does not change what was derived, and no two blocks have the same output root. -/
structure Consistent {η : Type} (z : Zkvm η) (derived : DerivedRoots) : Prop where
  later : ∀ {config hash hash' : B256} {n : ℕ} {root : B256}, z.Ancestor hash hash' →
    derived config hash n = some root → derived config hash' n = some root
  distinct : ∀ {config hash : B256} {n n' : ℕ} {root : B256},
    derived config hash n = some root → derived config hash n' = some root → n = n'

section WholeRange

variable {η : Type} {z : Zkvm η} {derived : DerivedRoots} {sampling : BootInfoStruct → ℕ}
  {inputs : AggregationInputs} {first : BootInfoStruct} {rest : List BootInfoStruct}

section

variable (ha : Accepted z inputs first rest) (hc : Consistent z derived)
  (htrue : ∀ b ∈ first :: rest, b.TrueOf derived (sampling b))
include ha hc htrue

theorem Accepted.derived_eq (hb : b ∈ first :: rest) (hlow : b.l2PreBlockNumber.toNat ≤ n)
    (hhigh : n ≤ b.l2BlockNumber.toNat) :
    ∃ root, derived b.rollupConfigHash b.l1Head n = some root ∧
      derived (rest.getLastD first).rollupConfigHash inputs.latestL1CheckpointHead n =
        some root := by
  obtain ⟨root, hroot⟩ := (htrue b hb).blocks n hlow hhigh
  refine ⟨root, hroot, ?_⟩
  rw [← config_eq ha.follows b hb]
  exact hc.later (ha.heads b hb) hroot

/-- The samples of one range, in the roots up to the checkpoint. -/
theorem Accepted.samples (hb : b ∈ first :: rest) :
    ∃ roots, b.intermediateRoots = rootBytes roots ∧ roots.map some =
      pick (multipleOf (sampling b)) 0 (span (derived (rest.getLastD first).rollupConfigHash
        inputs.latestL1CheckpointHead) b.l2PreBlockNumber.toNat b.length) := by
  obtain ⟨roots, hbytes, hroots⟩ := (sampledEvery_iff (htrue b hb).positive).mp (htrue b hb).roots
  refine ⟨roots, hbytes, ?_⟩
  rw [hroots]
  congr 1
  refine List.map_congr_left fun k hk => ?_
  rw [List.mem_range] at hk
  obtain ⟨root, hown, hall⟩ := ha.derived_eq hc htrue hb
    (n := b.l2PreBlockNumber.toNat + k + 1) (by omega) (by omega)
  rw [hown, hall]

theorem Accepted.allSamples :
    ∃ roots, inputs.bootInfos.flatMap (·.intermediateRoots) = rootBytes roots ∧ roots.map some =
      pick (wantedBy sampling (first :: rest)) 0 (span (derived
        (rest.getLastD first).rollupConfigHash inputs.latestL1CheckpointHead)
          first.l2PreBlockNumber.toNat (totalLength (first :: rest))) := by
  rw [ha.bootInfos, ← flatten_picks _ _ ha.follows (fun b hb => (htrue b hb).ordered)]
  have hsamples := fun b (hb : b ∈ first :: rest) => ha.samples hc htrue hb
  generalize first :: rest = bootInfos at hsamples
  induction bootInfos with
  | nil => exact ⟨[], rfl, rfl⟩
  | cons b bootInfos ih =>
    obtain ⟨roots, hbytes, hroots⟩ := hsamples b List.mem_cons_self
    obtain ⟨more, hmoreBytes, hmore⟩ := ih (fun b' hb' => hsamples b' (List.mem_cons_of_mem _ hb'))
    refine ⟨roots ++ more, ?_, ?_⟩
    · rw [List.flatMap_cons, hbytes, hmoreBytes, rootBytes, rootBytes, rootBytes,
        List.flatMap_append]
    · rw [List.map_append, hroots, hmore, List.map_cons, List.flatten_cons]

end

theorem exists_range (h : (first :: rest).IsChain Follows)
    (hordered : ∀ b ∈ first :: rest, b.l2PreBlockNumber.toNat ≤ b.l2BlockNumber.toNat)
    (hlow : first.l2PreBlockNumber.toNat ≤ n)
    (hhigh : n ≤ first.l2PreBlockNumber.toNat + totalLength (first :: rest)) :
    ∃ b ∈ first :: rest, b.l2PreBlockNumber.toNat ≤ n ∧ n ≤ b.l2BlockNumber.toNat := by
  rw [totalLength_eq h hordered] at hhigh
  induction rest generalizing first with
  | nil => exact ⟨first, List.mem_cons_self, hlow, hhigh⟩
  | cons next rest ih =>
    obtain ⟨hfollows, hrest⟩ := List.isChain_cons_cons.mp h
    rcases Nat.lt_or_ge first.l2BlockNumber.toNat n with hafter | hin
    · rw [List.getLastD_cons] at hhigh
      obtain ⟨b, hb, hrange⟩ := ih hrest (fun b hb => hordered b (List.mem_cons_of_mem _ hb))
        (by rw [← hfollows.block]; omega) hhigh
      exact ⟨b, List.mem_cons_of_mem _ hb, hrange⟩
    · exact ⟨first, List.mem_cons_self, hlow, hin⟩

theorem Accepted.nodup (ha : Accepted z inputs first rest) (hc : Consistent z derived)
    (htrue : ∀ b ∈ first :: rest, b.TrueOf derived (sampling b)) :
    (span (derived (rest.getLastD first).rollupConfigHash inputs.latestL1CheckpointHead)
      first.l2PreBlockNumber.toNat (totalLength (first :: rest))).Nodup := by
  refine (List.nodup_map_iff_inj_on List.nodup_range).mpr ?_
  intro k hk k' hk' heq
  rw [List.mem_range] at hk hk'
  obtain ⟨b, hb, hlow, hhigh⟩ := exists_range ha.follows (fun b hb => (htrue b hb).ordered)
    (n := first.l2PreBlockNumber.toNat + k + 1) (by omega) (by omega)
  obtain ⟨root, -, hroot⟩ := ha.derived_eq hc htrue hb hlow hhigh
  have hsame := hc.distinct hroot (heq ▸ hroot)
  omega

theorem getLastD_mem_cons (first : BootInfoStruct) (rest : List BootInfoStruct) :
    rest.getLastD first ∈ first :: rest := by
  rw [List.getLastD_eq_getLast?]
  cases hlast : rest.getLast? with
  | none => exact List.mem_cons_self
  | some last => exact List.mem_cons_of_mem _ (List.mem_of_getLast? hlast)

/-- The outputs are true of the whole range exactly when the ranges sample the multiples of one
interval. The other parts are always true. -/
theorem aggregate_trueOf_iff (sampling : BootInfoStruct → ℕ) {headersBytes : Bytes}
    {out : AggregationOutputs} {digest : B256} (hc : Consistent z derived)
    (h : z.aggregate inputs headersBytes = .ok (out, digest))
    (hsound : ∀ b ∈ inputs.bootInfos, z.verified inputs.multiBlockVkey b = true →
      b.TrueOf derived (sampling b)) :
    out.TrueOf z derived inputs ↔
      ∃ interval, 0 < interval ∧ Aligned sampling interval 0 inputs.bootInfos := by
  obtain ⟨first, rest, ha, rfl⟩ := aggregate_accepted h
  rw [ha.bootInfos] at hsound
  have htrue := fun b hb => hsound b hb (ha.verified b hb)
  have hordered := fun b hb => (htrue b hb).ordered
  have hlength : (rest.getLastD first).l2BlockNumber.toNat - first.l2PreBlockNumber.toNat =
      totalLength (first :: rest) := by
    rw [← totalLength_eq ha.follows hordered]
    omega
  obtain ⟨roots, hbytes, hroots⟩ := ha.allSamples hc htrue
  have hnodup := ha.nodup hc htrue
  have haligned {interval : ℕ} (hpos : 0 < interval) :
      SampledEvery (derived (rest.getLastD first).rollupConfigHash inputs.latestL1CheckpointHead)
          first.l2PreBlockNumber.toNat (rest.getLastD first).l2BlockNumber.toNat interval
          (inputs.bootInfos.flatMap (·.intermediateRoots)) ↔
        Aligned sampling interval 0 (first :: rest) := by
    have hpositions : roots.map some = pick (multipleOf interval) 0 (span (derived
        (rest.getLastD first).rollupConfigHash inputs.latestL1CheckpointHead)
          first.l2PreBlockNumber.toNat (totalLength (first :: rest))) ↔
        Aligned sampling interval 0 (first :: rest) := by
      rw [hroots, pick_eq_iff hnodup, aligned_iff, length_span]
      simp
    rw [sampledEvery_iff hpos, hlength, ← hpositions]
    constructor
    · rintro ⟨roots', hbytes', hroots'⟩
      rw [rootBytes_inj (hbytes.symm.trans hbytes'), hroots']
    · intro heq
      exact ⟨roots, hbytes, heq⟩
  rw [ha.bootInfos]
  constructor
  · intro hout
    obtain ⟨interval, hpos, hsampled⟩ := hout.roots
    exact ⟨interval, hpos, (haligned hpos).mp hsampled⟩
  · rintro ⟨interval, hpos, hall⟩
    refine ⟨?_, ?_, ?_, interval, hpos, (haligned hpos).mpr hall⟩
    · obtain ⟨root, hown, hroot⟩ := ha.derived_eq hc htrue List.mem_cons_self le_rfl
        (hordered first List.mem_cons_self)
      rw [(htrue first List.mem_cons_self).pre] at hown
      exact hroot.trans hown.symm
    · have hlast := getLastD_mem_cons first rest
      obtain ⟨root, hown, hroot⟩ := ha.derived_eq hc htrue hlast (hordered _ hlast) le_rfl
      rw [(htrue _ hlast).post] at hown
      exact hroot.trans hown.symm
    · rw [ha.bootInfos]
      exact ha.heads

end WholeRange

/-- A chain of a hundred blocks, in which the output roots are the numbers. -/
def numberRoots : DerivedRoots := fun _ _ n =>
  if n < 100 then some (BitVec.ofNat 256 n) else none

theorem numberRoots_eq {config hash : B256} (h : n < 100) :
    numberRoots config hash n = some (BitVec.ofNat 256 n) := if_pos h

/-- One L1 block, and proofs that are all accepted. -/
def plainZkvm : Zkvm Unit where
  decodeHeaders _ := some [()]
  hashSlow _ := 1
  parentHash _ := 0
  serialize _ := []
  sha256 _ := 0
  verifySp1Proof _ _ := true
  keccak256 _ := 0

/-- A range of which some roots are sampled. -/
def sampledRange (start stop : ℕ) (samples : List B256) : BootInfoStruct where
  l1Head := 1
  l2PreRoot := BitVec.ofNat 256 start
  l2PostRoot := BitVec.ofNat 256 stop
  l2PreBlockNumber := BitVec.ofNat 64 start
  l2BlockNumber := BitVec.ofNat 64 stop
  rollupConfigHash := 9
  intermediateRoots := rootBytes samples

def aggregationOf (bootInfos : List BootInfoStruct) : AggregationInputs :=
  ⟨bootInfos, 1, Vector.replicate 8 0, 0⟩

/-- The outputs of accepted inputs. -/
def aggregated (bootInfos : List BootInfoStruct) : Option AggregationOutputs :=
  (plainZkvm.aggregate (aggregationOf bootInfos) []).toOption.map Prod.fst

theorem aggregated_ok (h : aggregated bootInfos = some out) :
    ∃ digest, plainZkvm.aggregate (aggregationOf bootInfos) [] = .ok (out, digest) := by
  obtain ⟨⟨out', digest⟩, hresult, rfl⟩ := Option.map_eq_some_iff.mp h
  cases haggregate : plainZkvm.aggregate (aggregationOf bootInfos) [] with
  | error e =>
    rw [haggregate] at hresult
    cases hresult
  | ok result =>
    rw [haggregate] at hresult
    cases hresult
    exact ⟨digest, rfl⟩

theorem sampledRange_trueOf {start stop : ℕ} (hle : start ≤ stop) (hlt : stop < 100)
    (hsamples : samples = (List.range ((stop - start) / 2)).map
      (fun i => BitVec.ofNat 256 (start + (i + 1) * 2))) :
    (sampledRange start stop samples).TrueOf numberRoots 2 := by
  have hstart : (sampledRange start stop samples).l2PreBlockNumber.toNat = start :=
    Nat.mod_eq_of_lt (by omega)
  have hstop : (sampledRange start stop samples).l2BlockNumber.toNat = stop :=
    Nat.mod_eq_of_lt (by omega)
  refine ⟨by decide, ?_, ?_, ?_, ?_, ?_⟩
  · rw [hstart, hstop]
    exact hle
  · intro n _ hn
    rw [hstop] at hn
    exact ⟨_, numberRoots_eq (by omega)⟩
  · rw [hstart]
    exact numberRoots_eq (by omega)
  · rw [hstop]
    exact numberRoots_eq hlt
  · rw [hstart, hstop]
    refine ⟨samples, rfl, ?_⟩
    rw [hsamples, List.map_map]
    refine List.map_congr_left fun i hi => (numberRoots_eq ?_).symm
    rw [List.mem_range] at hi
    omega

/-- Blocks 1 to 6 as two ranges of three blocks, with every second root of each. The roots that are
stated are those of the blocks 2 and 5, which no interval samples. -/
theorem ranges_of_three_misaligned :
    (sampledRange 0 3 [2]).TrueOf numberRoots 2 ∧ (sampledRange 3 6 [5]).TrueOf numberRoots 2 ∧
      ∃ out, aggregated [sampledRange 0 3 [2], sampledRange 3 6 [5]] = some out ∧
        out.startingL2SequenceNumber = 0 ∧ out.endingL2SequenceNumber = 6 ∧
        out.intermediateRoots = rootBytes [2, 5] ∧
        ¬out.TrueOf plainZkvm numberRoots
          (aggregationOf [sampledRange 0 3 [2], sampledRange 3 6 [5]]) := by
  refine ⟨sampledRange_trueOf (by decide) (by decide) rfl,
    sampledRange_trueOf (by decide) (by decide) rfl, _, rfl, rfl, rfl, rfl, ?_⟩
  intro hout
  obtain ⟨interval, hpos, roots, hbytes, hroots⟩ := hout.roots
  have hstated : [2, 5] = roots := rootBytes_inj hbytes
  have hcount := congrArg List.length hroots
  rw [← hstated] at hroots hcount
  rw [List.length_map, List.length_map, List.length_range] at hcount
  have htwo : 6 / interval = 2 := hcount.symm
  have hthree : interval = 3 := by
    have hle : interval ≤ 6 := by
      by_contra hgt
      rw [Nat.div_eq_of_lt (by omega)] at htwo
      cases htwo
    match interval, hpos, hle with
    | 1, _, _ | 2, _, _ | 4, _, _ | 5, _, _ | 6, _, _ => cases htwo
    | 3, _, _ => rfl
  subst hthree
  revert hroots
  decide +kernel

theorem numberRoots_consistent : Consistent plainZkvm numberRoots := by
  refine ⟨fun _ h => h, ?_⟩
  intro config hash n n' root h h'
  unfold numberRoots at h h'
  split at h
  · split at h'
    · have hvalue := congrArg BitVec.toNat (Option.some.inj (h.trans h'.symm))
      rw [BitVec.toNat_ofNat, BitVec.toNat_ofNat, Nat.mod_eq_of_lt (by omega),
        Nat.mod_eq_of_lt (by omega)] at hvalue
      exact hvalue
    · cases h'
  · cases h

/-- Four blocks and then three, with every second root of each. -/
theorem aggregate_trueOf_four_three :
    ∃ out, aggregated [sampledRange 0 4 [2, 4], sampledRange 4 7 [6]] = some out ∧
      out.TrueOf plainZkvm numberRoots
        (aggregationOf [sampledRange 0 4 [2, 4], sampledRange 4 7 [6]]) := by
  refine ⟨_, rfl, ?_⟩
  have haccepted : aggregated [sampledRange 0 4 [2, 4], sampledRange 4 7 [6]] = some _ := rfl
  obtain ⟨digest, haggregate⟩ := aggregated_ok haccepted
  refine (aggregate_trueOf_iff (fun _ => 2) numberRoots_consistent haggregate ?_).mpr
    ⟨2, by decide, ?_⟩
  · intro b hb _
    have hb' : b ∈ [sampledRange 0 4 [2, 4], sampledRange 4 7 [6]] := hb
    simp only [List.mem_cons, List.not_mem_nil, or_false] at hb'
    rcases hb' with rfl | rfl
    · exact sampledRange_trueOf (by decide) (by decide) rfl
    · exact sampledRange_trueOf (by decide) (by decide) rfl
  · refine ⟨?_, ?_, trivial⟩
    · intro k _ _
      rw [Nat.zero_add]
    · intro k _ _
      change 2 ∣ k ↔ 2 ∣ 4 + k
      omega

end SciChain.Prover
