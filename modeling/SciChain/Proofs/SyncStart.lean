import SciChain.Engine.SyncStart
import SciChain.Proofs.ForkchoiceOrder

namespace SciChain.Engine
open Derive Library Procedure

variable {codecs : Codecs} {cfg : EngineConfig}

/-- The chain of the execution layer, from its latest block back to the genesis block, with
the places of its labels counted from the latest block. -/
structure HeldChain (codecs : Codecs) (cfg : EngineConfig) where
  blocks : List RpcBlock
  infos : List L2BlockInfo
  converted : blocks.map (fun b => blockInfoOf codecs cfg b.intoConsensus) = infos.map .ok
  linked : infos.IsChain (fun child parent => child.blockInfo.parentHash = parent.blockInfo.hash)
  distinct : (infos.map (·.blockInfo.hash)).Nodup
  rooted : infos.getLast?.map (·.blockInfo.hash) = some cfg.rollup.genesis.l2.hash
  toSafe : ℕ
  toFinalized : ℕ
  safe_before_finalized : toSafe ≤ toFinalized
  finalized_held : toFinalized < infos.length

/-- The answers of an execution layer that holds the chain, and of an L1 node that knows
the blocks of `l1` by their hashes. A label that is not set is answered with no block. -/
structure Serves (chain : HeldChain codecs cfg) (l1 : B256 → Option BlockInfo)
    (answer : (c : Call) → c.Answer) : Prop where
  latest : answer (.getL2Block .latest) = .ok chain.blocks.head?
  finalized : answer (.getL2Block .finalized) = .ok chain.blocks[chain.toFinalized]? ∨
    (answer (.getL2Block .finalized) = .ok none ∧
      answer (.getL2Block (.number cfg.rollup.genesis.l2.number)) =
        .ok chain.blocks[chain.toFinalized]?)
  safe : answer (.getL2Block .safe) = .ok chain.blocks[chain.toSafe]? ∨
    (answer (.getL2Block .safe) = .ok none ∧ chain.toSafe = chain.toFinalized)
  held : ∀ (i : ℕ) info, chain.infos[i]? = some info →
    answer (.getL2Block (.hash info.blockInfo.hash)) = .ok chain.blocks[i]?
  genesis : ∀ g, chain.infos.getLast? = some g →
    answer (.getL2Block (.hash g.blockInfo.parentHash)) = .ok none
  l1 : ∀ hash, answer (.getL1Block hash) = .ok (l1 hash)

namespace HeldChain

variable (chain : HeldChain codecs cfg)

theorem length_eq : chain.blocks.length = chain.infos.length := by
  have := congrArg List.length chain.converted
  simpa using this

theorem blockInfoOf_eq {i : ℕ}
    (hb : chain.blocks[i]? = some block) (hi : chain.infos[i]? = some info) :
    blockInfoOf codecs cfg block.intoConsensus = .ok info := by
  have h := congrArg (fun xs => xs[i]?) chain.converted
  simpa [hb, hi] using h

theorem block_at {i : ℕ} (hi : chain.infos[i]? = some info) :
    ∃ block, chain.blocks[i]? = some block := by
  have hlt := (List.getElem?_eq_some_iff.mp hi).1
  exact ⟨_, List.getElem?_eq_getElem (chain.length_eq ▸ hlt)⟩

theorem place_unique {i j : ℕ} (hi : chain.infos[i]? = some a)
    (hj : chain.infos[j]? = some b) (hhash : a.blockInfo.hash = b.blockInfo.hash) : i = j := by
  have hlt : i < (chain.infos.map (·.blockInfo.hash)).length := by
    rw [List.length_map]
    exact (List.getElem?_eq_some_iff.mp hi).1
  refine (List.getElem?_inj hlt chain.distinct).mp ?_
  simp [hi, hj, hhash]

theorem exists_genesis : ∃ g, chain.infos[chain.infos.length - 1]? = some g ∧
    g.blockInfo.hash = cfg.rollup.genesis.l2.hash := by
  have h := chain.rooted
  rw [List.getLast?_eq_getElem?, Option.map_eq_some_iff] at h
  exact h

theorem exists_at (h : i ≤ chain.toFinalized) : ∃ info, chain.infos[i]? = some info := by
  have := chain.finalized_held
  exact ⟨_, List.getElem?_eq_getElem (show i < chain.infos.length by omega)⟩

end HeldChain

theorem getL2Block_reply {ε : Type} {answer : (c : Call) → c.Answer} {id : BlockId}
    {r : Except RpcError (Option RpcBlock)} (h : answer (.getL2Block id) = r) (s : EngineState) :
    (Task.getL2Block id : Task ε _).reply answer s = (.ok r, s) := by
  subst h
  rfl

theorem requireBlock_reply {answer : (c : Call) → c.Answer} {id : BlockId}
    (h : answer (.getL2Block id) = .ok found) (s : EngineState) :
    (requireBlock id).reply answer s = (found.elim (.error (.blockNotFound id)) .ok, s) := by
  unfold requireBlock
  rw [reply_bind_ok (getL2Block_reply h s)]
  cases found <;> rfl

section Walk

variable {chain : HeldChain codecs cfg} {l1 : B256 → Option BlockInfo}
  {answer : (c : Call) → c.Answer}

theorem Serves.child (h : Serves chain l1 answer) {child : L2BlockInfo}
    (hchild : chain.infos[i]? = some child) :
    answer (.getL2Block (.hash child.blockInfo.parentHash)) = .ok chain.blocks[i + 1]? := by
  obtain ⟨hi, rfl⟩ := List.getElem?_eq_some_iff.mp hchild
  by_cases hnext : i + 1 < chain.infos.length
  · rw [List.isChain_iff_getElem.mp chain.linked i hnext]
    exact h.held (i + 1) _ (List.getElem?_eq_getElem hnext)
  · have hlast : chain.infos.getLast? = some chain.infos[i] := by
      rw [List.getLast?_eq_getElem?, show chain.infos.length - 1 = i by omega]
      exact hchild
    have hnone : chain.blocks[i + 1]? = none := by
      rw [List.getElem?_eq_none_iff, chain.length_eq]
      omega
    rw [hnone]
    exact h.genesis _ hlast

theorem infoOf_reply {i : ℕ}
    (hb : chain.blocks[i]? = some block) (hi : chain.infos[i]? = some info) (s : EngineState) :
    (infoOf codecs cfg block).reply answer s = (.ok info, s) := by
  rw [infoOf, chain.blockInfoOf_eq hb hi]
  rfl

theorem l2Parent_reply (h : Serves chain l1 answer) {i : ℕ}
    (hchild : chain.infos[i]? = some child) (hparent : chain.infos[i + 1]? = some parent)
    (s : EngineState) : (l2Parent codecs cfg child).reply answer s = (.ok parent, s) := by
  obtain ⟨block, hblock⟩ := chain.block_at hparent
  have hfound := h.child hchild
  rw [hblock] at hfound
  unfold l2Parent
  rw [reply_bind_ok (requireBlock_reply hfound s)]
  exact infoOf_reply hblock hparent s

/-- A walk back from a block: stop at the block, or go on from its parent. -/
structure Walks (codecs : Codecs) (cfg : EngineConfig) (answer : (c : Call) → c.Answer)
    (stop : L2BlockInfo → Bool)
    (walk : ℕ → L2BlockInfo → Task SyncStartError (Option L2BlockInfo)) : Prop where
  zero : ∀ block s, (walk 0 block).reply answer s = (.ok none, s)
  succ : ∀ n block s, (walk (n + 1) block).reply answer s =
    if stop block then (.ok (some block), s)
    else (l2Parent codecs cfg block >>= walk n).reply answer s

variable {stop : L2BlockInfo → Bool}
  {walk : ℕ → L2BlockInfo → Task SyncStartError (Option L2BlockInfo)}

theorem l2Parent_last (h : Serves chain l1 answer) (hchild : chain.infos[i]? = some child)
    (hlast : chain.infos[i + 1]? = none) (s : EngineState) :
    ∃ e, (l2Parent codecs cfg child).reply answer s = (.error e, s) := by
  have hnone : chain.blocks[i + 1]? = none := by
    rw [List.getElem?_eq_none_iff] at hlast ⊢
    rw [chain.length_eq]
    exact hlast
  have hfound := h.child hchild
  rw [hnone] at hfound
  unfold l2Parent
  exact ⟨_, reply_bind_error (requireBlock_reply hfound s)⟩

theorem Walks.first (hwalk : Walks codecs cfg answer stop walk)
    (h : Serves chain l1 answer) {n i : ℕ} (hblock : chain.infos[i]? = some block)
    (hr : (walk n block).reply answer s = (.ok (some found), t)) :
    ∃ j, i ≤ j ∧ chain.infos[j]? = some found ∧ stop found = true ∧
      ∀ k, i ≤ k → k < j → ∀ b, chain.infos[k]? = some b → stop b = false := by
  induction n generalizing i block with
  | zero => simp [hwalk.zero] at hr
  | succ n ih =>
    rw [hwalk.succ] at hr
    split at hr
    · rename_i hstop
      cases hr
      exact ⟨i, le_refl i, hblock, hstop, fun k hk hk' => by omega⟩
    · rename_i hgo
      cases hparent : chain.infos[i + 1]? with
      | none =>
        obtain ⟨e, he⟩ := l2Parent_last h hblock hparent s
        rw [reply_bind_error he] at hr
        simp at hr
      | some parent =>
        rw [reply_bind_ok (l2Parent_reply h hblock hparent s)] at hr
        obtain ⟨j, hij, hfound, hstop, hbefore⟩ := ih hparent hr
        refine ⟨j, by omega, hfound, hstop, ?_⟩
        intro k hk hkj b hb
        rcases Nat.eq_or_lt_of_le hk with rfl | hk
        · rw [hblock] at hb
          cases hb
          exact Bool.not_eq_true _ ▸ hgo
        · exact hbefore k hk hkj b hb

theorem Walks.reaches (hwalk : Walks codecs cfg answer stop walk) (h : Serves chain l1 answer)
    (s : EngineState) (hij : i ≤ j) (hn : j < i + n) (hblock : chain.infos[i]? = some block)
    (hfound : chain.infos[j]? = some found) (hstop : stop found = true)
    (hbefore : ∀ k, i ≤ k → k < j → ∀ b, chain.infos[k]? = some b → stop b = false) :
    (walk n block).reply answer s = (.ok (some found), s) := by
  induction n generalizing i block with
  | zero => omega
  | succ n ih =>
    rw [hwalk.succ]
    rcases Nat.eq_or_lt_of_le hij with rfl | hlt
    · rw [hblock] at hfound
      cases hfound
      rw [if_pos hstop]
    · have hgo := hbefore i (le_refl i) hlt block hblock
      have hj := (List.getElem?_eq_some_iff.mp hfound).1
      obtain ⟨parent, hparent⟩ : ∃ parent, chain.infos[i + 1]? = some parent :=
        ⟨_, List.getElem?_eq_getElem (show i + 1 < chain.infos.length by omega)⟩
      rw [if_neg (by simp [hgo]), reply_bind_ok (l2Parent_reply h hblock hparent s)]
      exact ih (by omega) (by omega) hparent (fun k hk => hbefore k (by omega))

theorem walkUnsafe_walks (h : Serves chain l1 answer) :
    Walks codecs cfg answer (fun block => (l1 block.l1Origin.hash).isSome)
      (walkUnsafe codecs cfg) where
  zero _ _ := rfl
  succ n block s := by
    have hasked : (Procedure.ask (Call.getL1Block block.l1Origin.hash) :
        Task SyncStartError _).reply answer s = (.ok (.ok (l1 block.l1Origin.hash)), s) := by
      rw [← h.l1]
      rfl
    rw [walkUnsafe, reply_bind_ok hasked]
    cases l1 block.l1Origin.hash with
    | some origin => rfl
    | none => rfl

theorem walkSafe_walks (unSafe finalized : L2BlockInfo) :
    Walks codecs cfg answer (isSafeStart cfg unSafe finalized)
      (walkSafe codecs cfg unSafe finalized) where
  zero _ _ := rfl
  succ n block s := by
    rw [walkSafe]
    cases isSafeStart cfg unSafe finalized block <;> rfl

theorem getBlockCompat_reply {id : BlockId} {found : Option RpcBlock}
    (h : answer (.getL2Block id) = .ok found) (s : EngineState) :
    (getBlockCompat id).reply answer s = (.ok found, s) := by
  unfold getBlockCompat
  rw [reply_bind_ok (getL2Block_reply h s)]
  rfl

section

variable (h : Serves chain l1 answer)
include h

theorem currentFinalized_reply {finalized : L2BlockInfo}
    (hfinalized : chain.infos[chain.toFinalized]? = some finalized) (s : EngineState) :
    (currentFinalized codecs cfg).reply answer s = (.ok finalized, s) := by
  obtain ⟨block, hblock⟩ := chain.block_at hfinalized
  unfold currentFinalized
  rcases h.finalized with hlabel | ⟨hlabel, hgenesis⟩
  · rw [hblock] at hlabel
    rw [reply_bind_ok (getBlockCompat_reply hlabel s)]
    exact infoOf_reply hblock hfinalized s
  · rw [hblock] at hgenesis
    rw [reply_bind_ok (getBlockCompat_reply hlabel s),
      reply_bind_ok (requireBlock_reply hgenesis s)]
    exact infoOf_reply hblock hfinalized s

theorem currentSafe_reply {finalized safe : L2BlockInfo}
    (hfinalized : chain.infos[chain.toFinalized]? = some finalized)
    (hsafe : chain.infos[chain.toSafe]? = some safe) (s : EngineState) :
    (currentSafe codecs cfg finalized).reply answer s = (.ok safe, s) := by
  obtain ⟨block, hblock⟩ := chain.block_at hsafe
  unfold currentSafe
  rcases h.safe with hlabel | ⟨hlabel, heq⟩
  · rw [hblock] at hlabel
    rw [reply_bind_ok (getBlockCompat_reply hlabel s)]
    exact infoOf_reply hblock hsafe s
  · rw [heq, hfinalized] at hsafe
    cases hsafe
    rw [reply_bind_ok (getBlockCompat_reply hlabel s)]
    rfl

theorem currentUnsafe_reply {latest : L2BlockInfo} (hlatest : chain.infos[0]? = some latest)
    (s : EngineState) : (currentUnsafe codecs cfg).reply answer s = (.ok latest, s) := by
  obtain ⟨block, hblock⟩ := chain.block_at hlatest
  have hlabel := h.latest
  rw [List.head?_eq_getElem?, hblock] at hlabel
  unfold currentUnsafe
  rw [reply_bind_ok (getBlockCompat_reply hlabel s)]
  exact infoOf_reply hblock hlatest s

theorem current_reply {latest : L2BlockInfo} (hlatest : chain.infos[0]? = some latest)
    (hsafe : chain.infos[chain.toSafe]? = some safe)
    (hfinalized : chain.infos[chain.toFinalized]? = some finalized) (s : EngineState) :
    (L2ForkchoiceState.current codecs cfg).reply answer s = (.ok ⟨latest, safe, finalized⟩, s) := by
  unfold L2ForkchoiceState.current
  rw [reply_bind_ok (currentFinalized_reply h hfinalized s),
    reply_bind_ok (currentSafe_reply h hfinalized hsafe s),
    reply_bind_ok (currentUnsafe_reply h hlatest s)]
  rfl

end

end Walk

/-- Nothing is promoted by a starting point: the unsafe head is of the chain and its L1
origin is canonical, and the safe head is neither above it nor above the safe label nor
below the finalized head. -/
def Demotes (chain : HeldChain codecs cfg) (canonical : B256 → Prop) (fc : L2ForkchoiceState) :
    Prop :=
  ∃ i j, chain.infos[i]? = some fc.unSafe ∧ canonical fc.unSafe.l1Origin.hash ∧
    chain.infos[j]? = some fc.safe ∧ i ≤ j ∧ chain.toSafe ≤ j ∧ j ≤ chain.toFinalized ∧
    chain.infos[chain.toFinalized]? = some fc.finalized

/-- A block is behind the sequencing window of another one. -/
def behindWindow (cfg : EngineConfig) (unSafe block : L2BlockInfo) : Prop :=
  block.l1Origin.number < satSub unSafe.l1Origin.number cfg.rollup.seqWindowSize

/-- The highest block with a known L1 origin has a canonical one and is not below the
finalized head, and no block from it down to the safe label is behind its window. -/
def Settled (chain : HeldChain codecs cfg) (l1 : B256 → Option BlockInfo)
    (canonical : B256 → Prop) : Prop :=
  ∀ i unSafe, chain.infos[i]? = some unSafe → (l1 unSafe.l1Origin.hash).isSome = true →
    (∀ k, k < i → ∀ b, chain.infos[k]? = some b → l1 b.l1Origin.hash = none) →
    canonical unSafe.l1Origin.hash ∧ i ≤ chain.toFinalized ∧
      ∀ k, i ≤ k → k < chain.toSafe → ∀ b, chain.infos[k]? = some b → ¬behindWindow cfg unSafe b

section Reset

variable {chain : HeldChain codecs cfg} {l1 : B256 → Option BlockInfo}
  {answer : (c : Call) → c.Answer}

theorem findStartingForkchoice_found (h : Serves chain l1 answer) {fc : L2ForkchoiceState}
    (hr : (findStartingForkchoice codecs cfg n).reply answer s = (.ok (some fc), t)) :
    ∃ i j : ℕ, chain.infos[i]? = some fc.unSafe ∧ (l1 fc.unSafe.l1Origin.hash).isSome = true ∧
      (∀ k, k < i → ∀ b, chain.infos[k]? = some b → l1 b.l1Origin.hash = none) ∧
      i ≤ j ∧ chain.infos[j]? = some fc.safe ∧
      isSafeStart cfg fc.unSafe fc.finalized fc.safe = true ∧
      (∀ k, i ≤ k → k < j → ∀ b, chain.infos[k]? = some b →
        isSafeStart cfg fc.unSafe fc.finalized b = false) ∧
      chain.infos[chain.toFinalized]? = some fc.finalized := by
  obtain ⟨latest, hlatest⟩ := chain.exists_at (Nat.zero_le _)
  obtain ⟨safe, hsafe⟩ := chain.exists_at chain.safe_before_finalized
  obtain ⟨finalized, hfinalized⟩ := chain.exists_at (le_refl _)
  rw [findStartingForkchoice, reply_bind_ok (current_reply h hlatest hsafe hfinalized s)] at hr
  obtain ⟨found, u, hwalk, hr⟩ := of_reply_bind_ok hr
  cases found with
  | none => cases hr
  | some unSafe =>
    obtain ⟨i, _, hi, hknown, hunknown⟩ := (walkUnsafe_walks h).first h hlatest hwalk
    obtain ⟨back, v, hback, hr⟩ := of_reply_bind_ok hr
    cases back with
    | none => cases hr
    | some safeStart =>
      cases hr
      obtain ⟨j, hij, hj, hstop, hbefore⟩ := (walkSafe_walks unSafe finalized).first h hi hback
      refine ⟨i, j, hi, hknown, ?_, hij, hj, hstop, hbefore, hfinalized⟩
      intro k hk b hb
      simpa using hunknown k (Nat.zero_le k) hk b hb

theorem findStartingForkchoice_finds (h : Serves chain l1 answer) (s : EngineState)
    (hi : chain.infos[i]? = some unSafe) (hknown : (l1 unSafe.l1Origin.hash).isSome = true)
    (hunknown : ∀ k, k < i → ∀ b, chain.infos[k]? = some b → l1 b.l1Origin.hash = none)
    (hij : i ≤ j) (hj : chain.infos[j]? = some safeStart)
    (hfinalized : chain.infos[chain.toFinalized]? = some finalized)
    (hstop : isSafeStart cfg unSafe finalized safeStart = true)
    (hbefore : ∀ k, i ≤ k → k < j → ∀ b, chain.infos[k]? = some b →
      isSafeStart cfg unSafe finalized b = false) :
    (findStartingForkchoice codecs cfg (j + 1)).reply answer s =
      (.ok (some ⟨unSafe, safeStart, finalized⟩), s) := by
  obtain ⟨latest, hlatest⟩ := chain.exists_at (Nat.zero_le _)
  obtain ⟨safe, hsafe⟩ := chain.exists_at chain.safe_before_finalized
  have hwalk : (walkUnsafe codecs cfg (j + 1) latest).reply answer s = (.ok (some unSafe), s) := by
    refine (walkUnsafe_walks h).reaches h s (Nat.zero_le i) (by omega) hlatest hi hknown ?_
    intro k _ hk b hb
    simp [hunknown k hk b hb]
  have hback : (walkSafe codecs cfg unSafe finalized (j + 1) unSafe).reply answer s =
      (.ok (some safeStart), s) :=
    (walkSafe_walks unSafe finalized).reaches h s hij (by omega) hi hj hstop hbefore
  rw [findStartingForkchoice, reply_bind_ok (current_reply h hlatest hsafe hfinalized s),
    reply_bind_ok hwalk, reply_bind_ok hback]
  rfl

/-- The walk for the safe head stops at the genesis block at the latest. -/
theorem exists_safeStart (unSafe finalized : L2BlockInfo) (hi : i < chain.infos.length) :
    ∃ j b, i ≤ j ∧ chain.infos[j]? = some b ∧ isSafeStart cfg unSafe finalized b = true ∧
      ∀ k, i ≤ k → k < j → ∀ c, chain.infos[k]? = some c →
        isSafeStart cfg unSafe finalized c = false := by
  classical
  obtain ⟨g, hg, hgenesis⟩ := chain.exists_genesis
  have hex : ∃ j, i ≤ j ∧ ∃ b, chain.infos[j]? = some b ∧
      isSafeStart cfg unSafe finalized b = true :=
    ⟨_, by omega, g, hg, by simp [isSafeStart, hgenesis]⟩
  obtain ⟨hle, b, hb, hstop⟩ := Nat.find_spec hex
  refine ⟨Nat.find hex, b, hle, hb, hstop, ?_⟩
  intro k hk hlt c hc
  by_contra hgo
  exact Nat.find_min hex hlt ⟨hk, c, hc, by simpa using hgo⟩

/-- No starting point promotes anything exactly if the chain is settled. -/
theorem reset_promotes_nothing_iff (h : Serves chain l1 answer) (canonical : B256 → Prop)
    (s : EngineState) :
    (∀ n fc t, (findStartingForkchoice codecs cfg n).reply answer s = (.ok (some fc), t) →
      Demotes chain canonical fc) ↔ Settled chain l1 canonical := by
  constructor
  · intro hall i unSafe hi hknown hunknown
    obtain ⟨finalized, hfinalized⟩ := chain.exists_at (le_refl _)
    have hlt := (List.getElem?_eq_some_iff.mp hi).1
    obtain ⟨j, b, hij, hj, hstop, hbefore⟩ := exists_safeStart unSafe finalized hlt
    have hfound := findStartingForkchoice_finds h s hi hknown hunknown hij hj hfinalized hstop
      hbefore
    obtain ⟨i', j', hi', hcanonical, hj', _, hsafe, hfin, _⟩ := hall _ _ _ hfound
    obtain rfl := chain.place_unique hi hi' rfl
    obtain rfl := chain.place_unique hj hj' rfl
    refine ⟨hcanonical, by omega, ?_⟩
    intro k hik hk c hc hbehind
    have hgo := hbefore k hik (by omega) c hc
    simp only [isSafeStart, decide_eq_false_iff_not, not_or] at hgo
    exact hgo.1 hbehind
  · intro hsettled n fc t hr
    obtain ⟨i, j, hi, hknown, hunknown, hij, hj, hstop, hbefore, hfinalized⟩ :=
      findStartingForkchoice_found h hr
    obtain ⟨hcanonical, hfin, hwindow⟩ := hsettled i fc.unSafe hi hknown hunknown
    refine ⟨i, j, hi, hcanonical, hj, hij, ?_, ?_, hfinalized⟩
    · -- Above the safe label the walk has no reason to stop.
      by_contra hlt
      simp only [isSafeStart, decide_eq_true_eq] at hstop
      rcases hstop with hbehind | hhash | hgenesis
      · exact hwindow j hij (by omega) fc.safe hj hbehind
      · have := chain.place_unique hj hfinalized hhash
        have := chain.safe_before_finalized
        omega
      · obtain ⟨g, hg, hhash⟩ := chain.exists_genesis
        have := chain.place_unique hj hg (hgenesis.trans hhash.symm)
        have := chain.safe_before_finalized
        have := chain.finalized_held
        omega
    · -- It stops at the finalized head at the latest.
      by_contra hlt
      have := hbefore chain.toFinalized hfin (by omega) fc.finalized hfinalized
      simp [isSafeStart] at this

end Reset

/-- The answers of an execution layer that holds the chain and no other block. -/
def HeldChain.answer (chain : HeldChain codecs cfg) (l1 : B256 → Option BlockInfo) :
    (c : Call) → c.Answer
  | .getL2Block .latest => .ok chain.blocks.head?
  | .getL2Block .safe => .ok chain.blocks[chain.toSafe]?
  | .getL2Block .finalized => .ok chain.blocks[chain.toFinalized]?
  | .getL2Block (.hash hash) =>
    .ok chain.blocks[(chain.infos.map (·.blockInfo.hash)).idxOf hash]?
  | .getL2Block (.number _) => .ok none
  | .getL1Block hash => .ok (l1 hash)
  | .newPayload _ _ => .ok .syncing
  | .forkchoiceUpdated _ _ _ => .ok ⟨.syncing, none⟩
  | .getPayload _ _ => .error (.transport "")
  | .l2BlockByLabel _ => .ok none
  | .send _ => true

theorem HeldChain.serves_answer (chain : HeldChain codecs cfg) (l1 : B256 → Option BlockInfo)
    (hgenesis : ∀ g, chain.infos.getLast? = some g →
      g.blockInfo.parentHash ∉ chain.infos.map (·.blockInfo.hash)) :
    Serves chain l1 (chain.answer l1) where
  latest := rfl
  finalized := Or.inl rfl
  safe := Or.inl rfl
  held i info hi := by
    obtain ⟨hlt, rfl⟩ := List.getElem?_eq_some_iff.mp hi
    have hidx : (chain.infos.map (·.blockInfo.hash)).idxOf chain.infos[i].blockInfo.hash = i := by
      have h := List.Nodup.idxOf_getElem chain.distinct i (by simpa using hlt)
      simpa using h
    simp [HeldChain.answer, hidx]
  genesis g hg := by
    have hidx := List.idxOf_eq_length_iff.mpr (hgenesis g hg)
    simp only [HeldChain.answer, hidx, List.length_map]
    rw [List.getElem?_eq_none_iff.mpr (le_of_eq chain.length_eq)]
  l1 _ := rfl

/-- The calldata of a deposit is the number and the hash of the L1 origin. -/
def originCodecs : Codecs :=
  { plainCodecs with
    decodeCalldata := fun input =>
      some ⟨BitVec.ofNat 64 (input.headD 0).toNat, BitVec.ofNat 256 (input.headD 0).toNat, 0⟩ }

def windowConfig : EngineConfig :=
  { plainConfig none with rollup := { (plainConfig none).rollup with seqWindowSize := 2 } }

def originBlock (number : U64) (origin : UInt8) : RpcBlock :=
  { plainBlock number with transactions := .full [.deposit [origin] []] }

def originRef (number origin : ℕ) : L2BlockInfo :=
  { plainRef number with l1Origin := ⟨BitVec.ofNat 64 origin, BitVec.ofNat 256 origin⟩ }

def genesisRef : L2BlockInfo := { plainRef 0 with blockInfo := (plainBlock 0).intoConsensus.info }

/-- Three blocks on the genesis block, the latest one many L1 blocks after the others. -/
def longInfos : List L2BlockInfo := [originRef 3 10, originRef 2 5, originRef 1 4, genesisRef]

def longChain (toSafe : ℕ) (h : toSafe ≤ 3) : HeldChain originCodecs windowConfig where
  blocks := [originBlock 3 10, originBlock 2 5, originBlock 1 4, plainBlock 0]
  infos := longInfos
  converted := by decide +kernel
  linked := by decide +kernel
  distinct := by decide +kernel
  rooted := by decide +kernel
  toSafe
  toFinalized := 3
  safe_before_finalized := h
  finalized_held := by decide

def allKnown (hash : B256) : Option BlockInfo := some ⟨hash, 0, 0, 0⟩

theorem longChain_serves (toSafe : ℕ) (h : toSafe ≤ 3) :
    Serves (longChain toSafe h) allKnown ((longChain toSafe h).answer allKnown) := by
  refine (longChain toSafe h).serves_answer allKnown ?_
  intro g hg
  obtain rfl : genesisRef = g := Option.some.inj hg
  show genesisRef.blockInfo.parentHash ∉ longInfos.map (·.blockInfo.hash)
  decide +kernel

theorem longChain_settled : Settled (longChain 1 (by decide)) allKnown (fun _ => True) := by
  intro i unSafe hi _ hunknown
  cases i with
  | zero =>
    cases hi
    refine ⟨trivial, by decide, ?_⟩
    intro k _ hk b hb
    obtain rfl : k = 0 := Nat.lt_one_iff.mp hk
    cases hb
    simp only [behindWindow]
    decide +kernel
  | succ i => cases hunknown 0 (Nat.succ_pos i) _ rfl

/-- With the safe label at the second block nothing above it is behind the window. -/
theorem reset_promotes_nothing_longChain :
    Settled (longChain 1 (by decide)) allKnown (fun _ => True) ∧
      ∀ n fc t, (findStartingForkchoice originCodecs windowConfig n).reply
          ((longChain 1 (by decide)).answer allKnown) (plainState 0 2 3) = (.ok (some fc), t) →
        Demotes (longChain 1 (by decide)) (fun _ => True) fc :=
  ⟨longChain_settled, (reset_promotes_nothing_iff (longChain_serves 1 (by decide)) (fun _ => True)
    (plainState 0 2 3)).mpr longChain_settled⟩

/-- With the safe label at the block before it, a reset makes the second block safe: it is
behind the window of the latest block. -/
theorem reset_promotes_unsafe_block :
    Serves (longChain 2 (by decide)) allKnown ((longChain 2 (by decide)).answer allKnown) ∧
      ∃ fc, (findStartingForkchoice originCodecs windowConfig 2).reply
          ((longChain 2 (by decide)).answer allKnown) (plainState 0 1 3) =
            (.ok (some fc), plainState 0 1 3) ∧
        ¬Demotes (longChain 2 (by decide)) (fun _ => True) fc := by
  refine ⟨longChain_serves 2 (by decide),
    ⟨originRef 3 10, originRef 2 5, genesisRef⟩, by decide +kernel, ?_⟩
  intro ⟨_, j, _, _, hj, _, hsafe, _⟩
  have hplace : (longChain 2 (by decide)).infos[1]? = some (originRef 2 5) := rfl
  have := (longChain 2 (by decide)).place_unique hplace hj rfl
  have hlabel : (longChain 2 (by decide)).toSafe = 2 := rfl
  omega

end SciChain.Engine
