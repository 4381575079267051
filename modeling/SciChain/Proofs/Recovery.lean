import SciChain.Proposer.Recovery
import Mathlib.Logic.Relation
import Mathlib.Data.List.Chain

namespace SciChain.Proposer.Chain
open Library Relation

/-- The walk from the anchor over everything the factory has. -/
def fullWalk (cfg : DriverConfig) (chain : Chain) : Except ProposerError RecoveredState :=
  chain.forwardWalk cfg (chain.anchorState cfg)

/-- The walk goes on from a state to a game. -/
def Follows (cfg : DriverConfig) (chain : Chain) (s t : RecoveredState) : Prop :=
  chain.forwardStep cfg s = .ok (some t)

def Ends (cfg : DriverConfig) (chain : Chain) (s : RecoveredState) : Prop :=
  chain.forwardStep cfg s = .ok none

/-- The factory keeps its games and with an unchanged count has no others, the node keeps the
outputs it knows, and the anchor is where it was, or at a game of the walk from there. -/
structure Grows (cfg : DriverConfig) (a b : Chain) : Prop where
  games : ∀ type root extra, a.games type root extra ≠ 0 →
    b.games type root extra = a.games type root extra
  count_le : a.gameCount ≤ b.gameCount
  same : a.gameCount = b.gameCount → b.games = a.games
  outputs : ∀ block root, a.outputAtBlock block = some root → b.outputAtBlock block = some root
  anchor : ReflTransGen (b.Follows cfg) (a.anchorState cfg) (b.anchorState cfg)

/-- The node does not know an output of the interval after the state. -/
def Lacks (cfg : DriverConfig) (chain : Chain) (s : RecoveredState) : Prop :=
  ∃ blocks, cfg.intermediateBlockNumbers s.l2BlockNumber = .ok blocks ∧
    ∃ block ∈ blocks, chain.outputAtBlock block = none

variable {cfg : DriverConfig} {chain a b : Chain}

section Walk

theorem forwardWalk_eq (cfg : DriverConfig) (chain : Chain) (s : RecoveredState) :
    chain.forwardWalk cfg s = (chain.forwardStep cfg s).bind fun next =>
      next.elim (.ok s) (chain.forwardWalk cfg) := by
  rw [forwardWalk]
  split
  all_goals
    rename_i heq
    rw [heq]
    rfl

theorem forwardWalk_ends (h : chain.Ends cfg s) : chain.forwardWalk cfg s = .ok s := by
  rw [forwardWalk_eq, h]
  rfl

theorem forwardWalk_path (h : ReflTransGen (chain.Follows cfg) s t) :
    chain.forwardWalk cfg s = chain.forwardWalk cfg t := by
  induction h with
  | refl => rfl
  | tail _ hstep ih =>
    rw [ih, forwardWalk_eq, hstep]
    rfl

/-- A walk that returns has met every game up to where it ends. -/
theorem forwardWalk_ok (h : chain.forwardWalk cfg s = .ok r) :
    ReflTransGen (chain.Follows cfg) s r ∧ chain.Ends cfg r := by
  induction hn : 2 ^ 64 - s.l2BlockNumber using Nat.strongRecOn generalizing s with
  | ind n ih =>
    rw [forwardWalk_eq] at h
    obtain ⟨next, hnext, h⟩ := (bind_ok _ _ _).mp h
    cases next with
    | none =>
      cases h
      exact ⟨.refl, hnext⟩
    | some next =>
      have hnumber := forwardStep_number hnext
      obtain ⟨hpath, hend⟩ := ih (2 ^ 64 - next.l2BlockNumber) (by omega) h rfl
      exact ⟨.head hnext hpath, hend⟩

theorem rightUnique_follows : Relator.RightUnique (chain.Follows cfg) := by
  intro s t u ht hu
  exact Option.some.inj (Except.ok.inj (ht.symm.trans hu))

theorem eq_or_number_lt (h : ReflTransGen (chain.Follows cfg) s t) :
    s = t ∨ s.l2BlockNumber < t.l2BlockNumber := by
  induction h with
  | refl => exact Or.inl rfl
  | tail _ hstep ih =>
    have hlt := (forwardStep_number hstep).1
    rcases ih with rfl | ih
    · exact Or.inr hlt
    · exact Or.inr (ih.trans hlt)

end Walk

section Growth

theorem mapM_mono {α β : Type} {f g : α → Option β} (h : ∀ x y, f x = some y → g x = some y)
    {xs : List α} {ys : List β} (hxs : xs.mapM f = some ys) : xs.mapM g = some ys := by
  induction xs generalizing ys with
  | nil => exact hxs
  | cons x xs ih =>
    simp only [List.mapM_cons, Option.bind_eq_bind, Option.bind_eq_some_iff] at hxs ⊢
    obtain ⟨y, hy, ys', hys, hpure⟩ := hxs
    exact ⟨y, h x y hy, ys', ih hys, hpure⟩

theorem exists_of_mapM_none {α β : Type} {f : α → Option β} {xs : List α}
    (h : xs.mapM f = none) : ∃ x ∈ xs, f x = none := by
  induction xs with
  | nil => cases h
  | cons x xs ih =>
    cases hx : f x with
    | none => exact ⟨x, List.mem_cons_self, hx⟩
    | some y =>
      cases hxs : xs.mapM f with
      | none => exact (ih hxs).imp fun z hz => ⟨List.mem_cons_of_mem _ hz.1, hz.2⟩
      | some ys => simp [List.mapM_cons, hx, hxs] at h

theorem Grows.follows (h : a.Grows cfg b) (hstep : a.Follows cfg s t) : b.Follows cfg s t := by
  unfold Follows forwardStep at hstep ⊢
  dsimp only at hstep ⊢
  split at hstep
  · cases hstep
  · rename_i hnumber
    rw [if_neg hnumber]
    obtain ⟨blocks, hblocks, hstep⟩ := (bind_ok _ _ _).mp hstep
    rw [hblocks]
    cases hroots : blocks.mapM a.outputAtBlock with
    | none =>
      rw [hroots] at hstep
      cases hstep
    | some roots =>
      rw [hroots] at hstep
      dsimp only [Except.bind] at hstep ⊢
      rw [mapM_mono h.outputs hroots]
      dsimp only
      split at hstep
      · cases hstep
      · rename_i root hroot
        by_cases hproxy : a.games cfg.gameType root (encodeExtraData
            (s.l2BlockNumber + cfg.blockInterval) s.parentAddress roots) = 0
        · rw [if_pos hproxy] at hstep
          cases hstep
        · rw [h.games _ _ _ hproxy]
          exact hstep

/-- With an unchanged count the walk ends where it did, unless the node did not know how to go on. -/
theorem Grows.ends (h : a.Grows cfg b) (hcount : a.gameCount = b.gameCount)
    (hend : a.Ends cfg s) : b.Ends cfg s ∨ a.Lacks cfg s := by
  unfold Ends forwardStep at hend
  dsimp only at hend
  split at hend
  · rename_i hnumber
    exact .inl (if_pos hnumber)
  · rename_i hnumber
    obtain ⟨blocks, hblocks, hend⟩ := (bind_ok _ _ _).mp hend
    cases hroots : blocks.mapM a.outputAtBlock with
    | none => exact .inr ⟨blocks, hblocks, exists_of_mapM_none hroots⟩
    | some roots =>
      left
      rw [Ends, ← hend, forwardStep]
      rw [if_neg hnumber, hblocks, hroots, h.same hcount]
      dsimp only [Except.bind]
      rw [mapM_mono h.outputs hroots]

end Growth

/-- From one chain to the next: the chain grows, and with an unchanged count the walk still ends
at a state, or the state lags. -/
structure Carries (cfg : DriverConfig) (lags : Chain → RecoveredState → Prop) (a b : Chain) :
    Prop where
  grows : a.Grows cfg b
  ends : a.gameCount = b.gameCount → ∀ s, a.Ends cfg s ∨ lags a s → b.Ends cfg s ∨ lags b s

variable {lags : Chain → RecoveredState → Prop}

/-- The cached tip and the anchor are on one walk, which ends there if the count is the same and
the tip does not lag. -/
structure Tip (cfg : DriverConfig) (lags : Chain → RecoveredState → Prop) (chain : Chain)
    (cached : CachedRecovery) : Prop where
  path : ReflTransGen (chain.Follows cfg) (chain.anchorState cfg) cached.state ∨
    ReflTransGen (chain.Follows cfg) cached.state (chain.anchorState cfg)
  count_le : cached.gameCount ≤ chain.gameCount
  ends : cached.gameCount = chain.gameCount → chain.Ends cfg cached.state ∨ lags chain cached.state

/-- A state on the walk over the whole factory, at its end unless it lags. -/
def OnWalk (cfg : DriverConfig) (lags : Chain → RecoveredState → Prop) (chain : Chain)
    (s : RecoveredState) : Prop :=
  ReflTransGen (chain.Follows cfg) (chain.anchorState cfg) s ∧
    (chain.fullWalk cfg = .ok s ∨ lags chain s)

theorem Tip.carries (h : Tip cfg lags a cached) (hnext : Carries cfg lags a b) :
    Tip cfg lags b cached where
  path := by
    have hgrows := hnext.grows
    have hfollows {s t} (hpath : ReflTransGen (a.Follows cfg) s t) :
        ReflTransGen (b.Follows cfg) s t := ReflTransGen.mono (fun _ _ => hgrows.follows) _ _ hpath
    rcases h.path with hpath | hpath
    · exact hgrows.anchor.total_of_right_unique rightUnique_follows (hfollows hpath)
    · exact Or.inr ((hfollows hpath).trans hgrows.anchor)
  count_le := h.count_le.trans hnext.grows.count_le
  ends heq := by
    have hsame := le_antisymm hnext.grows.count_le (heq ▸ h.count_le)
    exact hnext.ends hsame _ (h.ends (heq.trans hsame.symm))

/-- A count that is lowered is below the present one, unless both are zero. -/
theorem Tip.lower (h : Tip cfg lags chain cached) :
    Tip cfg lags chain { cached with gameCount := cached.gameCount - 1 } where
  path := h.path
  count_le := (Nat.sub_le ..).trans h.count_le
  ends heq := by
    have hle := h.count_le
    exact h.ends (by dsimp only at heq; omega)

/-- A tip that is not below the anchor is ahead of it on the walk. -/
theorem Tip.ahead (h : Tip cfg lags chain cached)
    (hle : chain.anchor.l2BlockNumber ≤ cached.state.l2BlockNumber) :
    ReflTransGen (chain.Follows cfg) (chain.anchorState cfg) cached.state := by
  rcases h.path with hpath | hpath
  · exact hpath
  · rcases eq_or_number_lt hpath with heq | hlt
    · rw [heq]
    · exact absurd hle (Nat.not_le.mpr hlt)

theorem forwardWalk_start (h : ∀ c ∈ cache, Tip cfg lags chain c) :
    chain.forwardWalk cfg (chain.start cfg cache) = chain.fullWalk cfg := by
  unfold start
  split
  · rename_i cached
    split
    · rename_i hresume
      exact (forwardWalk_path ((h cached rfl).ahead hresume.1)).symm
    · rfl
  · rfl

theorem walkAndCache_spec (h : ∀ c ∈ cache, Tip cfg lags chain c) :
    (∀ s, (chain.walkAndCache cfg cache).1 = .ok s → OnWalk cfg lags chain s) ∧
      ∀ c ∈ (chain.walkAndCache cfg cache).2, Tip cfg lags chain c := by
  rw [walkAndCache, forwardWalk_start h]
  cases hwalk : chain.fullWalk cfg with
  | error e => exact ⟨nofun, h⟩
  | ok state =>
    obtain ⟨hpath, hend⟩ := forwardWalk_ok hwalk
    refine ⟨fun s hs => ?_, fun c hc => ?_⟩
    · cases hs
      exact ⟨hpath, .inl hwalk⟩
    · cases hc
      exact ⟨Or.inl hpath, le_rfl, fun _ => .inl hend⟩

/-- What a recovery returns is on the full walk, and so is the tip that it caches. -/
theorem recoverLatestState_spec (failure : Option ProposerError)
    (h : ∀ c ∈ cache, Tip cfg lags chain c) :
    (∀ s, (chain.recoverLatestState cfg failure cache).1 = .ok s → OnWalk cfg lags chain s) ∧
      ∀ c ∈ (chain.recoverLatestState cfg failure cache).2, Tip cfg lags chain c := by
  cases failure with
  | some e => exact ⟨nofun, h⟩
  | none =>
    cases cache with
    | none => exact walkAndCache_spec h
    | some cached =>
      rw [recoverLatestState]
      split
      · rename_i hsame
        refine ⟨fun s hs => ?_, h⟩
        cases hs
        have hpath := (h cached rfl).ahead hsame.1
        exact ⟨hpath, ((h cached rfl).ends hsame.2).imp_left fun hend =>
          (forwardWalk_path hpath).trans (forwardWalk_ends hend)⟩
      · exact walkAndCache_spec h

theorem recovers_spec (event : Event) (h : ∀ c ∈ cache, Tip cfg lags chain c) :
    ∀ c ∈ (event.recovers cfg cache).2, Tip cfg lags chain c := by
  have hnone : ∀ c ∈ (none : Option CachedRecovery), Tip cfg lags chain c :=
    nofun
  cases event with
  | tick safeHead =>
    cases cache with
    | none => exact hnone
    | some cached => cases safeHead <;> exact h
  | proofReset => exact hnone
  | submitResult outcome =>
    cases outcome with
    | success | discard | cancelled => exact h
    | rootMismatch | panicked => exact hnone
    | gameAlreadyExists =>
      intro c hc
      obtain ⟨cached, hcached, rfl⟩ := Option.map_eq_some_iff.mp hc
      exact (h cached hcached).lower
    | failed e =>
      rw [Event.recovers]
      split
      · exact hnone
      · exact h

theorem recoveries_spec (lags : Chain → RecoveredState → Prop)
    (h : ∀ c ∈ cache, ∀ r ∈ rounds.head?, Tip cfg lags (Round.chain r) c)
    (hnext : (rounds.map Round.chain).IsChain (Carries cfg lags)) :
    ∀ e ∈ recoveries cfg cache rounds, OnWalk cfg lags e.1 e.2 := by
  induction rounds generalizing cache with
  | nil => exact nofun
  | cons r rest ih =>
    have hrest {cache : Option CachedRecovery} (hcache : ∀ c ∈ cache, Tip cfg lags r.chain c) :
        ∀ e ∈ recoveries cfg cache rest, OnWalk cfg lags e.1 e.2 := by
      refine ih (fun c hc r' hr' => ?_) hnext.tail
      cases rest with
      | nil => cases hr'
      | cons head rest =>
        cases hr'
        exact (hcache c hc).carries (List.isChain_cons_cons.mp hnext).1
    have hcache := recovers_spec r.event fun c hc => h c hc r rfl
    rw [recoveries]
    split
    · rename_i heq
      rw [heq] at hcache
      exact hrest hcache
    · rename_i cache heq
      rw [heq] at hcache
      obtain ⟨hresult, hkept⟩ := recoverLatestState_spec r.failure hcache
      split
      · rename_i state cache' hok
        rw [hok] at hresult hkept
        intro e he
        rcases List.mem_cons.mp he with rfl | he
        · exact hresult state rfl
        · exact hrest hkept e he
      · rename_i heq
        rw [heq] at hkept
        exact hrest hkept

/-- Along a chain that only grows, every state that is recovered with the cache is on the walk from
the anchor over the present games. It is short of the end only where the node of some round, with
as many games, did not know an output of the interval after it. -/
theorem recovery_on_walk (cfg : DriverConfig) (rounds : List Round)
    (hgrows : (rounds.map Round.chain).IsChain (Grows cfg)) :
    ∀ e ∈ recoveries cfg none rounds,
      ReflTransGen (e.1.Follows cfg) (e.1.anchorState cfg) e.2 ∧
      (e.1.fullWalk cfg = .ok e.2 ∨
        ∃ r ∈ rounds, r.chain.gameCount = e.1.gameCount ∧ r.chain.Lacks cfg e.2) := by
  refine recoveries_spec (fun chain s =>
    ∃ r ∈ rounds, r.chain.gameCount = chain.gameCount ∧ r.chain.Lacks cfg s)
    (nofun) (hgrows.imp_of_mem_imp fun a b ha _ h => ⟨h, fun hsame s hs => ?_⟩)
  rcases hs with hend | ⟨r, hr, hcount, hlacks⟩
  · refine (h.ends hsame hend).imp_right fun hlacks => ?_
    obtain ⟨r, hr, rfl⟩ := List.mem_map.mp ha
    exact ⟨r, hr, hsame, hlacks⟩
  · exact .inr ⟨r, hr, hcount.trans hsame, hlacks⟩

/-- If besides the node learns no output while the count is unchanged, what is recovered is the
end of that walk. -/
theorem recovery_history (cfg : DriverConfig) (rounds : List Round)
    (hgrows : (rounds.map Round.chain).IsChain fun a b => a.Grows cfg b ∧
      (a.gameCount = b.gameCount → b.outputAtBlock = a.outputAtBlock)) :
    ∀ e ∈ recoveries cfg none rounds, e.1.fullWalk cfg = .ok e.2 := by
  have hcarries : (rounds.map Round.chain).IsChain (Carries cfg fun _ _ => False) := by
    refine hgrows.imp fun a b h => ⟨h.1, fun hsame s hs => .inl ?_⟩
    rw [Ends, forwardStep, h.1.same hsame, h.2 hsame]
    exact hs.resolve_right id
  exact fun e he => (recoveries_spec _ (fun _ hc => (by cases hc)) hcarries e he).2.resolve_right id

section Sample

def sampleConfig : DriverConfig := ⟨2, 2, 0, 9, by decide⟩

/-- One game, for block 2, over an anchor at block 0. Outputs are their block numbers. -/
def oneGame : Chain where
  gameCount := 1
  anchor := ⟨0, 0, 0⟩
  games _ root _ := if root = 2 then 1 else 0
  outputAtBlock block := some (BitVec.ofNat 256 block)

/-- A second game, for block 4, and the first one is the anchor. -/
def twoGames : Chain :=
  { oneGame with
    gameCount := 2
    anchor := ⟨2, 2, 1⟩
    games := fun _ root _ => if root = 2 then 1 else if root = 4 then 2 else 0 }

/-- The game is gone, and there is one that is not on the walk. -/
def replacedGame : Chain := { oneGame with games := fun _ _ _ => 0 }

/-- The node knows none of the outputs yet. -/
def behind : Chain := { oneGame with outputAtBlock := fun _ => none }

theorem fullWalk_single (hstep : chain.Follows cfg (chain.anchorState cfg) t)
    (hend : chain.Ends cfg t) : chain.fullWalk cfg = .ok t :=
  (forwardWalk_path (.single hstep)).trans (forwardWalk_ends hend)

theorem fullWalk_oneGame : oneGame.fullWalk sampleConfig = .ok ⟨1, 2, 2⟩ := fullWalk_single rfl rfl

theorem fullWalk_twoGames : twoGames.fullWalk sampleConfig = .ok ⟨2, 4, 4⟩ :=
  fullWalk_single rfl rfl

theorem grows_twoGames : oneGame.Grows sampleConfig twoGames where
  games _ root _ h := by
    dsimp only [oneGame, twoGames] at h ⊢
    split
    · rfl
    · rename_i hroot
      rw [if_neg hroot] at h
      exact absurd rfl h
  count_le := by decide
  same h := absurd h (by decide)
  outputs _ _ h := h
  anchor := .single rfl

theorem recoveries_first (hwalk : chain.fullWalk cfg = .ok s) (safeHead : Except ProposerError Nat)
    (rest : List Round) :
    recoveries cfg none (⟨.tick safeHead, chain, none⟩ :: rest) =
      (chain, s) :: recoveries cfg (some ⟨chain.gameCount, s⟩) rest := by
  simp only [recoveries, Event.recovers, recoverLatestState, walkAndCache]
  rw [show chain.forwardWalk cfg (chain.start cfg none) = .ok s from hwalk]

theorem grows_oneGame : behind.Grows sampleConfig oneGame where
  games _ _ _ _ := rfl
  count_le := le_rfl
  same _ := rfl
  outputs _ _ h := by cases h
  anchor := .refl

theorem fullWalk_behind : behind.fullWalk sampleConfig = .ok ⟨9, 0, 0⟩ := forwardWalk_ends rfl

/-- A node that catches up while the factory stays as it is, and then a second game. -/
def catchingUp : List Round := [⟨.tick (.ok 0), behind, none⟩, ⟨.tick (.ok 4), oneGame, none⟩,
  ⟨.submitResult .success, twoGames, none⟩]

theorem recovery_on_walk_catching_up :
    (oneGame, ⟨9, 0, 0⟩) ∈ recoveries sampleConfig none catchingUp ∧
    (ReflTransGen (oneGame.Follows sampleConfig) (oneGame.anchorState sampleConfig) ⟨9, 0, 0⟩ ∧
      (oneGame.fullWalk sampleConfig = .ok ⟨9, 0, 0⟩ ∨
        ∃ r ∈ catchingUp, r.chain.gameCount = 1 ∧ r.chain.Lacks sampleConfig ⟨9, 0, 0⟩)) := by
  refine (and_iff_left_of_imp (recovery_on_walk sampleConfig catchingUp (.cons_cons grows_oneGame
    (.cons_cons grows_twoGames (.singleton _))) _)).mpr ?_
  rw [catchingUp, recoveries_first fullWalk_behind]
  exact List.mem_cons_of_mem _ List.mem_cons_self

/-- A second game, and an anchor that moves to the first. -/
theorem recovery_history_second_game :
    (twoGames, ⟨2, 4, 4⟩) ∈ recoveries sampleConfig none [⟨.tick (.ok 4), oneGame, none⟩,
      ⟨.submitResult .success, twoGames, none⟩] ∧
      twoGames.fullWalk sampleConfig = .ok ⟨2, 4, 4⟩ := by
  refine (and_iff_left_of_imp (recovery_history sampleConfig _ (.cons_cons
    ⟨grows_twoGames, fun h => absurd h (by decide)⟩ (.singleton _)) _)).mpr ?_
  have hwalk : twoGames.walkAndCache sampleConfig (some ⟨1, ⟨1, 2, 2⟩⟩) =
      (.ok ⟨2, 4, 4⟩, some ⟨2, ⟨2, 4, 4⟩⟩) := by
    rw [walkAndCache, show twoGames.start sampleConfig _ = twoGames.anchorState sampleConfig from rfl,
      ← fullWalk, fullWalk_twoGames]
    rfl
  rw [recoveries_first fullWalk_oneGame]
  simp only [recoveries, Event.recovers, recoverLatestState]
  rw [if_neg (by decide), show oneGame.gameCount = 1 from rfl, hwalk]
  exact List.mem_cons_of_mem _ List.mem_cons_self

/-- With the count as before, the cached tip is recovered again, though the chain no longer has its
game, or though the node has learned the outputs that it lacked. -/
theorem recovery_of_cached_tip :
    ((recoveries sampleConfig none [⟨.tick (.ok 4), oneGame, none⟩,
      ⟨.tick (.ok 4), replacedGame, none⟩]).map Prod.snd = [⟨1, 2, 2⟩, ⟨1, 2, 2⟩] ∧
      replacedGame.fullWalk sampleConfig = .ok ⟨9, 0, 0⟩) ∧
    (recoveries sampleConfig none [⟨.tick (.ok 0), behind, none⟩,
      ⟨.tick (.ok 4), oneGame, none⟩]).map Prod.snd = [⟨9, 0, 0⟩, ⟨9, 0, 0⟩] ∧
      oneGame.fullWalk sampleConfig = .ok ⟨1, 2, 2⟩ := by
  rw [recoveries_first fullWalk_oneGame, recoveries_first fullWalk_behind]
  exact ⟨⟨rfl, forwardWalk_ends rfl⟩, rfl, fullWalk_oneGame⟩

end Sample
end SciChain.Proposer.Chain
