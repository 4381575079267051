import SciChain.Challenger.Scanner

namespace SciChain.Challenger
open Library

/-- A dispute game on chain; `interval` is that of the implementation it was
created under. -/
structure Game where
  factory : GameAtIndex
  status : GameStatus
  teeProver : Address
  zkProver : Address
  counteredIndex : Nat
  info : GameInfo
  startingBlockNumber : Nat
  l1Head : B256
  interval : Nat

/-- The contracts at the time of a scan. Every game has a proxy of its own. -/
structure Chain where
  games : List Game
  distinct : (games.map fun g => g.factory.proxy).Nodup
  impls : U32 → Address
  intervalOf : Address → Nat
  anchorGame : Address
  anchorBlock : Nat

/-- In progress, with a proof that is not nullified, and above the anchor. -/
def Game.Live (chain : Chain) (g : Game) : Prop :=
  g.status = .inProgress ∧ (g.teeProver ≠ 0 ∨ g.zkProver ≠ 0) ∧
    chain.anchorBlock < g.info.l2BlockNumber

/-- The category of a game by its proofs and its challenge. -/
def Game.category (g : Game) : GameCategory :=
  if 0 < g.counteredIndex then .fraudulentZkChallenge (g.counteredIndex - 1)
  else if g.teeProver = 0 then .invalidZkProposal
  else if g.zkProver = 0 then .invalidTeeProposal
  else .invalidDualProposal

/-- A scan in which every call succeeds. -/
structure Rpc.Exact (rpc : Rpc) (chain : Chain) : Prop where
  gameCount : rpc.gameCount = .ok chain.games.length
  anchorGame : rpc.anchorGame = .ok chain.anchorGame
  searchedGame : ∀ {i : Nat} {g : Game}, chain.games[i]? = some g → rpc.searchedGame i = .ok g.factory
  gameAtIndex : ∀ {i : Nat} {g : Game}, chain.games[i]? = some g → rpc.gameAtIndex i = .ok g.factory
  status : ∀ {g}, g ∈ chain.games → rpc.status g.factory.proxy = .ok g.status
  zkProver : ∀ {g}, g ∈ chain.games → rpc.zkProver g.factory.proxy = .ok g.zkProver
  teeProver : ∀ {g}, g ∈ chain.games → rpc.teeProver g.factory.proxy = .ok g.teeProver
  counteredIndex : ∀ {g}, g ∈ chain.games →
    rpc.counteredIndex g.factory.proxy = .ok g.counteredIndex
  gameInfo : ∀ {g}, g ∈ chain.games → rpc.gameInfo g.factory.proxy = .ok g.info
  startingBlockNumber : ∀ {g}, g ∈ chain.games →
    rpc.startingBlockNumber g.factory.proxy = .ok g.startingBlockNumber
  l1Head : ∀ {g}, g ∈ chain.games → rpc.l1Head g.factory.proxy = .ok g.l1Head
  gameImpls : ∀ t, rpc.gameImpls t = .ok (chain.impls t)
  interval : ∀ a, rpc.readIntermediateBlockInterval a = .ok (chain.intervalOf a)

/-- A scan in which calls may fail, but what is answered is true. -/
structure Rpc.Honest (rpc : Rpc) (chain : Chain) : Prop where
  searchedGame : ∀ {i : Nat} {f : GameAtIndex}, rpc.searchedGame i = .ok f →
    ∃ g : Game, chain.games[i]? = some g ∧ f = g.factory
  interval : ∀ {a n}, rpc.readIntermediateBlockInterval a = .ok n → n = chain.intervalOf a

/-- Games are only added, and an implementation keeps its interval. -/
structure Chain.Grows (chain later : Chain) : Prop where
  games : ∀ {i : Nat} {g : Game}, chain.games[i]? = some g →
    ∃ g' : Game, later.games[i]? = some g' ∧ g'.factory = g.factory
  intervalOf : later.intervalOf = chain.intervalOf

/-- The scanner after any number of earlier scans. -/
inductive Reachable : Chain → GameScanner → Prop
  | start (chain : Chain) : Reachable chain .new
  | scan {chain : Chain} {s : GameScanner} (rpc : Rpc) (honest : rpc.Honest chain)
      (before : Reachable chain s) : Reachable chain (scan rpc s).2
  | grow {chain later : Chain} {s : GameScanner} (grows : chain.Grows later)
      (before : Reachable chain s) : Reachable later s

/-- The caches agree with the chain. -/
structure GameScanner.Sound (chain : Chain) (s : GameScanner) : Prop where
  intervals : ∀ t a n, s.intervalCache (t, a) = some n → n = chain.intervalOf a
  anchor : ∀ a i, s.anchorIndex = some (a, i) →
    ∃ g : Game, chain.games[i]? = some g ∧ g.factory.proxy = a

section Search

theorem batchSize_pos : 0 < anchorSearchBatchSize := by decide

variable {rpc : Rpc} {target : Address}

theorem searchBatch_some (h : (searchBatch rpc target is).1 = some k) :
    k ∈ is ∧ ∃ f, rpc.searchedGame k = .ok f ∧ f.proxy = target := by
  induction is generalizing k with
  | nil => cases h
  | cons i is ih =>
    unfold searchBatch at h
    cases hg : rpc.searchedGame i with
    | error e =>
      rw [hg] at h
      obtain ⟨hmem, hf⟩ := ih h
      exact ⟨List.mem_cons_of_mem _ hmem, hf⟩
    | ok f =>
      simp only [hg] at h
      split at h
      · rename_i heq
        cases hr : (searchBatch rpc target is).1 with
        | none =>
          rw [hr] at h
          simp only [Option.getD_none, Nat.max_self, Option.some.injEq] at h
          subst h
          exact ⟨List.mem_cons_self, f, hg, heq⟩
        | some j =>
          rw [hr] at h
          obtain ⟨hmem, hf⟩ := ih hr
          simp only [Option.getD_some, Option.some.injEq] at h
          rcases Nat.le_total i j with hle | hle
          · rw [Nat.max_eq_right hle] at h
            subst h
            exact ⟨List.mem_cons_of_mem _ hmem, hf⟩
          · rw [Nat.max_eq_left hle] at h
            subst h
            exact ⟨List.mem_cons_self, f, hg, heq⟩
      · obtain ⟨hmem, hf⟩ := ih h
        exact ⟨List.mem_cons_of_mem _ hmem, hf⟩

theorem searchBatch_none (h : (searchBatch rpc target is).1 = none) (hi : i ∈ is)
    (hf : rpc.searchedGame i = .ok f) : f.proxy ≠ target := by
  induction is with
  | nil => cases hi
  | cons j is ih =>
    unfold searchBatch at h
    rcases List.mem_cons.mp hi with rfl | hmem
    · simp only [hf] at h
      split at h
      · cases h
      · assumption
    · apply ih _ hmem
      cases hg : rpc.searchedGame j with
      | error e => rwa [hg] at h
      | ok f' =>
        simp only [hg] at h
        split at h
        · cases h
        · exact h

/-- A match of the search is one that was read. -/
theorem searchLoop_some (rounds : Nat)
    (h : (searchLoop rpc target start rounds stop had).1 = some k) :
    k < stop ∧ ∃ f, rpc.searchedGame k = .ok f ∧ f.proxy = target := by
  induction rounds generalizing stop had with
  | zero => cases h
  | succ rounds ih =>
    unfold searchLoop at h
    split at h
    · cases h
    · dsimp only at h
      split at h
      · dsimp only at h
        obtain ⟨hmem, hf⟩ := searchBatch_some h
        have := List.mem_range'_1.mp hmem
        exact ⟨by omega, hf⟩
      · obtain ⟨hlt, hf⟩ := ih h
        exact ⟨by omega, hf⟩

/-- Without a match, no game that was read is the target. -/
theorem searchLoop_none (rounds : Nat) (hrounds : stop ≤ rounds)
    (h : (searchLoop rpc target start rounds stop had).1 = none) (hlo : start ≤ i)
    (hhi : i < stop) (hf : rpc.searchedGame i = .ok f) : f.proxy ≠ target := by
  induction rounds generalizing stop had with
  | zero => omega
  | succ rounds ih =>
    unfold searchLoop at h
    rw [if_neg (by omega)] at h
    dsimp only at h
    split at h
    · rename_i hsome
      dsimp only at h
      rw [h] at hsome
      cases hsome
    · rename_i hnone
      rw [Option.not_isSome_iff_eq_none] at hnone
      by_cases hin : max (stop - anchorSearchBatchSize) start ≤ i
      · exact searchBatch_none hnone (List.mem_range'_1.mpr ⟨hin, by omega⟩) hf
      · have := batchSize_pos
        exact ih (by omega) h (by omega)

theorem searchBatch_errors (h : ∀ i ∈ is, ∃ f, rpc.searchedGame i = .ok f) :
    (searchBatch rpc target is).2 = false := by
  induction is with
  | nil => rfl
  | cons i is ih =>
    obtain ⟨f, hf⟩ := h i List.mem_cons_self
    simp only [searchBatch, hf]
    exact ih fun j hj => h j (List.mem_cons_of_mem _ hj)

theorem searchLoop_errors (rounds : Nat) (h : ∀ i < stop, ∃ f, rpc.searchedGame i = .ok f) :
    (searchLoop rpc target start rounds stop had).2 = had := by
  induction rounds generalizing stop had with
  | zero => rfl
  | succ rounds ih =>
    unfold searchLoop
    split
    · rfl
    · have := batchSize_pos
      have hbatch : (searchBatch rpc target
          (List.range' (max (stop - anchorSearchBatchSize) start)
            (stop - max (stop - anchorSearchBatchSize) start))).2 = false :=
        searchBatch_errors fun i hi => h i (by have := List.mem_range'_1.mp hi; omega)
      dsimp only
      rw [hbatch, Bool.or_false]
      split
      · rfl
      · exact ih fun i hi => h i (by omega)

/-- With the part behind the cached index and the wrapped one, the search covers
the factory. -/
theorem searchAnchor_some (h : (searchAnchor rpc cached target count).1 = some k) :
    k < count ∧ ∃ f, rpc.searchedGame k = .ok f ∧ f.proxy = target := by
  unfold searchAnchor at h
  dsimp only at h
  split at h
  · obtain ⟨hlt, hf⟩ := searchLoop_some _ h
    exact ⟨by omega, hf⟩
  · exact searchLoop_some _ h

theorem searchAnchor_none (h : (searchAnchor rpc cached target count).1 = none) (hi : i < count)
    (hf : rpc.searchedGame i = .ok f) : f.proxy ≠ target := by
  unfold searchAnchor at h
  dsimp only at h
  generalize hs : min ((cached.map fun entry => entry.2 + 1).getD 0) count = searchStart at h
  by_cases hin : searchStart ≤ i
  · have hnone : (findGameIndex rpc target searchStart count).1 = none := by
      split at h
      · rename_i hnone
        exact Option.isNone_iff_eq_none.mp hnone.1
      · exact h
    exact searchLoop_none count (Nat.le_refl _) hnone hin hi hf
  · split at h
    · exact searchLoop_none searchStart (Nat.le_refl _) h (Nat.zero_le _) (by omega) hf
    · rename_i hskip
      exact absurd ⟨Option.isNone_iff_eq_none.mpr h, by omega⟩ hskip

theorem searchAnchor_errors (h : ∀ i < count, ∃ f, rpc.searchedGame i = .ok f) :
    (searchAnchor rpc cached target count).2 = false := by
  unfold searchAnchor findGameIndex
  dsimp only
  split
  · rw [searchLoop_errors _ h, searchLoop_errors _ fun i hi => h i (by omega)]
    rfl
  · exact searchLoop_errors _ h

end Search

section Caches

variable {rpc : Rpc} {chain : Chain}

/-- The cached intervals are those of their implementations. -/
def IntervalCache.Sound (chain : Chain) (cache : IntervalCache) : Prop :=
  ∀ t a n, cache (t, a) = some n → n = chain.intervalOf a

section

variable (hread : ∀ {a n}, rpc.readIntermediateBlockInterval a = .ok n → n = chain.intervalOf a)
include hread

/-- A cached or fetched interval is that of the current implementation. -/
theorem resolve_ok (hcache : cache.Sound chain)
    (h : resolveIntermediateBlockInterval rpc cache t = .ok (n, cache')) :
    cache'.Sound chain ∧ ∃ a, rpc.gameImpls t = .ok a ∧ a ≠ 0 ∧ n = chain.intervalOf a := by
  simp only [resolveIntermediateBlockInterval, bind_ok, reject_ok] at h
  obtain ⟨a, himpl, _, hne, h⟩ := h
  cases hc : cache (t, a) with
  | some m =>
    simp only [hc, pure_eq, Except.ok.injEq, Prod.mk.injEq] at h
    obtain ⟨rfl, rfl⟩ := h
    exact ⟨hcache, a, himpl, hne, hcache t a m hc⟩
  | none =>
    simp only [hc, bind_ok, pure_eq, Except.ok.injEq, Prod.mk.injEq] at h
    obtain ⟨m, hm, rfl, rfl⟩ := h
    refine ⟨fun t' a' k hk => ?_, a, himpl, hne, hread hm⟩
    by_cases heq : (t', a') = (t, a)
    · rw [heq, Function.update_self, Option.some.injEq] at hk
      obtain ⟨-, rfl⟩ := Prod.mk.inj heq
      rw [← hk, hread hm]
    · rw [Function.update_of_ne heq] at hk
      exact hcache t' a' k hk

theorem evaluateGame_sound (hcache : cache.Sound chain) (i : Nat) :
    (evaluateGame rpc cache i).2.Sound chain := by
  unfold evaluateGame
  split
  · exact hcache
  · exact hcache
  · split
    · exact hcache
    · rename_i hresolve
      exact (resolve_ok hread hcache hresolve).1

theorem evaluateGames_sound (hcache : cache.Sound chain) (is : List Nat) :
    (evaluateGames rpc cache is).2.Sound chain := by
  induction is generalizing cache with
  | nil => exact hcache
  | cons i is ih => exact ih (evaluateGame_sound hread hcache i)

end

theorem scanStartIndex_sound (hhonest : rpc.Honest chain) (hcached : ∀ a i, cached = some (a, i) →
      ∃ g : Game, chain.games[i]? = some g ∧ g.factory.proxy = a) (count : Nat)
    (h : (scanStartIndex rpc cached count).2 = some (a, i)) :
    ∃ g : Game, chain.games[i]? = some g ∧ g.factory.proxy = a := by
  unfold scanStartIndex at h
  dsimp only at h
  split at h
  · exact hcached a i h
  · split at h
    · cases h
    · split at h
      · exact hcached a i h
      · split at h
        · rename_i hfound
          cases h
          obtain ⟨-, f, hf, hproxy⟩ := searchAnchor_some (congrArg Prod.fst hfound)
          obtain ⟨g, hg, rfl⟩ := hhonest.searchedGame hf
          exact ⟨g, hg, hproxy⟩
        · exact hcached a i h
        · cases h

/-- A scan keeps the caches true, whichever of its calls fail. -/
theorem GameScanner.Sound.scan (h : s.Sound chain) (hhonest : rpc.Honest chain) :
    (scan rpc s).2.Sound chain := by
  unfold Challenger.scan
  split
  · exact h
  · split
    · exact ⟨h.intervals, h.anchor⟩
    · exact ⟨evaluateGames_sound hhonest.interval h.intervals _,
        fun _ _ => scanStartIndex_sound hhonest h.anchor _⟩

theorem Reachable.sound (h : Reachable chain s) : s.Sound chain := by
  induction h with
  | start chain => exact ⟨nofun, nofun⟩
  | scan rpc honest _ ih => exact ih.scan honest
  | grow grows _ ih =>
    refine ⟨fun t a n hn => ?_, fun a i hi => ?_⟩
    · rw [grows.intervalOf]
      exact ih.intervals t a n hn
    · obtain ⟨g, hg, hproxy⟩ := ih.anchor a i hi
      obtain ⟨g', hg', hsame⟩ := grows.games hg
      exact ⟨g', hg', by rw [hsame, hproxy]⟩

end Caches

section Exact

variable {rpc : Rpc} {chain : Chain}

theorem Chain.index_unique (chain : Chain) {i k : Nat}
    (hi : chain.games[i]? = some g) (hk : chain.games[k]? = some g')
    (h : g.factory.proxy = g'.factory.proxy) : i = k := by
  have hlt : i < (chain.games.map fun g => g.factory.proxy).length := by
    rw [List.length_map]
    exact (List.getElem?_eq_some_iff.mp hi).1
  apply (List.getElem?_inj hlt chain.distinct).mp
  simp [hi, hk, h]

theorem scanStart_le (hexact : rpc.Exact chain) {s : GameScanner} (hs : s.Sound chain) (i : Nat) :
    (scanStartIndex rpc s.anchorIndex chain.games.length).1 ≤ i ↔
      (chain.anchorGame = 0 ∨ ∀ (k : Nat) (g : Game), chain.games[k]? = some g →
        g.factory.proxy = chain.anchorGame → k < i) := by
  -- Every way to an index of the anchor game gives the same start.
  have hat : ∀ {k : Nat} {g : Game}, chain.anchorGame ≠ 0 → chain.games[k]? = some g →
      g.factory.proxy = chain.anchorGame → (min (k + 1) chain.games.length ≤ i ↔
        (chain.anchorGame = 0 ∨ ∀ (k : Nat) (g : Game), chain.games[k]? = some g →
          g.factory.proxy = chain.anchorGame → k < i)) := by
    intro k g hne hg hproxy
    have hk := (List.getElem?_eq_some_iff.mp hg).1
    constructor
    · intro hle
      refine Or.inr fun k' g' hg' hproxy' => ?_
      rw [chain.index_unique hg' hg (hproxy'.trans hproxy.symm)]
      omega
    · intro h
      have := h.resolve_left hne k g hg hproxy
      omega
  unfold scanStartIndex
  simp only [hexact.anchorGame]
  split
  · rename_i hzero
    exact ⟨fun _ => Or.inl hzero, fun _ => Nat.zero_le _⟩
  · rename_i hne
    split
    · rename_i entry hentry
      obtain ⟨hcached, htest⟩ := Option.filter_eq_some_iff.mp hentry
      simp only [decide_eq_true_eq] at htest
      obtain ⟨g, hg, hproxy⟩ := hs.anchor entry.1 entry.2 hcached
      exact hat hne hg (hproxy.trans htest.1)
    · have hread : ∀ {k : Nat} {f : GameAtIndex}, k < chain.games.length →
          rpc.searchedGame k = .ok f → ∃ g : Game, chain.games[k]? = some g ∧ g.factory = f := by
        intro k f hk hf
        have hg := List.getElem?_eq_getElem hk
        rw [hexact.searchedGame hg] at hf
        exact ⟨_, hg, Except.ok.inj hf⟩
      split
      · rename_i hfound
        obtain ⟨hlt, f, hf, hproxy⟩ := searchAnchor_some (congrArg Prod.fst hfound)
        obtain ⟨g, hg, rfl⟩ := hread hlt hf
        exact hat hne hg hproxy
      · rename_i hfailed _
        have hok : (searchAnchor rpc s.anchorIndex chain.anchorGame chain.games.length).2 =
            false :=
          searchAnchor_errors fun k hk => ⟨_, hexact.searchedGame (List.getElem?_eq_getElem hk)⟩
        rw [hfailed] at hok
        cases hok
      · rename_i hnone _
        refine ⟨fun _ => Or.inr fun k g hg hproxy => ?_, fun _ => Nat.zero_le _⟩
        have hk := (List.getElem?_eq_some_iff.mp hg).1
        exact absurd hproxy
          (searchAnchor_none (congrArg Prod.fst hnone) hk (hexact.searchedGame hg))

/-- A game as a candidate, with the interval of the current implementation. -/
def Game.candidate (chain : Chain) (i : Nat) (category : GameCategory) (g : Game) :
    CandidateGame where
  index := i
  factory := g.factory
  info := g.info
  startingBlockNumber := g.startingBlockNumber
  intermediateBlockInterval := chain.intervalOf (chain.impls g.factory.gameType)
  l1Head := g.l1Head
  teeProver := g.teeProver
  category := category

/-- What a scan makes of a game. -/
def Game.evaluation (chain : Chain) (i : Nat) (g : Game) : Except ScanError GameEvaluation :=
  if g.status ≠ .inProgress ∨ g.teeProver = 0 ∧ g.zkProver = 0 then .ok .terminal else
  match classify g.teeProver g.zkProver g.counteredIndex with
  | none => .ok .inProgressNotActionable
  | some category =>
    if chain.impls g.factory.gameType = 0 then .error (.noGameImplementation g.factory.gameType)
    else .ok (.actionable (g.candidate chain i category))

theorem resolve_exact (hexact : rpc.Exact chain) (hcache : cache.Sound chain) (t : U32) :
    (chain.impls t = 0 ∧
      resolveIntermediateBlockInterval rpc cache t = .error (.noGameImplementation t)) ∨
    (chain.impls t ≠ 0 ∧ ∃ cache', resolveIntermediateBlockInterval rpc cache t =
      .ok (chain.intervalOf (chain.impls t), cache')) := by
  unfold resolveIntermediateBlockInterval
  rw [hexact.gameImpls, bind_value]
  by_cases hzero : chain.impls t = 0
  · exact Or.inl ⟨hzero, by rw [reject_pos hzero, bind_fail]⟩
  · refine Or.inr ⟨hzero, ?_⟩
    rw [reject_neg hzero, bind_value]
    cases hc : cache (t, chain.impls t) with
    | some n => exact ⟨_, by rw [hcache _ _ n hc]; rfl⟩
    | none => exact ⟨_, by rw [hexact.interval]; rfl⟩

theorem evaluateGame_exact (hexact : rpc.Exact chain) (hcache : cache.Sound chain)
    (hg : chain.games[i]? = some g) : (evaluateGame rpc cache i).1 = g.evaluation chain i := by
  have hmem : g ∈ chain.games := List.mem_of_getElem? hg
  unfold evaluateGame inspectGame Game.evaluation
  simp only [hexact.gameAtIndex hg, hexact.status hmem, hexact.zkProver hmem,
    hexact.teeProver hmem, hexact.counteredIndex hmem, bind_value, pure_eq]
  by_cases hstatus : g.status = .inProgress
  · by_cases hnull : g.teeProver = 0 ∧ g.zkProver = 0
    · simp [hstatus, hnull]
    · simp only [hstatus, hnull, ne_eq, not_true_eq_false, if_false, or_self]
      cases classify g.teeProver g.zkProver g.counteredIndex with
      | none => rfl
      | some category =>
        dsimp only
        rcases resolve_exact hexact hcache g.factory.gameType with ⟨hz, hr⟩ | ⟨hz, cache', hr⟩
        · rw [hr, if_pos hz]
        · rw [hr, if_neg hz]
          simp only [readCandidate, hexact.gameInfo hmem, hexact.startingBlockNumber hmem,
            hexact.l1Head hmem, bind_value, pure_eq]
          rfl
  · simp [hstatus]

theorem evaluateGames_exact (hexact : rpc.Exact chain) (hcache : cache.Sound chain)
    (his : ∀ i ∈ is, i < chain.games.length) (r : Nat × Except ScanError GameEvaluation) :
    r ∈ (evaluateGames rpc cache is).1 ↔
      ∃ i g, i ∈ is ∧ chain.games[i]? = some g ∧ r = (i, g.evaluation chain i) := by
  induction is generalizing cache with
  | nil => simp [evaluateGames]
  | cons i is ih =>
    obtain ⟨g, hg⟩ : ∃ g, chain.games[i]? = some g :=
      ⟨_, List.getElem?_eq_getElem (his i List.mem_cons_self)⟩
    have hread : ∀ {a n}, rpc.readIntermediateBlockInterval a = .ok n → n = chain.intervalOf a :=
      fun h => (Except.ok.inj ((hexact.interval _).symm.trans h)).symm
    have hrest := ih (evaluateGame_sound hread hcache i)
      fun j hj => his j (List.mem_cons_of_mem _ hj)
    simp only [evaluateGames, List.mem_cons, evaluateGame_exact hexact hcache hg, hrest]
    constructor
    · rintro (rfl | ⟨j, g', hj, hg', rfl⟩)
      · exact ⟨i, g, Or.inl rfl, hg, rfl⟩
      · exact ⟨j, g', Or.inr hj, hg', rfl⟩
    · rintro ⟨j, g', rfl | hj, hg', rfl⟩
      · rw [hg] at hg'
        cases hg'
        exact Or.inl rfl
      · exact Or.inr ⟨j, g', hj, hg', rfl⟩

/-- The classifier gives the category of a game, unless one proof alone stands
beside a challenge. -/
theorem classify_eq {g : Game} (h : g.teeProver ≠ 0 ∨ g.zkProver ≠ 0) :
    classify g.teeProver g.zkProver g.counteredIndex =
      if g.counteredIndex = 0 ∨ g.teeProver ≠ 0 ∧ g.zkProver ≠ 0 then some g.category else none := by
  have hyes : ∀ a : Address, a ≠ 0 → decide (a ≠ 0) = true := fun _ h => decide_eq_true h
  have hno : ∀ a : Address, a = 0 → decide (a ≠ 0) = false := fun _ h => decide_eq_false (· h)
  unfold classify Game.category
  by_cases ht : g.teeProver = 0
  · have hz : g.zkProver ≠ 0 := h.resolve_left (· ht)
    rw [hno _ ht, hyes _ hz, if_pos ht]
    cases g.counteredIndex with
    | zero => rfl
    | succ n =>
      rw [if_neg (by simp [ht])]
      rfl
  · by_cases hz : g.zkProver = 0
    · rw [hyes _ ht, hno _ hz, if_neg ht, if_pos hz]
      cases g.counteredIndex with
      | zero => rfl
      | succ n =>
        rw [if_neg (by simp [hz])]
        rfl
    · rw [hyes _ ht, hyes _ hz, if_pos (Or.inr ⟨ht, hz⟩), if_neg ht, if_neg hz]
      cases g.counteredIndex with
      | zero => rfl
      | succ n => rfl

theorem evaluation_actionable {g : Game} (hstatus : g.status = .inProgress)
    (hproof : g.teeProver ≠ 0 ∨ g.zkProver ≠ 0) (c : CandidateGame) :
    g.evaluation chain i = .ok (.actionable c) ↔
      (g.counteredIndex = 0 ∨ g.teeProver ≠ 0 ∧ g.zkProver ≠ 0) ∧
      chain.impls g.factory.gameType ≠ 0 ∧ g.candidate chain i g.category = c := by
  unfold Game.evaluation
  rw [if_neg (by simp only [hstatus, ne_eq, not_true_eq_false, false_or]; tauto),
    classify_eq hproof]
  by_cases hci : g.counteredIndex = 0 ∨ g.teeProver ≠ 0 ∧ g.zkProver ≠ 0
  · rw [if_pos hci]
    by_cases hz : chain.impls g.factory.gameType = 0
    · simp [hz]
    · simp only [hci, hz, if_false, Except.ok.injEq, GameEvaluation.actionable.injEq, ne_eq,
        not_false_eq_true, true_and]
  · simp only [hci, if_false, Except.ok.injEq, reduceCtorEq, false_and]

theorem candidateOf_some (h : candidateOf r = some c) : r.2 = .ok (.actionable c) := by
  unfold candidateOf at h
  split at h
  · rw [Option.some.inj h]
  · cases h

theorem index_of_evaluation {g : Game}
    (h : g.evaluation chain i = .ok (.actionable c)) : c.index = i := by
  unfold Game.evaluation at h
  split at h
  · cases h
  · split at h
    · cases h
    · split at h
      · cases h
      · obtain rfl := GameEvaluation.actionable.inj (Except.ok.inj h)
        rfl

/-- The scan returned a game with its category and its own interval. -/
def Returned (rpc : Rpc) (s : GameScanner) (i : Nat) (g : Game) : Prop :=
  ∃ candidates c, (scan rpc s).1 = .ok candidates ∧ c ∈ candidates ∧ c.index = i ∧
    c.factory = g.factory ∧ c.category = g.category ∧ c.intermediateBlockInterval = g.interval

/-- A live game is returned exactly when the anchor game does not come after it
in the factory, no challenge stands beside a single proof, and the current
implementation of its type has its own interval. -/
theorem live_game_returned_iff {s : GameScanner} (hreach : Reachable chain s)
    (hexact : rpc.Exact chain) {i : Nat} {g : Game} (hg : chain.games[i]? = some g)
    (hlive : g.Live chain) :
    Returned rpc s i g ↔
      (chain.anchorGame = 0 ∨ ∀ (k : Nat) (g' : Game), chain.games[k]? = some g' →
        g'.factory.proxy = chain.anchorGame → k < i) ∧
      (g.counteredIndex = 0 ∨ g.teeProver ≠ 0 ∧ g.zkProver ≠ 0) ∧
      chain.impls g.factory.gameType ≠ 0 ∧
      chain.intervalOf (chain.impls g.factory.gameType) = g.interval := by
  have hs := hreach.sound
  have hi := (List.getElem?_eq_some_iff.mp hg).1
  obtain ⟨hstatus, hproof, -⟩ := hlive
  have hscan : (scan rpc s).1 = .ok ((evaluateGames rpc s.intervalCache (List.range'
      (scanStartIndex rpc s.anchorIndex chain.games.length).1 (chain.games.length -
        (scanStartIndex rpc s.anchorIndex chain.games.length).1))).1.filterMap candidateOf) := by
    unfold scan
    simp only [hexact.gameCount]
    rw [if_neg (by omega)]
  have hrange : ∀ k, k ∈ List.range' (scanStartIndex rpc s.anchorIndex chain.games.length).1
      (chain.games.length - (scanStartIndex rpc s.anchorIndex chain.games.length).1) ↔
        (scanStartIndex rpc s.anchorIndex chain.games.length).1 ≤ k ∧ k < chain.games.length := by
    intro k
    rw [List.mem_range'_1]
    omega
  have hmem := evaluateGames_exact hexact hs.intervals fun k hk => ((hrange k).mp hk).2
  rw [← scanStart_le hexact hs i]
  constructor
  · rintro ⟨candidates, c, hok, hc, hindex, -, -, hinterval⟩
    cases hscan.symm.trans hok
    obtain ⟨r, hr, hcand⟩ := List.mem_filterMap.mp hc
    obtain ⟨k, g', hk, hg', rfl⟩ := (hmem r).mp hr
    have hc' := candidateOf_some hcand
    obtain rfl : k = i := (index_of_evaluation hc').symm.trans hindex
    cases hg.symm.trans hg'
    obtain ⟨hci, himpl, rfl⟩ := (evaluation_actionable hstatus hproof c).mp hc'
    exact ⟨((hrange _).mp hk).1, hci, himpl, hinterval⟩
  · rintro ⟨hstart, hci, himpl, hinterval⟩
    refine ⟨_, g.candidate chain i g.category, hscan, List.mem_filterMap.mpr
      ⟨(i, g.evaluation chain i), (hmem _).mpr ⟨i, g, (hrange i).mpr ⟨hstart, hi⟩, hg, rfl⟩, ?_⟩,
      rfl, rfl, rfl, hinterval⟩
    rw [(evaluation_actionable hstatus hproof _).mpr ⟨hci, himpl, rfl⟩]
    rfl

end Exact

section Samples

def Chain.lookup (chain : Chain) (a : Address) : Except ScanError Game :=
  match chain.games.find? fun g => g.factory.proxy = a with
  | some g => .ok g
  | none => .error .rpc

/-- Clients that answer every call from the chain. -/
def Chain.rpc (chain : Chain) : Rpc where
  gameCount := .ok chain.games.length
  anchorGame := .ok chain.anchorGame
  searchedGame i := (chain.games[i]?.map fun g => .ok g.factory).getD (.error .rpc)
  gameAtIndex i := (chain.games[i]?.map fun g => .ok g.factory).getD (.error .rpc)
  status a := (chain.lookup a).map (·.status)
  zkProver a := (chain.lookup a).map (·.zkProver)
  teeProver a := (chain.lookup a).map (·.teeProver)
  counteredIndex a := (chain.lookup a).map (·.counteredIndex)
  gameInfo a := (chain.lookup a).map (·.info)
  startingBlockNumber a := (chain.lookup a).map (·.startingBlockNumber)
  l1Head a := (chain.lookup a).map (·.l1Head)
  gameImpls t := .ok (chain.impls t)
  readIntermediateBlockInterval a := .ok (chain.intervalOf a)

theorem Chain.lookup_eq (chain : Chain) {g : Game} (h : g ∈ chain.games) :
    chain.lookup g.factory.proxy = .ok g := by
  have hsome : (chain.games.find? fun g' => g'.factory.proxy = g.factory.proxy).isSome := by
    rw [List.find?_isSome]
    exact ⟨g, h, by simp⟩
  obtain ⟨g', hg'⟩ := Option.isSome_iff_exists.mp hsome
  have hproxy : g'.factory.proxy = g.factory.proxy := by simpa using List.find?_some hg'
  obtain ⟨i, hi⟩ := List.mem_iff_getElem?.mp h
  obtain ⟨k, hk⟩ := List.mem_iff_getElem?.mp (List.mem_of_find?_eq_some hg')
  obtain rfl := chain.index_unique hk hi hproxy
  cases hk.symm.trans hi
  simp [lookup, hg']

theorem Chain.rpc_exact (chain : Chain) : chain.rpc.Exact chain where
  gameCount := rfl
  anchorGame := rfl
  searchedGame h := by simp [rpc, h]
  gameAtIndex h := by simp [rpc, h]
  status h := by simp [rpc, chain.lookup_eq h, Except.map]
  zkProver h := by simp [rpc, chain.lookup_eq h, Except.map]
  teeProver h := by simp [rpc, chain.lookup_eq h, Except.map]
  counteredIndex h := by simp [rpc, chain.lookup_eq h, Except.map]
  gameInfo h := by simp [rpc, chain.lookup_eq h, Except.map]
  startingBlockNumber h := by simp [rpc, chain.lookup_eq h, Except.map]
  l1Head h := by simp [rpc, chain.lookup_eq h, Except.map]
  gameImpls _ := rfl
  interval _ := rfl

/-- A game in progress with a single TEE proof, created at interval 10. -/
def teeGame (proxy : Address) (l2BlockNumber : Nat) : Game :=
  ⟨⟨1, 0, proxy⟩, .inProgress, 5, 0, 0, ⟨0, l2BlockNumber, 0⟩, 0, 0, 10⟩

/-- One implementation for all types, at the given interval, and the anchor at block 100. -/
def sampleChain (games : List Game) (distinct : (games.map fun g => g.factory.proxy).Nodup)
    (interval : Nat) : Chain :=
  ⟨games, distinct, fun _ => 9, fun _ => interval, 8, 100⟩

/-- A game behind the anchor's index. -/
def overtakenChain : Chain :=
  sampleChain [teeGame 7 200, { teeGame 8 100 with status := .defenderWins }] (by decide) 10

/-- A challenged game that lost its TEE proof. -/
def challengedGame : Game :=
  { teeGame 7 200 with teeProver := 0, zkProver := 6, counteredIndex := 1 }

def challengedChain : Chain := sampleChain [challengedGame] (by decide) 10

/-- The implementation of the game's type has been replaced. -/
def upgradedChain : Chain := sampleChain [teeGame 7 200] (by decide) 20

theorem live_game_returned_after_anchor :
    Returned (sampleChain [teeGame 8 100, teeGame 7 200] (by decide) 10).rpc .new 1
      (teeGame 7 200) := by
  refine (live_game_returned_iff (.start _) (Chain.rpc_exact _) rfl
    ⟨rfl, by decide, by decide⟩).mpr ⟨Or.inr ?_, by decide, by decide, rfl⟩
  intro k g hg hproxy
  rcases k with _ | _ | k
  · exact Nat.one_pos
  · cases hg
    exact absurd hproxy (by decide)
  · cases hg

/-- Live games that a scan without any failing call misses: one whose index is
before that of the anchor game, one that lost its TEE proof beside a challenge,
and one whose type has got an implementation with another interval since. -/
theorem live_games_missed :
    ((teeGame 7 200).Live overtakenChain ∧ (scan overtakenChain.rpc .new).1 = .ok []) ∧
    (challengedGame.Live challengedChain ∧ (scan challengedChain.rpc .new).1 = .ok []) ∧
    (teeGame 7 200).Live upgradedChain ∧ ((scan upgradedChain.rpc .new).1.map fun cs =>
      cs.map fun c => c.intermediateBlockInterval) = .ok [20] :=
  ⟨⟨⟨rfl, by decide, by decide⟩, rfl⟩, ⟨⟨rfl, by decide, by decide⟩, rfl⟩,
    ⟨rfl, by decide, by decide⟩, rfl⟩

end Samples
end SciChain.Challenger
