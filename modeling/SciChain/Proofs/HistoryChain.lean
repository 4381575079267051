import SciChain.Proofs.HistoryStore

namespace SciChain.History
open Library ProofsDb

variable {β α : Type}

section Chains

/-- A block with what it changes. -/
abbrev StoredBlock (β α : Type) := BlockWithParent × BlockStateDiff β α

def blockNumber (b : StoredBlock β α) : Nat := b.1.block.number

/-- Blocks behind a parent, each one the parent of the next. -/
def Linked : NumHash → List (StoredBlock β α) → Prop
  | _, [] => True
  | parent, b :: rest =>
    b.1.parent = parent.hash ∧ b.1.block.number = parent.number + 1 ∧ Linked b.1.block rest

/-- The last block of a chain. -/
def tip (anchor : NumHash) (blocks : List (StoredBlock β α)) : NumHash :=
  blocks.foldl (fun _ b => b.1.block) anchor

def upTo (block : Nat) (blocks : List (StoredBlock β α)) : List (StoredBlock β α) :=
  blocks.filter fun b => blockNumber b ≤ block

/-- The state after blocks. -/
def stateAfter (s : ChainState β α) (blocks : List (StoredBlock β α)) : ChainState β α :=
  blocks.foldl (fun s b => s.apply b.2) s

theorem linked_append :
    Linked anchor (xs ++ ys) ↔ Linked anchor xs ∧ Linked (tip anchor xs) ys := by
  induction xs generalizing anchor with
  | nil => simp [Linked, tip]
  | cons b xs ih =>
    simp only [List.cons_append, Linked, ih, and_assoc]
    rfl

theorem tip_number (h : Linked anchor blocks) :
    (tip anchor blocks).number = anchor.number + blocks.length := by
  induction blocks generalizing anchor with
  | nil => rfl
  | cons b blocks ih =>
    obtain ⟨_, hnumber, hrest⟩ := h
    change (tip b.1.block blocks).number = _
    rw [ih hrest, hnumber, List.length_cons]
    omega

theorem Linked.bounds (h : Linked anchor blocks) :
    ∀ b ∈ blocks, anchor.number < blockNumber b ∧ blockNumber b ≤ (tip anchor blocks).number := by
  induction blocks generalizing anchor with
  | nil => intro b hb; cases hb
  | cons b blocks ih =>
    obtain ⟨_, hnumber, hrest⟩ := h
    have htip := tip_number hrest
    change ∀ x ∈ b :: blocks, anchor.number < blockNumber x ∧
      blockNumber x ≤ (tip b.1.block blocks).number
    intro x hx
    rcases List.mem_cons.mp hx with rfl | hx
    · rw [blockNumber]
      omega
    · have hbounds := ih hrest x hx
      omega

end Chains

section Rows

variable {db : ProofsDb β α} {earliest : NumHash} {base : RawState β α}
  {rows : List (BlockRows β α)}

theorem rawAt_snoc (base : RawState β α) (rows : List (BlockRows β α)) (r : BlockRows β α)
    (block : Nat) :
    rawAt base (rows ++ [r]) block =
      if r.number ≤ block then (rawAt base rows block).apply r else rawAt base rows block := by
  unfold rawAt
  simp only [changesOf_snoc, stateAt_snoc]
  split <;> rfl

theorem rawAt_eq_of_le (h : ∀ r ∈ rows, r.number ≤ block) (h' : ∀ r ∈ rows, r.number ≤ block') :
    rawAt base rows block = rawAt base rows block' := by
  have hfilter {κ ν : Type} (table : BlockRows β α → List (κ × Option ν)) {n : Nat}
      (hn : ∀ r ∈ rows, r.number ≤ n) :
      (changesOf table rows).filter (fun u => u.1 ≤ n) = changesOf table rows := by
    refine List.filter_eq_self.mpr ?_
    intro u hu
    obtain ⟨r, hr, rfl⟩ := List.mem_map.mp hu
    simpa using hn r hr
  simp [rawAt, stateAt, hfilter _ h, hfilter _ h']

end Rows

section Reads

/-- The cursors at a block return the entries of a state, in order and from any key on: all
of them, or those of the address that they are bound to. -/
structure Reads (db : ProofsDb β α) (block : Nat) (s : ChainState β α) : Prop where
  accountNodes : ∀ path, Enumerates s.accountNodes (path ≤ ·) (db.accountNodesFrom block path)
  storageNodes : ∀ address path, Enumerates (fun p => s.storageNodes ⟨address, p⟩) (path ≤ ·)
    (db.storageNodesFrom address block path)
  accounts : ∀ key, Enumerates s.accounts (key ≤ ·) (db.accountsFrom block key)
  slots : ∀ address key, Enumerates (fun k => s.slots ⟨address, k⟩) (key ≤ ·)
    (db.slotsFrom address block key)

theorem DbTracks.reads (h : DbTracks db earliest base rows) (hle : earliest.number ≤ block) :
    Reads db block (rawAt base rows block).chainState := by
  constructor
  · intro path
    have henum := (db.accountTrieCursor block).entriesFrom_seek [] path
    change Enumerates (live db.accountTrie block) _ _ at henum
    rwa [h.accountTrie.live_eq hle] at henum
  · intro address path
    have henum := (db.storageTrieCursor address block).entriesFrom_seek [] path
    change Enumerates (fun p => live db.storageTrie block ⟨address, p⟩) _ _ at henum
    rwa [h.storageTrie.live_eq hle] at henum
  · intro key
    have henum := (db.accountHashedCursor block).entriesFrom_seek zeroHash key
    change Enumerates (live db.hashedAccount block) _ _ at henum
    rwa [h.hashedAccount.live_eq hle] at henum
  · intro address key
    have henum : Enumerates ((db.storageHashedCursor address block).slots isZero) _ _ :=
      (db.storageHashedCursor address block).entriesFrom_seekSlot zeroHash key
    change Enumerates (fun k => nonZero (live db.hashedStorage block ⟨address, k⟩)) _ _ at henum
    rwa [h.hashedStorage.live_eq hle] at henum

end Reads

section Store

/-- The rows of blocks that are stored one after the other. -/
def chainRows (db : ProofsDb β α) : List (StoredBlock β α) → List (BlockRows β α)
  | [] => []
  | b :: rest =>
    rowsOf db (blockNumber b) b.2 ::
      match db.storeTrieUpdates b.1 b.2 with
      | .ok stored => chainRows stored rest
      | .error _ => []

theorem chainRows_cons (h : db.storeTrieUpdates b.1 b.2 = .ok stored)
    (rest : List (StoredBlock β α)) :
    chainRows db (b :: rest) = rowsOf db (blockNumber b) b.2 :: chainRows stored rest := by
  rw [chainRows, h]

variable {db : ProofsDb β α} {earliest latest : NumHash} {base : RawState β α}
  {rows : List (BlockRows β α)}

theorem DbTracks.chainState_store (h : DbTracks db earliest base rows)
    (he : earliest.number ≤ latest.number) (hrows : ∀ r ∈ rows, r.number ≤ latest.number)
    (hnumber : b.1.block.number = latest.number + 1) (block : Nat) :
    (rawAt base (rows ++ [rowsOf db (blockNumber b) b.2]) block).chainState =
      stateAfter (rawAt base rows block).chainState (upTo block [b]) := by
  rw [rawAt_snoc]
  change (if blockNumber b ≤ block then _ else _ : RawState β α).chainState = _
  have hprev : blockNumber b - 1 = latest.number := by
    rw [blockNumber]
    omega
  by_cases hle : blockNumber b ≤ block
  · have hsame : rawAt base rows block = rawAt base rows latest.number := by
      refine rawAt_eq_of_le (fun r hr => ?_) hrows
      have := hrows r hr
      omega
    rw [if_pos hle, hsame, chainState_apply]
    · simp [stateAfter, upTo, hle]
    · rw [hprev]
      exact h.storageTrie.live_eq he
    · rw [hprev]
      exact h.hashedStorage.live_eq he
  · rw [if_neg hle]
    simp [stateAfter, upTo, hle]

theorem DbTracks.storeAll (h : DbTracks db earliest base rows)
    (hlatest : db.latest? = some latest) (he : earliest.number ≤ latest.number)
    (hrows : ∀ r ∈ rows, r.number ≤ latest.number) (hlinked : Linked latest blocks) :
    ∃ stored, db.storeAll blocks = .ok stored ∧
      DbTracks stored earliest base (rows ++ chainRows db blocks) ∧
      stored.latest? = some (tip latest blocks) ∧
      (chainRows db blocks).map BlockRows.number = blocks.map blockNumber ∧
      ∀ block, (rawAt base (rows ++ chainRows db blocks) block).chainState =
        stateAfter (rawAt base rows block).chainState (upTo block blocks) := by
  induction blocks generalizing db latest rows with
  | nil =>
    refine ⟨db, rfl, ?_, hlatest, rfl, ?_⟩
    · rw [chainRows, List.append_nil]
      exact h
    · intro block
      rw [chainRows, List.append_nil]
      rfl
  | cons b blocks ih =>
    obtain ⟨hparent, hnumber, hrest⟩ := hlinked
    have hlt : ∀ r ∈ rows, r.number < b.1.block.number := by
      intro r hr
      have := hrows r hr
      omega
    obtain ⟨next, hnext, htracks, hnextLatest⟩ :=
      h.store hlatest hparent.symm (by omega) hlt b.2
    have htip : next.latest? = some b.1.block := by
      rw [latest?, hnextLatest]
      rfl
    have hrows' : ∀ r ∈ rows ++ [rowsOf db b.1.block.number b.2],
        r.number ≤ b.1.block.number :=
      List.forall_mem_append.mpr
        ⟨fun r hr => (hlt r hr).le, List.forall_mem_singleton.mpr (le_refl _)⟩
    obtain ⟨stored, hstored, htracks', hlatest', hnumbers, hstates⟩ :=
      ih htracks htip (by omega) hrows' hrest
    have hchain := chainRows_cons hnext blocks
    have happend : rows ++ chainRows db (b :: blocks) =
        rows ++ [rowsOf db b.1.block.number b.2] ++ chainRows next blocks := by
      rw [hchain, List.append_assoc]
      rfl
    refine ⟨stored, ?_, happend ▸ htracks', hlatest', ?_, ?_⟩
    · rw [storeAll, List.foldlM_cons, hnext]
      exact hstored
    · rw [hchain, List.map_cons, List.map_cons, hnumbers]
      rfl
    · intro block
      have hone := h.chainState_store he hrows hnumber block
      rw [blockNumber] at hone
      rw [happend, hstates block, hone]
      have hsplit : upTo block (b :: blocks) = upTo block [b] ++ upTo block blocks := by
        rw [upTo, upTo, upTo, ← List.filter_append, List.singleton_append]
      rw [hsplit, stateAfter, stateAfter, stateAfter, List.foldl_append]

end Store

section Initial

theorem DbTracks.window (h : DbTracks db earliest base rows) {latest : NumHash}
    (hlatest : db.latest? = some latest) : db.proofWindow? = some ⟨earliest, latest⟩ := by
  rw [latest?, h.earliestBlock] at hlatest
  rw [proofWindow?, h.earliestBlock]
  cases hopt : db.latestBlock <;> rw [hopt] at hlatest <;>
    exact congrArg some (congrArg (ProofWindow.mk earliest) (Option.some.inj hlatest))

/-- A database after the initialisation: one row for each entry of the state at the anchor,
at block 0. -/
structure IsInitial (db : ProofsDb β α) (anchor : NumHash) (raw : RawState β α) : Prop where
  accountTrie : ∀ r, r ∈ db.accountTrie.rows ↔
    r.subkey = 0 ∧ r.value ≠ none ∧ raw.accountTrie r.key = r.value
  storageTrie : ∀ r, r ∈ db.storageTrie.rows ↔
    r.subkey = 0 ∧ r.value ≠ none ∧ raw.storageTrie r.key = r.value
  hashedAccount : ∀ r, r ∈ db.hashedAccount.rows ↔
    r.subkey = 0 ∧ r.value ≠ none ∧ raw.hashedAccount r.key = r.value
  hashedStorage : ∀ r, r ∈ db.hashedStorage.rows ↔
    r.subkey = 0 ∧ r.value ≠ none ∧ raw.hashedStorage r.key = r.value
  changeSets : db.changeSets = []
  earliestBlock : db.earliestBlock = some anchor
  latestBlock : db.latestBlock = none

theorem tracks_initial {κ ν : Type} [LinearOrder κ] {table : HistoryTable κ ν}
    {state : κ → Option ν} (earliest : Nat)
    (h : ∀ r, r ∈ table.rows ↔ r.subkey = 0 ∧ r.value ≠ none ∧ state r.key = r.value) :
    Tracks table earliest state [] :=
  ⟨⟨fun _ => 0, fun _ => Nat.zero_le _, by simpa [Changed] using h⟩, List.Pairwise.nil, by simp,
    by simp⟩

theorem IsInitial.tracks {db : ProofsDb β α} {raw : RawState β α}
    (h : IsInitial db anchor raw) : DbTracks db anchor raw [] :=
  ⟨tracks_initial _ h.accountTrie, tracks_initial _ h.storageTrie, tracks_initial _ h.hashedAccount,
    tracks_initial _ h.hashedStorage, h.changeSets, h.earliestBlock⟩

theorem IsInitial.latest (h : IsInitial db anchor raw) : db.latest? = some anchor := by
  rw [latest?, h.latestBlock, h.earliestBlock]
  rfl

/-- Reads at a block see the state that the diffs up to it make of the initial one. -/
theorem history_reads {db : ProofsDb β α} {anchor : NumHash} {raw : RawState β α}
    (hinit : IsInitial db anchor raw) {blocks : List (StoredBlock β α)}
    (hlinked : Linked anchor blocks) :
    ∃ stored, db.storeAll blocks = .ok stored ∧
      stored.proofWindow? = some ⟨anchor, tip anchor blocks⟩ ∧
      ∀ block, anchor.number ≤ block →
        Reads stored block (stateAfter raw.chainState (upTo block blocks)) := by
  obtain ⟨stored, hstored, htracks, hlatest, _, hstates⟩ :=
    hinit.tracks.storeAll hinit.latest (le_refl _) (by simp) hlinked
  refine ⟨stored, hstored, htracks.window hlatest, fun block hle => ?_⟩
  have hreads := htracks.reads hle
  rw [hstates block] at hreads
  exact hreads

/-- A database with one account, which has one slot, and no nodes. -/
def sampleDb : ProofsDb Nat Nat :=
  { accountTrie := .empty
    storageTrie := .empty
    hashedAccount := ⟨[⟨⟨1⟩, 0, some 10⟩], List.pairwise_singleton _ _⟩
    hashedStorage := ⟨[⟨⟨⟨1⟩, ⟨7⟩⟩, 0, some 9⟩], List.pairwise_singleton _ _⟩
    changeSets := []
    earliestBlock := some ⟨5, 50⟩
    latestBlock := none
    initialStateAnchor := some ⟨5, 50⟩ }

def sampleState : RawState Nat Nat :=
  ⟨fun _ => none, fun _ => none, fun key => if key = ⟨1⟩ then some 10 else none,
    fun key => if key = ⟨⟨1⟩, ⟨7⟩⟩ then some 9 else none⟩

theorem mem_single_row {κ ν : Type} [DecidableEq κ] {r : Version κ ν} {key : κ} {value : ν} :
    r ∈ [(⟨key, 0, some value⟩ : Version κ ν)] ↔
      r.subkey = 0 ∧ r.value ≠ none ∧ (if r.key = key then some value else none) = r.value := by
  obtain ⟨k, n, v⟩ := r
  by_cases hkey : k = key
  · simp only [List.mem_singleton, Row.mk.injEq, hkey, true_and, if_true]
    constructor
    · rintro ⟨rfl, rfl⟩
      simp
    · rintro ⟨rfl, _, rfl⟩
      simp
  · simp only [List.mem_singleton, Row.mk.injEq, hkey, false_and, if_false, false_iff]
    rintro ⟨_, hne, hv⟩
    exact hne hv.symm

theorem sampleDb_initial : IsInitial sampleDb ⟨5, 50⟩ sampleState := by
  refine ⟨?_, ?_, fun _ => mem_single_row, fun _ => mem_single_row, rfl, rfl, rfl⟩
  · simp [sampleDb, sampleState, DupTable.empty, eq_comm]
  · simp [sampleDb, sampleState, DupTable.empty, eq_comm]

/-- A diff with changes of the storage of the account only. -/
def slotDiff (wiped : Bool) (slots : List (HashKey × U256)) : BlockStateDiff Nat Nat :=
  ⟨⟨.empty, .empty⟩, ⟨.empty, ⟨[(⟨1⟩, ⟨wiped, .ofList slots⟩)], List.nodup_singleton _⟩⟩⟩

/-- The storage is wiped and written again in one block, and a slot zeroed in the next. -/
def sampleBlocks : List (StoredBlock Nat Nat) :=
  [(⟨50, ⟨6, 60⟩⟩, slotDiff true [(⟨3⟩, 4), (⟨8⟩, 2)]), (⟨60, ⟨7, 70⟩⟩, slotDiff false [(⟨3⟩, 0)])]

theorem history_reads_wipe :
    ∃ stored, sampleDb.storeAll sampleBlocks = .ok stored ∧
      stored.proofWindow? = some ⟨⟨5, 50⟩, tip ⟨5, 50⟩ sampleBlocks⟩ ∧
      ∀ block, 5 ≤ block →
        Reads stored block (stateAfter sampleState.chainState (upTo block sampleBlocks)) :=
  history_reads sampleDb_initial ⟨rfl, rfl, rfl, rfl, trivial⟩

example : (sampleDb.storeAll sampleBlocks).toOption.map
    (fun db => [5, 6, 7].map fun block => db.slotsFrom ⟨1⟩ block ⟨0⟩) =
      some [[(⟨7⟩, 9)], [(⟨3⟩, 4), (⟨8⟩, 2)], [(⟨8⟩, 2)]] := by
  decide +kernel

end Initial
end SciChain.History
