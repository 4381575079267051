import SciChain.Library.Run
import SciChain.Proofs.HistoryWindow

namespace SciChain.History
open Library ProofsDb

variable {β α : Type}

section Views

/-- Two databases that no reader at the block can tell apart. -/
structure SameReads (db db' : ProofsDb β α) (block : Nat) : Prop where
  accountNodes : ∀ path, db'.accountNodesFrom block path = db.accountNodesFrom block path
  accountNode : ∀ path, db'.accountNode block path = db.accountNode block path
  storageNodes : ∀ address path,
    db'.storageNodesFrom address block path = db.storageNodesFrom address block path
  storageNode : ∀ address path,
    db'.storageNode address block path = db.storageNode address block path
  accounts : ∀ key, db'.accountsFrom block key = db.accountsFrom block key
  slots : ∀ address key, db'.slotsFrom address block key = db.slotsFrom address block key

theorem BoundCursor.seekExact_eq {κ ν : Type} [LinearOrder κ] (c : BoundCursor κ ν) (key : κ) :
    (c.seekExact key).1 = (c.state key).map (Prod.mk key) := by
  have hexact := (c.inner.seekExact_eq ⟨c.hashedAddress, key⟩).1
  rw [BoundCursor.seekExact, BoundCursor.own, hexact, BoundCursor.state]
  cases c.inner.state ⟨c.hashedAddress, key⟩ with
  | none => rfl
  | some value => simp

/-- The cursors of two databases that hold the same state return the same. -/
theorem DbTracks.sameReads (h : DbTracks db earliest base rows)
    (h' : DbTracks db' earliest' base' rows') (hle : earliest.number ≤ block)
    (hle' : earliest'.number ≤ block) (hsame : rawAt base' rows' block = rawAt base rows block) :
    SameReads db db' block := by
  have hreads := h.reads hle
  have hreads' := h'.reads hle'
  rw [hsame] at hreads'
  have htrie : live db'.accountTrie block = live db.accountTrie block := by
    rw [h.accountTrie.live_eq hle, h'.accountTrie.live_eq hle']
    exact congrArg RawState.accountTrie hsame
  have hstorage : live db'.storageTrie block = live db.storageTrie block := by
    rw [h.storageTrie.live_eq hle, h'.storageTrie.live_eq hle']
    exact congrArg RawState.storageTrie hsame
  refine ⟨?_, ?_, ?_, ?_, ?_, ?_⟩
  · intro path
    exact (hreads'.accountNodes path).unique (hreads.accountNodes path)
  · intro path
    have hexact := ((db.accountTrieCursor block).seekExact_eq path).1
    have hexact' := ((db'.accountTrieCursor block).seekExact_eq path).1
    rw [accountNode, accountNode, hexact, hexact']
    exact congrArg (Option.map _) (congrFun htrie path)
  · intro address path
    exact (hreads'.storageNodes address path).unique (hreads.storageNodes address path)
  · intro address path
    rw [storageNode, storageNode, BoundCursor.seekExact_eq,
      BoundCursor.seekExact_eq]
    exact congrArg (Option.map _) (congrFun hstorage ⟨address, path⟩)
  · intro key
    exact (hreads'.accounts key).unique (hreads.accounts key)
  · intro address key
    exact (hreads'.slots address key).unique (hreads.slots address key)

end Views

section Split

theorem filter_le_append_filter_lt {γ : Type} (f : γ → Nat) {l : List γ}
    (hl : l.Pairwise fun a b => f a < f b) (cut : Nat) :
    l.filter (fun a => f a ≤ cut) ++ l.filter (fun a => cut < f a) = l := by
  induction l with
  | nil => rfl
  | cons x l ih =>
    obtain ⟨hx, hl⟩ := List.pairwise_cons.mp hl
    by_cases hle : f x ≤ cut
    · simp [hle, ih hl]
    · have hlow : l.filter (fun a => f a ≤ cut) = [] := by
        refine List.filter_eq_nil_iff.mpr fun a ha => ?_
        have := hx a ha
        simp only [decide_eq_true_eq]
        omega
      have hhigh : l.filter (fun a => cut < f a) = l := by
        refine List.filter_eq_self.mpr fun a ha => ?_
        have := hx a ha
        simp only [decide_eq_true_eq]
        omega
      simp [hle, not_le.mp hle, hlow, hhigh]

theorem filter_lt_filter_lt {γ : Type} (f : γ → Nat) (hle : low ≤ high) (l : List γ) :
    (l.filter fun a => low < f a).filter (fun a => high < f a) = l.filter fun a => high < f a := by
  rw [List.filter_filter]
  refine List.filter_congr fun a _ => ?_
  simp only [Bool.and_eq_left_iff_imp, decide_eq_true_eq]
  omega

theorem stateAt_stateAt {κ ν : Type} [LinearOrder κ] (base : κ → Option ν) {later : Changes κ ν}
    (horder : later.Pairwise fun u w => u.1 < w.1) (hle : first ≤ block) :
    stateAt (stateAt base later first) (later.filter fun u => first < u.1) block =
      stateAt base later block := by
  have hsplit : later.filter (fun u => u.1 ≤ block) =
      later.filter (fun u => u.1 ≤ first) ++
        (later.filter fun u => first < u.1).filter fun u => u.1 ≤ block := by
    conv_lhs => rw [← filter_le_append_filter_lt Prod.fst horder first]
    rw [List.filter_append, List.filter_filter]
    congr 1
    refine List.filter_congr fun u _ => ?_
    simp only [Bool.and_eq_right_iff_imp, decide_eq_true_eq]
    omega
  rw [stateAt, stateAt, stateAt, hsplit, List.foldl_append]

theorem rawAt_rawAt (base : RawState β α) {rows : List (BlockRows β α)}
    (horder : rows.Pairwise fun r r' => r.number < r'.number) (hle : first ≤ block) :
    rawAt (rawAt base rows first) (rows.filter fun r => first < r.number) block =
      rawAt base rows block := by
  have hchanges {κ ν : Type} (table : BlockRows β α → List (κ × Option ν)) :
      (changesOf table rows).Pairwise fun u w => u.1 < w.1 := by
    rw [changesOf, List.pairwise_map]
    exact horder
  simp only [rawAt, changesOf_filter _ rows (first < ·), stateAt_stateAt _ (hchanges _) hle]

theorem rawAt_filter_le (base : RawState β α) (rows : List (BlockRows β α)) (hle : block ≤ last) :
    rawAt base (rows.filter fun r => r.number ≤ last) block = rawAt base rows block := by
  have hfilter {κ ν : Type} (table : BlockRows β α → List (κ × Option ν)) :
      (changesOf table (rows.filter fun r => r.number ≤ last)).filter (fun u => u.1 ≤ block) =
        (changesOf table rows).filter fun u => u.1 ≤ block := by
    rw [changesOf, changesOf, List.filter_map, List.filter_map, List.filter_filter]
    congr 1
    refine List.filter_congr fun r _ => ?_
    simp only [Function.comp_apply, Bool.and_eq_left_iff_imp, decide_eq_true_eq]
    omega
  simp [rawAt, stateAt, hfilter]

end Split

section Pruned

/-- A database whose history up to a block became the state at the block: reads from the
block on and diffs of later blocks are the same, and only the later change sets are left. -/
structure PrunedTo (target : Nat) (db db' : ProofsDb β α) : Prop where
  reads : ∀ block, target ≤ block → SameReads db db' block
  changeSets : db'.changeSets = db.changeSets.filter fun entry => target < entry.1
  diffs : ∀ blockNumber, target < blockNumber →
    db'.fetchTrieUpdates blockNumber = db.fetchTrieUpdates blockNumber

variable {κ ν : Type} [LinearOrder κ]

theorem Tracks.mem_iff {table : HistoryTable κ ν} (h : Tracks table earliest base later)
    {r : Version κ ν} (hlt : earliest < r.subkey) :
    r ∈ table.rows ↔ Changed later r.key r.subkey r.value := by
  obtain ⟨since, hsince, hrows⟩ := h.mem
  rw [hrows, or_iff_right]
  rintro ⟨hsub, _⟩
  have := hsince r.key
  omega

section

variable {table table' : HistoryTable κ ν}
  (h : ∀ r : Version κ ν, block ≤ r.subkey → (r ∈ table.rows ↔ r ∈ table'.rows))
include h

theorem seekByKeySubkey_congr (key : κ) :
    table.seekByKeySubkey key block = table'.seekByKeySubkey key block := by
  apply Option.ext
  intro r
  rw [DupTable.seekByKeySubkey_eq_some_iff, DupTable.seekByKeySubkey_eq_some_iff]
  constructor
  · rintro ⟨hr, hkey, hle, hmin⟩
    exact ⟨(h r hle).mp hr, hkey, hle, fun x hx hxkey hxle => hmin x ((h x hxle).mpr hx) hxkey hxle⟩
  · rintro ⟨hr, hkey, hle, hmin⟩
    exact ⟨(h r hle).mpr hr, hkey, hle, fun x hx hxkey hxle => hmin x ((h x hxle).mp hx) hxkey hxle⟩

theorem fetchEntries_congr (missing : κ → StorageError) (changed : List κ) :
    ProofsDb.fetchEntries table block missing changed =
      ProofsDb.fetchEntries table' block missing changed := by
  rw [fetchEntries, fetchEntries]
  congr 1
  funext key
  rw [seekByKeySubkey_congr h]

end

/-- Two tables of the same blocks have the same rows above both their earliest ones. -/
theorem Tracks.mem_later_iff {table : BlockRows β α → List (κ × Option ν)}
    {history history' : HistoryTable κ ν}
    (h : Tracks history earliest state (changesOf table rows)) (hle : earliest ≤ earliest')
    (h' : Tracks history' earliest' state'
      (changesOf table (rows.filter fun r => earliest' < r.number)))
    {r : Version κ ν} (hr : earliest' < r.subkey) : r ∈ history'.rows ↔ r ∈ history.rows := by
  rw [h'.mem_iff hr, h.mem_iff (hle.trans_lt hr), changesOf_filter table rows (earliest' < ·),
    changed_filter (p := (earliest' < ·)), and_iff_left (decide_eq_true hr)]

theorem DbTracks.prunedTo {db db' : ProofsDb β α} {earliest earliest' : NumHash}
    {base : RawState β α} {rows : List (BlockRows β α)} (h : DbTracks db earliest base rows)
    (hle : earliest.number ≤ earliest'.number)
    (h' : DbTracks db' earliest' (rawAt base rows earliest'.number)
      (rows.filter fun r => earliest'.number < r.number)) : PrunedTo earliest'.number db db' := by
  have hsets : db'.changeSets = db.changeSets.filter fun entry => earliest'.number < entry.1 := by
    rw [h'.changeSets, h.changeSets, List.filter_map]
    rfl
  refine ⟨?_, hsets, ?_⟩
  · intro block hblock
    exact h.sameReads h' (hle.trans hblock) hblock (rawAt_rawAt base h.order hblock)
  · intro n hn
    have hlt (m : Nat) (hm : n ≤ m) : earliest'.number < m := Nat.lt_of_lt_of_le hn hm
    unfold fetchTrieUpdates
    rw [hsets, lookup_filter (earliest'.number < ·), if_pos (by simpa using hn)]
    simp [
      fetchEntries_congr fun _ hr => h.accountTrie.mem_later_iff hle h'.accountTrie (hlt _ hr),
      fetchEntries_congr fun _ hr => h.storageTrie.mem_later_iff hle h'.storageTrie (hlt _ hr),
      fetchEntries_congr fun _ hr => h.hashedAccount.mem_later_iff hle h'.hashedAccount (hlt _ hr),
      fetchEntries_congr fun _ hr => h.hashedStorage.mem_later_iff hle h'.hashedStorage (hlt _ hr)]

end Pruned

section Chain

theorem chainRows_append (h : db.storeAll xs = .ok stored) (ys : List (StoredBlock β α)) :
    chainRows db (xs ++ ys) = chainRows db xs ++ chainRows stored ys := by
  induction xs generalizing db with
  | nil =>
    cases h
    rfl
  | cons b xs ih =>
    rw [storeAll, List.foldlM_cons] at h
    obtain ⟨next, hnext, hrest⟩ := (bind_ok _ _ _).mp h
    rw [List.cons_append, chainRows_cons hnext, chainRows_cons hnext, List.cons_append, ih hrest]

/-- Blocks behind the latest one that say so by their number. -/
def Numbered : Nat → List (StoredBlock β α) → Prop
  | _, [] => True
  | latest, b :: rest => blockNumber b = latest + 1 ∧ Numbered (latest + 1) rest

theorem forall_number {p : Nat → Prop} {rows : List (BlockRows β α)}
    {blocks : List (StoredBlock β α)} (h : rows.map BlockRows.number = blocks.map blockNumber)
    (hp : ∀ b ∈ blocks, p (blockNumber b)) :
    ∀ r ∈ rows, p r.number := by
  intro r hr
  have hmem : r.number ∈ blocks.map blockNumber := h ▸ List.mem_map_of_mem hr
  obtain ⟨b, hb, heq⟩ := List.mem_map.mp hmem
  exact heq ▸ hp b hb

theorem Linked.order (h : Linked anchor blocks) :
    blocks.Pairwise fun a b => blockNumber a < blockNumber b := by
  induction blocks generalizing anchor with
  | nil => exact List.Pairwise.nil
  | cons b blocks ih =>
    obtain ⟨_, _, hrest⟩ := h
    exact List.pairwise_cons.mpr ⟨fun x hx => (hrest.bounds x hx).1, ih hrest⟩

theorem tip_upTo (h : Linked anchor chain)
    (hcommon : common = anchor ∨ ∃ b ∈ chain, b.1.block = common) :
    tip anchor (upTo common.number chain) = common := by
  rcases hcommon with rfl | ⟨b, hb, rfl⟩
  · have hnone : upTo common.number chain = [] := by
      refine List.filter_eq_nil_iff.mpr fun b hb => ?_
      have := (h.bounds b hb).1
      simp only [decide_eq_true_eq]
      omega
    rw [hnone]
    rfl
  · have hsplit : upTo b.1.block.number chain = _ ++ [b] :=
      filter_le_eq_append blockNumber h.order hb
    rw [hsplit, tip, List.foldl_append]
    rfl

end Chain

section Holds

/-- The database holds the history of a chain from its earliest block on. The rows are those
of the database that stored the chain and nothing else. -/
structure Holds (init : ProofsDb β α) (anchor : NumHash) (base : RawState β α)
    (chain : List (StoredBlock β α)) (earliest : NumHash) (db : ProofsDb β α) : Prop where
  linked : Linked anchor chain
  tracks : DbTracks db earliest (rawAt base (chainRows init chain) earliest.number)
    ((chainRows init chain).filter fun r => earliest.number < r.number)
  latest : db.latest? = some (tip anchor chain)
  lower : anchor.number ≤ earliest.number
  upper : earliest.number ≤ (tip anchor chain).number

variable {init db : ProofsDb β α} {anchor earliest : NumHash} {base : RawState β α}
  {chain : List (StoredBlock β α)}

theorem IsInitial.holds (hinit : IsInitial init anchor base) :
    Holds init anchor base [] anchor init :=
  ⟨trivial, hinit.tracks, hinit.latest, le_refl _, le_refl _⟩

theorem IsInitial.fresh (hinit : IsInitial init anchor base) (hlinked : Linked anchor chain) :
    ∃ fresh, init.storeAll chain = .ok fresh ∧ DbTracks fresh anchor base (chainRows init chain) ∧
      (chainRows init chain).map BlockRows.number = chain.map blockNumber := by
  obtain ⟨fresh, hfresh, htracks, _, hnumbers, _⟩ :=
    hinit.tracks.storeAll hinit.latest (le_refl _) (by simp) hlinked
  exact ⟨fresh, hfresh, htracks, hnumbers⟩

theorem Holds.window (h : Holds init anchor base chain earliest db) :
    db.proofWindow? = some ⟨earliest, tip anchor chain⟩ := h.tracks.window h.latest

theorem rowsOf_congr (htrie : live db.storageTrie (n - 1) = live db'.storageTrie (n - 1))
    (hslots : live db.hashedStorage (n - 1) = live db'.hashedStorage (n - 1))
    (diff : BlockStateDiff β α) : rowsOf db n diff = rowsOf db' n diff := by
  have hpaths : livePaths (n - 1) db.storageTrie =
      livePaths (n - 1) db'.storageTrie :=
    funext fun address => livePaths_congr htrie address
  have hkeys : liveSlots (n - 1) db.hashedStorage =
      liveSlots (n - 1) db'.hashedStorage :=
    funext fun address => liveSlots_congr hslots address
  rw [rowsOf, rowsOf, hpaths, hkeys]

section

variable (hinit : IsInitial init anchor base) (h : Holds init anchor base chain earliest db)
include hinit h

section

variable {b : StoredBlock β α} (hnumber : b.1.block.number = (tip anchor chain).number + 1)
include hnumber

theorem Holds.tracks_store (hparent : (tip anchor chain).hash = b.1.parent) :
    ∃ stored, db.storeTrieUpdates b.1 b.2 = .ok stored ∧
      DbTracks stored earliest (rawAt base (chainRows init chain) earliest.number)
        (((chainRows init chain).filter fun r => earliest.number < r.number) ++
          [rowsOf db b.1.block.number b.2]) ∧ stored.latestBlock = some b.1.block := by
  obtain ⟨_, _, _, hnumbers⟩ := hinit.fresh h.linked
  have hupper := h.upper
  refine h.tracks.store h.latest hparent (by omega) (fun r hr => ?_) b.2
  have hle := forall_number (p := (· ≤ (tip anchor chain).number)) hnumbers
    (fun x hx => (h.linked.bounds x hx).2) r (List.mem_filter.mp hr).1
  omega

/-- A block with the next number is refused for its parent alone. -/
theorem Holds.store_error (herror : db.storeTrieUpdates b.1 b.2 = .error e) :
    e = .outOfOrder b.1.block.number b.1.parent (tip anchor chain).hash := by
  by_cases hparent : (tip anchor chain).hash = b.1.parent
  · obtain ⟨stored, hstored, -⟩ := h.tracks_store hinit hnumber hparent
    rw [hstored] at herror
    cases herror
  · rw [storeTrieUpdates, h.latest] at herror
    simp only [if_pos hparent] at herror
    exact (Except.error.inj herror).symm

theorem Holds.store {stored : ProofsDb β α} (hstored : db.storeTrieUpdates b.1 b.2 = .ok stored) :
    Holds init anchor base (chain ++ [b]) earliest stored := by
  obtain ⟨fresh, hfresh, hftracks, -⟩ := hinit.fresh h.linked
  have hparent : (tip anchor chain).hash = b.1.parent := by
    by_contra hne
    rw [storeTrieUpdates, h.latest] at hstored
    simp [hne] at hstored
  have hupper := h.upper
  have hlower := h.lower
  obtain ⟨db', hdb', htracks', hlatest'⟩ := h.tracks_store hinit hnumber hparent
  rw [hstored] at hdb'
  cases hdb'
  have hlinked : Linked anchor (chain ++ [b]) :=
    linked_append.mpr ⟨h.linked, hparent.symm, hnumber, trivial⟩
  have hprev : b.1.block.number - 1 = (tip anchor chain).number := by omega
  -- what a wipe deletes is the same in both databases
  have hsame : rawAt (rawAt base (chainRows init chain) earliest.number)
      ((chainRows init chain).filter fun r => earliest.number < r.number)
      (tip anchor chain).number = rawAt base (chainRows init chain) (tip anchor chain).number :=
    rawAt_rawAt base hftracks.order hupper
  have hrow : rowsOf db b.1.block.number b.2 = rowsOf fresh b.1.block.number b.2 := by
    refine rowsOf_congr ?_ ?_ b.2
    · rw [hprev, h.tracks.storageTrie.live_eq hupper,
        hftracks.storageTrie.live_eq (hlower.trans hupper)]
      exact congrArg RawState.storageTrie hsame
    · rw [hprev, h.tracks.hashedStorage.live_eq hupper,
        hftracks.hashedStorage.live_eq (hlower.trans hupper)]
      exact congrArg RawState.hashedStorage hsame
  have hchain : chainRows init (chain ++ [b]) =
      chainRows init chain ++ [rowsOf db b.1.block.number b.2] := by
    rw [chainRows_append hfresh, hrow, chainRows]
    congr 2
    split <;> rfl
  have hlt : earliest.number < (rowsOf db b.1.block.number b.2).number := by
    change earliest.number < b.1.block.number
    omega
  have htip : tip anchor (chain ++ [b]) = b.1.block := by
    rw [tip, List.foldl_append]
    rfl
  refine ⟨hlinked, ?_, ?_, hlower, ?_⟩
  · rw [hchain, rawAt_snoc, if_neg (not_le.mpr hlt), List.filter_append,
      List.filter_cons_of_pos (by simpa using hlt)]
    exact htracks'
  · rw [latest?, hlatest', htip]
    rfl
  · rw [htip]
    omega

end

/-- Blocks with the next numbers are stored up to one that names another parent. -/
theorem Holds.storeUntilError (hnumbers : Numbered (tip anchor chain).number blocks)
    (hstored : db.storeUntilError blocks = (stored, db', error)) :
    Holds init anchor base (chain ++ stored) earliest db' ∧
      (error = none → stored = blocks) ∧
      ∀ e ∈ error, ∃ number parent latest, e = .outOfOrder number parent latest := by
  induction blocks generalizing chain db stored with
  | nil =>
    obtain ⟨rfl, rfl, rfl⟩ : [] = stored ∧ db = db' ∧ none = error := by
      simpa [ProofsDb.storeUntilError] using hstored
    rw [List.append_nil]
    exact ⟨h, fun _ => rfl, nofun⟩
  | cons b blocks ih =>
    obtain ⟨hnumber, hnumbers⟩ := hnumbers
    rw [ProofsDb.storeUntilError] at hstored
    cases hnext : db.storeTrieUpdates b.1 b.2 with
    | error e =>
      rw [hnext] at hstored
      obtain ⟨rfl, rfl, rfl⟩ : [] = stored ∧ db = db' ∧ some e = error := by simpa using hstored
      rw [List.append_nil]
      refine ⟨h, nofun, fun _ he => ?_⟩
      cases he
      exact ⟨_, _, _, h.store_error hinit hnumber hnext⟩
    | ok next =>
      rw [hnext] at hstored
      rcases hrest : next.storeUntilError blocks with ⟨rest, result⟩
      obtain ⟨rfl, rfl⟩ : b :: rest = stored ∧ result = (db', error) := by
        simpa [hrest] using hstored
      have hnextHolds := h.store hinit hnumber hnext
      have htip : (tip anchor (chain ++ [b])).number = (tip anchor chain).number + 1 := by
        rw [tip, List.foldl_append]
        exact hnumber
      obtain ⟨hall, hdone, herror⟩ := ih hnextHolds (htip ▸ hnumbers) hrest
      rw [List.append_assoc] at hall
      exact ⟨hall, fun hnone => by rw [hdone hnone], herror⟩

theorem Holds.cut {common : NumHash} (hcommon : common = anchor ∨ ∃ b ∈ chain, b.1.block = common)
    (hle : earliest.number ≤ common.number) :
    Holds init anchor base (upTo common.number chain) earliest
      { db.deleteHistoryFrom (common.number + 1) with latestBlock := some common } := by
  have hsplit := filter_le_append_filter_lt blockNumber h.linked.order common.number
  have hlinked : Linked anchor (upTo common.number chain) := by
    have hall := h.linked
    rw [← hsplit] at hall
    exact (linked_append.mp hall).1
  obtain ⟨kept, hkept, hkeptTracks, hkeptNumbers⟩ := hinit.fresh hlinked
  obtain ⟨fresh, hfresh, hftracks, hnumbers⟩ := hinit.fresh h.linked
  -- the rows of the shorter chain are those of the longer one up to the block
  have hrows : chainRows init (upTo common.number chain) =
      (chainRows init chain).filter fun r => r.number ≤ common.number := by
    have happend : chainRows init chain = chainRows init (upTo common.number chain) ++
        chainRows kept (chain.filter fun b => common.number < blockNumber b) := by
      rw [← chainRows_append hkept]
      congr 1
      exact hsplit.symm
    have hlow := forall_number (p := (· ≤ common.number)) hkeptNumbers
      fun x hx => of_decide_eq_true (List.mem_filter.mp hx).2
    have hhigh : ∀ r ∈ chainRows kept (chain.filter fun b => common.number < blockNumber b),
        common.number < r.number := by
      have hboth := hnumbers
      conv_rhs at hboth => rw [← hsplit]
      rw [happend, List.map_append, List.map_append, hkeptNumbers] at hboth
      exact forall_number (p := (common.number < ·)) (List.append_cancel_left hboth)
        fun x hx => of_decide_eq_true (List.mem_filter.mp hx).2
    rw [happend, List.filter_append, List.filter_eq_self.mpr (by simpa using hlow),
      List.filter_eq_nil_iff.mpr (by simpa using hhigh), List.append_nil]
  have htip := tip_upTo h.linked hcommon
  have hdeleted := h.tracks.deleteHistoryFrom (Nat.lt_succ_of_le hle)
  have hbase : rawAt base (chainRows init (upTo common.number chain)) earliest.number =
      rawAt base (chainRows init chain) earliest.number := by
    rw [hrows, rawAt_filter_le base _ hle]
  have hlater : (chainRows init (upTo common.number chain)).filter
      (fun r => earliest.number < r.number) =
      ((chainRows init chain).filter fun r => earliest.number < r.number).filter
        fun r => ¬common.number + 1 ≤ r.number := by
    rw [hrows, List.filter_filter, List.filter_filter]
    refine List.filter_congr fun r _ => ?_
    rw [Bool.and_comm]
    congr 1
    simp only [decide_eq_decide]
    omega
  refine ⟨hlinked, ?_, ?_, h.lower, ?_⟩
  · rw [hbase, hlater]
    exact ⟨hdeleted.accountTrie, hdeleted.storageTrie, hdeleted.hashedAccount,
      hdeleted.hashedStorage, hdeleted.changeSets, hdeleted.earliestBlock⟩
  · rw [latest?, htip]
    rfl
  · rw [htip]
    exact hle

end

theorem Linked.exists_number (h : Linked anchor chain) (hlt : anchor.number < n)
    (hle : n ≤ (tip anchor chain).number) : ∃ b ∈ chain, blockNumber b = n := by
  induction chain generalizing anchor with
  | nil =>
    rw [tip, List.foldl_nil] at hle
    omega
  | cons b chain ih =>
    obtain ⟨_, hnumber, hrest⟩ := h
    by_cases hn : n = b.1.block.number
    · exact ⟨b, List.mem_cons_self, hn.symm⟩
    · obtain ⟨x, hx, hxn⟩ := ih hrest (by omega) hle
      exact ⟨x, List.mem_cons_of_mem _ hx, hxn⟩

section

variable (hinit : IsInitial init anchor base) (h : Holds init anchor base chain earliest db)
include hinit h

theorem Holds.prune {target : NumHash} (hlt : earliest.number < target.number)
    (hle : target.number ≤ (tip anchor chain).number) :
    Holds init anchor base chain target (db.pruneEarliestState target) := by
  obtain ⟨_, _, hftracks, hnumbers⟩ := hinit.fresh h.linked
  have hlower := h.lower
  obtain ⟨b, hb, hbn⟩ := h.linked.exists_number (by omega : anchor.number < target.number) hle
  have htarget : ∃ r ∈ (chainRows init chain).filter (fun r => earliest.number < r.number),
      r.number = target.number := by
    have hmem : target.number ∈ (chainRows init chain).map BlockRows.number := by
      rw [hnumbers]
      exact List.mem_map.mpr ⟨b, hb, hbn⟩
    obtain ⟨r, hr, hrn⟩ := List.mem_map.mp hmem
    exact ⟨r, List.mem_filter.mpr ⟨hr, by simpa [hrn] using hlt⟩, hrn⟩
  obtain ⟨htracks, hlatest⟩ := h.tracks.pruneEarliestState hlt htarget
  rw [rawAt_rawAt base hftracks.order hlt.le, filter_lt_filter_lt BlockRows.number hlt.le] at htracks
  refine ⟨h.linked, htracks, ?_, by omega, hle⟩
  -- a block was stored, so the latest block does not depend on the earliest one
  have hold := h.latest
  rw [latest?, h.tracks.earliestBlock] at hold
  rw [latest?, hlatest]
  cases hopt : db.latestBlock with
  | some latest =>
    rw [hopt] at hold
    exact hold
  | none =>
    rw [hopt] at hold
    have heq : earliest = tip anchor chain := Option.some.inj hold
    rw [← heq] at hle
    omega

theorem Holds.prunedTo {last : NumHash} {pruned : ProofsDb β α}
    (h' : Holds init anchor base chain last pruned) (hle : earliest.number ≤ last.number) :
    PrunedTo last.number db pruned := by
  obtain ⟨_, _, hftracks, _⟩ := hinit.fresh h.linked
  refine h.tracks.prunedTo hle ?_
  rw [rawAt_rawAt base hftracks.order hle, filter_lt_filter_lt BlockRows.number hle]
  exact h'.tracks

theorem Holds.pruneBatches {blockHash : Nat → Option B256} {batchSize target fuel : Nat}
    (hsize : 1 ≤ batchSize) (hroom : target + batchSize < 2 ^ 64)
    (htarget : target ≤ (tip anchor chain).number) (hle : earliest.number ≤ target)
    (hfuel : target - earliest.number ≤ fuel) :
    ∃ last : NumHash, Holds init anchor base chain last
        (ProofsDb.pruneBatches blockHash batchSize target fuel earliest.number db).1 ∧
      earliest.number ≤ last.number ∧ last.number ≤ target ∧
      ((ProofsDb.pruneBatches blockHash batchSize target fuel earliest.number db).2 = none →
        last.number = target) := by
  induction fuel generalizing db earliest with
  | zero => exact ⟨earliest, h, le_refl _, hle, fun _ => by omega⟩
  | succ fuel ih =>
    rw [pruneBatches]
    by_cases hlt : earliest.number < target
    · rw [if_pos hlt, Nat.mod_eq_of_lt (by omega)]
      cases hhash : blockHash (min (earliest.number + batchSize) target) with
      | none =>
        simp only [hhash]
        exact ⟨earliest, h, le_refl _, hle, by simp⟩
      | some hash =>
        simp only [hhash]
        have hnext : Holds init anchor base chain
            ⟨min (earliest.number + batchSize) target, hash⟩ (db.pruneEarliestState
              ⟨min (earliest.number + batchSize) target, hash⟩) :=
          h.prune hinit (by simp only; omega) (by simp only; omega)
        obtain ⟨last, hlast, hge, hlastle, hdone⟩ :=
          ih hnext (by simp only; omega) (by simp only; omega)
        exact ⟨last, hlast, by simp only at hge; omega, hlastle, hdone⟩
    · rw [if_neg hlt]
      exact ⟨earliest, h, le_refl _, hle, fun _ => by omega⟩

end

end Holds

section Ledger

/-- A database with the blocks that it was given and not told to remove. -/
structure Ledger (β α : Type) where
  anchor : NumHash
  db : ProofsDb β α
  chain : List (StoredBlock β α)

inductive HistoryOp (β α : Type) where
  | store (block : StoredBlock β α)
  | prune (newEarliest : NumHash)
  | runPruner (blockHash : Nat → Option B256) (pruneBatchSize minBlockInterval : Nat)
  | unwind (first : BlockWithParent)
  | replace (latestCommonBlock : NumHash) (blocksToAdd : List (StoredBlock β α))

namespace Ledger

def step : HistoryOp β α → Ledger β α → Except StorageError (Ledger β α)
  | .store block, s => do
    let db ← s.db.storeTrieUpdates block.1 block.2
    return ⟨s.anchor, db, s.chain ++ [block]⟩
  | .prune newEarliest, s => .ok ⟨s.anchor, s.db.pruneEarliestState newEarliest, s.chain⟩
  | .runPruner blockHash pruneBatchSize minBlockInterval, s =>
    .ok ⟨s.anchor, (s.db.runPruner blockHash pruneBatchSize minBlockInterval).1, s.chain⟩
  | .unwind first, s => do
    let db ← s.db.unwindHistory first
    return ⟨s.anchor, db, upTo (first.block.number - 1) s.chain⟩
  | .replace latestCommonBlock blocksToAdd, s =>
    let (stored, db, _) := s.db.replaceUpdates latestCommonBlock blocksToAdd
    .ok ⟨s.anchor, db, upTo latestCommonBlock.number s.chain ++ stored⟩

/-- A block of the chain that the database was given. -/
def Knows (s : Ledger β α) (block : NumHash) : Prop :=
  block = s.anchor ∨ ∃ b ∈ s.chain, b.1.block = block

/-- Blocks come with the numbers after their parent's, a cut is made at a block of the chain
that is not below the earliest one, and nothing above the latest block is pruned. -/
def Careful : HistoryOp β α → Ledger β α → Prop
  | .store block, s => ∀ latest, s.db.latest? = some latest →
      block.1.block.number = latest.number + 1
  | .prune newEarliest, s => ∀ latest, s.db.latest? = some latest →
      newEarliest.number ≤ latest.number
  | .runPruner _ pruneBatchSize _, s => 1 ≤ pruneBatchSize ∧
      ∀ latest, s.db.latest? = some latest → latest.number + pruneBatchSize < 2 ^ 64
  | .unwind first, s => ∀ window, s.db.proofWindow? = some window →
      window.earliest.number < first.block.number → first.block.number ≤ window.latest.number →
      s.Knows ⟨first.block.number - 1, first.parent⟩
  | .replace latestCommonBlock blocksToAdd, s =>
      s.Knows latestCommonBlock ∧
      (∀ earliest, s.db.earliestBlock = some earliest →
        earliest.number ≤ latestCommonBlock.number) ∧
      Numbered latestCommonBlock.number (ProofsDb.sortedBlocks blocksToAdd)

/-- The state of a ledger between operations. -/
def Sound (init : ProofsDb β α) (base : RawState β α) (s : Ledger β α) : Prop :=
  ∃ earliest, Holds init s.anchor base s.chain earliest s.db

variable {init : ProofsDb β α} {base : RawState β α} {s s' : Ledger β α}

theorem Sound.store (hinit : IsInitial init s.anchor base) (h : s.Sound init base)
    {block : StoredBlock β α} (hc : Careful (.store block) s) {db : ProofsDb β α}
    (hok : s.db.storeTrieUpdates block.1 block.2 = .ok db) :
    (⟨s.anchor, db, s.chain ++ [block]⟩ : Ledger β α).Sound init base := by
  obtain ⟨earliest, hholds⟩ := h
  exact ⟨earliest, hholds.store hinit (hc _ hholds.latest) hok⟩

theorem Sound.prune (hinit : IsInitial init s.anchor base) (h : s.Sound init base)
    {newEarliest : NumHash} (hc : Careful (.prune newEarliest) s) :
    (⟨s.anchor, s.db.pruneEarliestState newEarliest, s.chain⟩ : Ledger β α).Sound init base := by
  obtain ⟨earliest, hholds⟩ := h
  by_cases hlt : earliest.number < newEarliest.number
  · exact ⟨newEarliest, hholds.prune hinit hlt (hc _ hholds.latest)⟩
  · have hsame : s.db.pruneEarliestState newEarliest = s.db := by
      rw [pruneEarliestState, calculatePrunePlan, hholds.tracks.earliestBlock]
      simp [not_lt.mp hlt]
    rw [hsame]
    exact ⟨earliest, hholds⟩

theorem runPruner_eq {anchor earliest : NumHash} {chain : List (StoredBlock β α)}
    {db : ProofsDb β α} (h : Holds init anchor base chain earliest db)
    (blockHash : Nat → Option B256) (pruneBatchSize minBlockInterval : Nat) :
    db.runPruner blockHash pruneBatchSize minBlockInterval =
      if (tip anchor chain).number - earliest.number ≤ minBlockInterval then (db, none)
      else ProofsDb.pruneBatches blockHash pruneBatchSize
        ((tip anchor chain).number - minBlockInterval)
        ((tip anchor chain).number - minBlockInterval - earliest.number) earliest.number db := by
  rw [runPruner, h.latest, h.tracks.earliestBlock]

section

variable (hinit : IsInitial init s.anchor base)
include hinit

theorem Sound.runPruner (h : s.Sound init base) {blockHash : Nat → Option B256}
    {pruneBatchSize minBlockInterval : Nat}
    (hc : Careful (.runPruner blockHash pruneBatchSize minBlockInterval) s) :
    (⟨s.anchor, (s.db.runPruner blockHash pruneBatchSize minBlockInterval).1, s.chain⟩ :
      Ledger β α).Sound init base := by
  obtain ⟨earliest, hholds⟩ := h
  rw [runPruner_eq hholds]
  split
  · exact ⟨earliest, hholds⟩
  · rename_i hgt
    have hle : earliest.number ≤ (tip s.anchor s.chain).number - minBlockInterval := by omega
    have hroom := hc.2 _ hholds.latest
    obtain ⟨last, hlast, _⟩ :=
      hholds.pruneBatches hinit hc.1 (by omega) (Nat.sub_le _ _) hle (le_refl _)
    exact ⟨last, hlast⟩

theorem Sound.replace (h : s.Sound init base) {common : NumHash}
    {blocks stored : List (StoredBlock β α)} {db : ProofsDb β α} {error : Option StorageError}
    (hc : Careful (.replace common blocks) s)
    (hreplaced : s.db.replaceUpdates common blocks = (stored, db, error)) :
    (⟨s.anchor, db, upTo common.number s.chain ++ stored⟩ : Ledger β α).Sound init base ∧
      (error = none → stored = ProofsDb.sortedBlocks blocks) ∧
      ∀ e ∈ error, ∃ number parent latest, e = .outOfOrder number parent latest := by
  obtain ⟨earliest, hholds⟩ := h
  obtain ⟨hknown, hearliest, hnumbers⟩ := hc
  have hcut := hholds.cut hinit hknown (hearliest _ hholds.tracks.earliestBlock)
  have htip := tip_upTo hholds.linked hknown
  obtain ⟨hstored, hrest⟩ := hcut.storeUntilError hinit (by rwa [htip]) hreplaced
  exact ⟨⟨earliest, hstored⟩, hrest⟩

theorem Sound.unwind (h : s.Sound init base) {first : BlockWithParent}
    (hc : Careful (.unwind first) s) {db : ProofsDb β α} (hok : s.db.unwindHistory first = .ok db) :
    (⟨s.anchor, db, upTo (first.block.number - 1) s.chain⟩ : Ledger β α).Sound init base := by
  obtain ⟨earliest, hholds⟩ := h
  rw [unwindHistory, hholds.window] at hok
  simp only at hok
  split at hok
  · -- nothing to unwind: all blocks of the chain are below
    cases hok
    have hall : upTo (first.block.number - 1) s.chain = s.chain := by
      refine List.filter_eq_self.mpr fun b hb => ?_
      have := (hholds.linked.bounds b hb).2
      simp only [decide_eq_true_eq]
      omega
    rw [hall]
    exact ⟨earliest, hholds⟩
  · rename_i hlatest
    split at hok
    · cases hok
    · rename_i hlow
      cases hok
      have hknown := hc _ hholds.window (not_le.mp hlow) (not_lt.mp hlatest)
      have hcut := hholds.cut hinit hknown (by simp only; omega)
      have hfirst : first.block.number - 1 + 1 = first.block.number := by omega
      rw [hfirst] at hcut
      exact ⟨earliest, hcut⟩

theorem Sound.step (h : s.Sound init base) {op : HistoryOp β α} (hc : Careful op s)
    (hok : Ledger.step op s = .ok s') : s'.anchor = s.anchor ∧ s'.Sound init base := by
  cases op with
  | store block =>
    obtain ⟨db, hdb, hret⟩ := (bind_ok _ _ _).mp hok
    cases hret
    exact ⟨rfl, h.store hinit hc hdb⟩
  | prune newEarliest =>
    cases hok
    exact ⟨rfl, h.prune hinit hc⟩
  | runPruner blockHash pruneBatchSize minBlockInterval =>
    cases hok
    exact ⟨rfl, h.runPruner hinit hc⟩
  | unwind first =>
    obtain ⟨db, hdb, hret⟩ := (bind_ok _ _ _).mp hok
    cases hret
    exact ⟨rfl, h.unwind hinit hc hdb⟩
  | replace common blocks =>
    cases hok
    exact ⟨rfl, (h.replace hinit hc rfl).1⟩

end

/-- Every state of a careful run is the history of its chain. -/
theorem sound_of_reachable {anchor : NumHash} (hinit : IsInitial init anchor base)
    (h : Reachable Ledger.step Careful ⟨anchor, init, []⟩ s) :
    s.anchor = anchor ∧ s.Sound init base := by
  refine h.invariant (P := fun s => s.anchor = anchor ∧ s.Sound init base)
    ⟨rfl, anchor, hinit.holds⟩ ?_
  rintro op s s' hc ⟨rfl, hs⟩ hok
  exact hs.step hinit hc hok

/-- In every careful run, pruning keeps the history from the target block on: in one go, and
in the batches of the pruner, which stops at a block that it knows no hash of. -/
theorem pruning_keeps_history {anchor : NumHash} (hinit : IsInitial init anchor base)
    (h : Reachable Ledger.step Careful ⟨anchor, init, []⟩ s) {window : ProofWindow}
    (hwindow : s.db.proofWindow? = some window) :
    (∀ target : NumHash, window.earliest.number < target.number →
      target.number ≤ window.latest.number →
      PrunedTo target.number s.db (s.db.pruneEarliestState target)) ∧
    ∀ (blockHash : Nat → Option B256) (pruneBatchSize minBlockInterval : Nat),
      1 ≤ pruneBatchSize → window.latest.number + pruneBatchSize < 2 ^ 64 →
      minBlockInterval < window.latest.number - window.earliest.number →
      ∃ last, window.earliest.number ≤ last ∧ last ≤ window.latest.number - minBlockInterval ∧
        PrunedTo last s.db (s.db.runPruner blockHash pruneBatchSize minBlockInterval).1 ∧
        ((s.db.runPruner blockHash pruneBatchSize minBlockInterval).2 = none →
          last = window.latest.number - minBlockInterval) := by
  obtain ⟨rfl, earliest, hholds⟩ := sound_of_reachable hinit h
  rw [hholds.window] at hwindow
  cases hwindow
  constructor
  · intro target hlt hle
    exact hholds.prunedTo hinit (hholds.prune hinit hlt hle) (Nat.le_of_lt hlt)
  · intro blockHash pruneBatchSize minBlockInterval hsize hroom hinterval
    simp only at hroom hinterval
    have hle : earliest.number ≤ (tip s.anchor s.chain).number - minBlockInterval := by omega
    obtain ⟨last, hlast, hge, hlastle, hdone⟩ :=
      @Holds.pruneBatches _ _ _ _ _ _ _ _ hinit hholds blockHash _ _ _ hsize (by omega)
        (Nat.sub_le _ _) hle (le_refl _)
    rw [runPruner_eq hholds, if_neg (by omega)]
    exact ⟨last.number, hge, hlastle, hholds.prunedTo hinit hlast hge, hdone⟩

def sampleStart : Ledger Nat Nat := ⟨⟨5, 50⟩, sampleDb, []⟩

def sampleStores : List (HistoryOp Nat Nat) := sampleBlocks.map .store

theorem sampleStores_careful : Admissible Ledger.step Careful sampleStart sampleStores := by
  refine ⟨?_, ?_, trivial⟩
  · intro latest hlatest
    cases hlatest
    rfl
  · intro latest hlatest
    have hsix : latest = ⟨6, 60⟩ := Option.some.inj (hlatest.symm.trans rfl)
    rw [hsix]

theorem pruning_keeps_wiped_slots :
    PrunedTo 6 (run Ledger.step sampleStart sampleStores).db
      ((run Ledger.step sampleStart sampleStores).db.pruneEarliestState ⟨6, 60⟩) := by
  have hreach := Reachable.admissible .start sampleStores_careful
  have hwindow : (run Ledger.step sampleStart sampleStores).db.proofWindow? =
      some ⟨⟨5, 50⟩, ⟨7, 70⟩⟩ := by
    decide +kernel
  exact (pruning_keeps_history sampleDb_initial hreach hwindow).1 ⟨6, 60⟩ (by decide) (by decide)

/-- Block 6 writes a slot, and a replacement leaves a gap up to block 10, which writes it
again. -/
def gapOps : List (HistoryOp Nat Nat) :=
  [.store (⟨50, ⟨6, 60⟩⟩, slotDiff false [(⟨3⟩, 4)]),
    .replace ⟨9, 90⟩ [(⟨90, ⟨10, 100⟩⟩, slotDiff false [(⟨3⟩, 8)])]]

/-- Pruning up to a block of the gap removes what a reader at the block sees. -/
theorem pruning_in_gap_loses_slot :
    (run Ledger.step sampleStart gapOps).db.proofWindow? = some ⟨⟨5, 50⟩, ⟨10, 100⟩⟩ ∧
      (run Ledger.step sampleStart gapOps).db.slotsFrom ⟨1⟩ 8 ⟨0⟩ = [(⟨3⟩, 4), (⟨7⟩, 9)] ∧
      ((run Ledger.step sampleStart gapOps).db.pruneEarliestState ⟨8, 80⟩).slotsFrom ⟨1⟩ 8 ⟨0⟩ =
        [(⟨7⟩, 9)] := by
  decide +kernel

/-- Rows above the earliest block, and change sets: those of the other database. -/
structure SameRows (earliest : Nat) (fresh db : ProofsDb β α) : Prop where
  accountTrie : ∀ r, earliest < r.subkey → (r ∈ db.accountTrie.rows ↔ r ∈ fresh.accountTrie.rows)
  storageTrie : ∀ r, earliest < r.subkey → (r ∈ db.storageTrie.rows ↔ r ∈ fresh.storageTrie.rows)
  hashedAccount : ∀ r, earliest < r.subkey →
    (r ∈ db.hashedAccount.rows ↔ r ∈ fresh.hashedAccount.rows)
  hashedStorage : ∀ r, earliest < r.subkey →
    (r ∈ db.hashedStorage.rows ↔ r ∈ fresh.hashedStorage.rows)
  changeSets : db.changeSets = fresh.changeSets.filter fun entry => earliest < entry.1

/-- The database is like one that stored the chain and nothing else, from its earliest block
on. -/
def AsFresh (init : ProofsDb β α) (chain : List (StoredBlock β α)) (db : ProofsDb β α) : Prop :=
  ∃ window fresh, db.proofWindow? = some window ∧
    window.earliest.number ≤ window.latest.number ∧
    init.storeAll chain = .ok fresh ∧ fresh.latest? = some window.latest ∧
    (∀ block, window.earliest.number ≤ block → SameReads fresh db block) ∧
    SameRows window.earliest.number fresh db

theorem Sound.asFresh (h : s.Sound init base) (hinit : IsInitial init s.anchor base) :
    AsFresh init s.chain s.db := by
  obtain ⟨earliest, hholds⟩ := h
  obtain ⟨fresh, hfresh, htracks, hlatest, _, _⟩ :=
    hinit.tracks.storeAll hinit.latest (le_refl _) (by simp) hholds.linked
  have hsame := hholds.lower
  refine ⟨_, fresh, hholds.window, hholds.upper, hfresh, hlatest, ?_, ?_⟩
  · intro block hblock
    exact htracks.sameReads hholds.tracks (hsame.trans hblock) hblock
      (rawAt_rawAt base htracks.order hblock)
  · refine ⟨?_, ?_, ?_, ?_, ?_⟩
    · exact fun r hr => htracks.accountTrie.mem_later_iff hsame hholds.tracks.accountTrie hr
    · exact fun r hr => htracks.storageTrie.mem_later_iff hsame hholds.tracks.storageTrie hr
    · exact fun r hr => htracks.hashedAccount.mem_later_iff hsame hholds.tracks.hashedAccount hr
    · exact fun r hr => htracks.hashedStorage.mem_later_iff hsame hholds.tracks.hashedStorage hr
    · rw [hholds.tracks.changeSets, htracks.changeSets, List.filter_map]
      rfl

/-- In every careful run, after a replacement, an unwinding or a store the database is like
one that stored the surviving blocks and the new ones only; of a replacement that fails, the
new ones before the first that names another parent. An unwinding below the earliest block is
rejected. -/
theorem reorg_equals_fresh {anchor : NumHash} (hinit : IsInitial init anchor base)
    (h : Reachable Ledger.step Careful ⟨anchor, init, []⟩ s) :
    (∀ common blocks stored db error, Careful (.replace common blocks) s →
      s.db.replaceUpdates common blocks = (stored, db, error) →
      AsFresh init (upTo common.number s.chain ++ stored) db ∧
        (error = none → stored = ProofsDb.sortedBlocks blocks) ∧
        ∀ e ∈ error, ∃ number parent latest, e = .outOfOrder number parent latest) ∧
    (∀ first db, Careful (.unwind first) s → s.db.unwindHistory first = .ok db →
      AsFresh init (upTo (first.block.number - 1) s.chain) db) ∧
    (∀ block db, Careful (.store block) s → s.db.storeTrieUpdates block.1 block.2 = .ok db →
      AsFresh init (s.chain ++ [block]) db) ∧
    ∀ first earliest, s.db.earliestBlock = some earliest →
      first.block.number ≤ earliest.number →
      s.db.unwindHistory first =
        .error (.unwindBeyondEarliest first.block.number earliest.number) := by
  obtain ⟨rfl, hsound⟩ := sound_of_reachable hinit h
  refine ⟨?_, ?_, ?_, ?_⟩
  · intro common blocks stored db error hc hreplaced
    obtain ⟨hstored, hrest⟩ := hsound.replace hinit hc hreplaced
    exact ⟨hstored.asFresh hinit, hrest⟩
  · intro first db hc hok
    exact (hsound.unwind hinit hc hok).asFresh hinit
  · intro block db hc hok
    exact (hsound.store hinit hc hok).asFresh hinit
  · intro first earliest hearliest hle
    obtain ⟨low, hholds⟩ := hsound
    rw [hholds.tracks.earliestBlock] at hearliest
    cases hearliest
    have hupper := hholds.upper
    rw [unwindHistory, hholds.window]
    simp only
    rw [if_neg (by omega), if_pos hle]

/-- Another block 7 for the one that zeroes a slot, and a block 8 of another fork. -/
def sampleFork : List (StoredBlock Nat Nat) :=
  [(⟨60, ⟨7, 71⟩⟩, slotDiff false [(⟨7⟩, 5)]), (⟨70, ⟨8, 80⟩⟩, slotDiff false [])]

theorem reorg_equals_fresh_fork :
    ∃ db, (run Ledger.step sampleStart sampleStores).db.replaceUpdates ⟨6, 60⟩ sampleFork =
      (sampleFork.take 1, db, some (.outOfOrder 8 70 71)) ∧ AsFresh sampleDb
        (upTo 6 (run Ledger.step sampleStart sampleStores).chain ++ sampleFork.take 1) db := by
  have hreach := Reachable.admissible .start sampleStores_careful
  refine ⟨_, rfl, ((reorg_equals_fresh sampleDb_initial hreach).1 ⟨6, 60⟩ sampleFork _ _ _ ?_
    rfl).1⟩
  refine ⟨Or.inr ⟨_, List.mem_cons_self, rfl⟩, ?_, rfl, rfl, trivial⟩
  intro earliest hearliest
  have hfive : earliest = ⟨5, 50⟩ := Option.some.inj (hearliest.symm.trans rfl)
  rw [hfive]
  decide

/-- A replacement below the earliest block is accepted. The latest block is below the
earliest one then. -/
theorem replace_below_earliest :
    ∃ stored db, sampleDb.replaceUpdates ⟨2, 20⟩
        [(⟨20, ⟨3, 30⟩⟩, slotDiff false [(⟨3⟩, 4)])] = (stored, db, none) ∧
      db.proofWindow? = some ⟨⟨5, 50⟩, ⟨3, 30⟩⟩ :=
  ⟨_, _, rfl, rfl⟩

end Ledger
end Ledger
end SciChain.History
