import SciChain.Proofs.HistoryTables

namespace SciChain.History
open Library ProofsDb

section Tables

variable {κ ν : Type} [LinearOrder κ]

/-- A state at a block depends on the rows up to it only. -/
theorem live_congr (h : ∀ r : Version κ ν, r.subkey ≤ block → (r ∈ table.rows ↔ r ∈ table'.rows)) :
    live table block = live table' block := by
  funext key
  have hlatest : table.latestAt block key = table'.latestAt block key := by
    apply Option.ext
    intro r
    rw [DupTable.latestAt_eq_some_iff, DupTable.latestAt_eq_some_iff]
    constructor
    · rintro ⟨hr, hkey, hle, hmax⟩
      exact ⟨(h r hle).mp hr, hkey, hle, fun x hx hxkey hxle => hmax x ((h x hxle).mpr hx) hxkey hxle⟩
    · rintro ⟨hr, hkey, hle, hmax⟩
      exact ⟨(h r hle).mpr hr, hkey, hle, fun x hx hxkey hxle => hmax x ((h x hxle).mp hx) hxkey hxle⟩
  rw [live, hlatest, live]

/-- All entries of a state, from a cursor that is not positioned yet. -/
theorem drain_eq_entriesFrom {γ ε : Type} (next : γ → Option ε × γ) (fuel : Nat) (c : γ) :
    drain next (fuel + 1) c = entriesFrom next fuel (next c) := by
  rw [drain]
  rcases next c with ⟨found, c'⟩
  cases found <;> rfl

theorem nil_le_path (path : TriePath) : [] ≤ path := by
  cases path with
  | nil => exact le_refl _
  | cons x path => exact (List.nil_lt_cons x path).le

theorem zeroHash_le (key : HashKey) : ProofsDb.zeroHash ≤ key := Nat.zero_le _

theorem Enumerates.nodup {state : κ → Option ν}
    (h : Enumerates state P entries) : (keys entries).Nodup :=
  List.pairwise_map.mpr (h.sorted.imp fun hlt => hlt.ne)

theorem Enumerates.mem_keys {state : κ → Option ν} (h : Enumerates state P entries) :
    key ∈ keys entries ↔ P key ∧ state key ≠ none := by
  constructor
  · intro hkey
    obtain ⟨⟨k, v⟩, hmem, rfl⟩ := List.mem_map.mp hkey
    obtain ⟨hp, hv⟩ := (h.mem k v).mp hmem
    exact ⟨hp, by simp [hv]⟩
  · rintro ⟨hp, hne⟩
    obtain ⟨v, hv⟩ := Option.ne_none_iff_exists'.mp hne
    exact mem_keys_of_mem ((h.mem key v).mpr ⟨hp, hv⟩)

variable {β : Type}

theorem livePaths_enumerates (table : HistoryTable (StorageKey TriePath) β) (block : Nat)
    (address : HashKey) :
    ∃ entries, ProofsDb.livePaths block table address = keys entries ∧
      Enumerates (fun path => live table block ⟨address, path⟩) (fun _ => True) entries := by
  let c : BoundCursor TriePath β := .new table block address
  have henum := c.entriesFrom_seek [] []
  refine ⟨_, ?_, ⟨henum.sorted, ?_⟩⟩
  · rw [livePaths, drain_eq_entriesFrom]
    rfl
  · intro path node
    rw [henum.mem]
    exact and_congr_left fun _ => iff_of_true (nil_le_path path) trivial

theorem liveSlots_enumerates (table : HistoryTable (StorageKey HashKey) U256) (block : Nat)
    (address : HashKey) :
    ∃ entries, ProofsDb.liveSlots block table address = keys entries ∧
      Enumerates (fun slot => (live table block ⟨address, slot⟩).filter
        fun v => !ProofsDb.isZero v) (fun _ => True) entries := by
  let c : BoundCursor HashKey U256 := .new table block address
  have henum : Enumerates (c.slots isZero) _ _ :=
    c.entriesFrom_seekSlot zeroHash zeroHash
  refine ⟨_, ?_, ⟨henum.sorted, ?_⟩⟩
  · rw [liveSlots, drain_eq_entriesFrom]
    rfl
  · intro slot value
    rw [henum.mem]
    exact and_congr_left fun _ => iff_of_true (zeroHash_le slot) trivial

/-- What a wipe looks up depends on the state before the block only. -/
theorem livePaths_congr (h : live table block = live table' block) (address : HashKey) :
    ProofsDb.livePaths block table address = ProofsDb.livePaths block table' address := by
  obtain ⟨entries, hkeys, henum⟩ := livePaths_enumerates table block address
  obtain ⟨entries', hkeys', henum'⟩ := livePaths_enumerates table' block address
  rw [← h] at henum'
  rw [hkeys, hkeys', henum.unique henum']

theorem liveSlots_congr (h : live table block = live table' block) (address : HashKey) :
    ProofsDb.liveSlots block table address = ProofsDb.liveSlots block table' address := by
  obtain ⟨entries, hkeys, henum⟩ := liveSlots_enumerates table block address
  obtain ⟨entries', hkeys', henum'⟩ := liveSlots_enumerates table' block address
  rw [← h] at henum'
  rw [hkeys, hkeys', henum.unique henum']

end Tables

section Addresses

variable {κ ν : Type} [LinearOrder κ]

/-- The changes of storages: for each address whether it is wiped, and its new entries. -/
abbrev AddressChanges (κ ν : Type) := List (HashKey × Bool × List (κ × Option ν))

/-- The rows of all addresses. -/
def allItems (liveKeys : HashKey → List κ) (addresses : AddressChanges κ ν) :
    List (StorageKey κ × Option ν) :=
  addresses.flatMap fun entry =>
    ProofsDb.addressItems entry.2.1 (liveKeys entry.1) entry.1 entry.2.2

/-- The entries of an address that a block writes. -/
def addressEntries (wipe : Bool) (liveKeys : List κ) (newEntries : List (κ × Option ν)) :
    List (κ × Option ν) :=
  if wipe then ProofsDb.overlay liveKeys newEntries else newEntries

theorem lookup_overlay {liveKeys : List κ} {newEntries : List (κ × Option ν)}
    (hlive : liveKeys.Nodup) (hnew : (keys newEntries).Nodup) (key : κ) :
    (ProofsDb.overlay liveKeys newEntries).lookup key =
      (newEntries.lookup key).or (if key ∈ liveKeys then some none else none) := by
  have hkeys : keys (liveKeys.map fun key => (key, (none : Option ν))) = liveKeys := by
    simp [keys, Function.comp_def]
  rw [overlay, lookup_insertAll hnew, lookup_insertAll (by rwa [hkeys])]
  congr 1
  by_cases hmem : key ∈ liveKeys
  · rw [if_pos hmem, (lookup_eq_some_iff_mem (v := none) (by rwa [hkeys])).mpr
      (List.mem_map.mpr ⟨key, hmem, rfl⟩)]
    rfl
  · rw [if_neg hmem, lookup_eq_none_iff_not_mem.mpr (by rwa [hkeys])]
    rfl

/-- The value of a key after a wipe: the new one, or none if the key was live. -/
theorem getD_overlay (hlive : liveKeys.Nodup) (hnew : (keys newEntries).Nodup) (key : κ)
    (old : Option ν) :
    ((ProofsDb.overlay liveKeys newEntries).lookup key).getD old =
      (newEntries.lookup key).getD (if key ∈ liveKeys then none else old) := by
  rw [lookup_overlay hlive hnew]
  cases newEntries.lookup key with
  | some value => rfl
  | none =>
    rw [Option.none_or, Option.getD_none]
    split <;> rfl

theorem keys_addressEntries_nodup {wipe : Bool}
    {newEntries : List (κ × Option ν)} (hnew : (keys newEntries).Nodup) :
    (keys (addressEntries wipe liveKeys newEntries)).Nodup := by
  unfold addressEntries
  split
  · exact (sorted_insertAll (sorted_insertAll List.Pairwise.nil)).imp fun h => h.ne
  · exact hnew

theorem keys_addressItems (wipe : Bool) (liveKeys : List κ) (address : HashKey)
    (newEntries : List (κ × Option ν)) :
    keys (ProofsDb.addressItems wipe liveKeys address newEntries) =
      (keys (addressEntries wipe liveKeys newEntries)).map (StorageKey.mk address) := by
  simp [keys, addressItems, addressEntries, Function.comp_def]

/-- The addresses of a block are distinct, and so are the keys of each. -/
structure DistinctKeys (changes : AddressChanges κ ν) : Prop where
  addresses : (keys changes).Nodup
  entries : ∀ e ∈ changes, (keys e.2.2).Nodup

theorem keys_allItems_nodup {liveKeys : HashKey → List κ} {addresses : AddressChanges κ ν}
    (h : DistinctKeys addresses) : (keys (allItems liveKeys addresses)).Nodup := by
  obtain ⟨haddr, hentries⟩ := h
  induction addresses with
  | nil => exact List.nodup_nil
  | cons e addresses ih =>
    rw [keys_cons, List.nodup_cons] at haddr
    have hsplit : keys (allItems liveKeys (e :: addresses)) =
        keys (addressItems e.2.1 (liveKeys e.1) e.1 e.2.2) ++
          keys (allItems liveKeys addresses) := by
      simp [keys, allItems]
    rw [hsplit, List.nodup_append]
    refine ⟨?_, ih haddr.2 fun x hx => hentries x (List.mem_cons_of_mem _ hx), ?_⟩
    · rw [keys_addressItems]
      refine (keys_addressEntries_nodup (hentries e List.mem_cons_self)).map ?_
      intro x y hxy
      exact (StorageKey.mk.inj hxy).2
    · intro x hx y hy hxy
      subst hxy
      rw [keys_addressItems] at hx
      obtain ⟨k, _, rfl⟩ := List.mem_map.mp hx
      obtain ⟨item, hitem, hkey⟩ := List.mem_map.mp hy
      obtain ⟨e', he', hin⟩ := List.mem_flatMap.mp hitem
      obtain ⟨entry, _, rfl⟩ := List.mem_map.mp hin
      refine haddr.1 (List.mem_map.mpr ⟨e', he', ?_⟩)
      exact (StorageKey.mk.inj hkey).1

theorem lookup_map_mk (address address' : HashKey) (entries : List (κ × Option ν)) (key : κ) :
    (entries.map fun e => ((⟨address', e.1⟩ : StorageKey κ), e.2)).lookup ⟨address, key⟩ =
      if address = address' then entries.lookup key else none := by
  induction entries with
  | nil => simp
  | cons e entries ih =>
    obtain ⟨k, v⟩ := e
    rw [List.map_cons, lookup_cons_eq, ih, lookup_cons_eq]
    by_cases haddr : address = address'
    · by_cases hkey : key = k <;> simp [haddr, hkey]
    · simp [haddr]

theorem lookup_allItems (haddr : (keys addresses).Nodup) (address : HashKey) (key : κ) :
    (allItems liveKeys addresses).lookup ⟨address, key⟩ =
      (addresses.lookup address).bind fun e =>
        (addressEntries e.1 (liveKeys address) e.2).lookup key := by
  induction addresses with
  | nil => rfl
  | cons e addresses ih =>
    obtain ⟨address', wipe, entries⟩ := e
    rw [keys_cons, List.nodup_cons] at haddr
    have hsplit : allItems liveKeys ((address', wipe, entries) :: addresses) =
        (addressEntries wipe (liveKeys address') entries).map (fun x => (⟨address', x.1⟩, x.2)) ++
          allItems liveKeys addresses := rfl
    rw [hsplit, List.lookup_append, lookup_map_mk, ih haddr.2, lookup_cons_eq]
    by_cases heq : address = address'
    · have hout : addresses.lookup address = none :=
        lookup_eq_none_iff_not_mem.mpr (heq ▸ haddr.1)
      rw [if_pos heq, if_pos heq, hout]
      simp [heq]
    · simp [heq]

/-- The value of a key of a storage after the changes of a block. An entry of the block has
its value there. Otherwise it is gone if the storage is wiped. -/
def storageAfter (state : StorageKey κ → Option ν) (addresses : AddressChanges κ ν)
    (key : StorageKey κ) : Option ν :=
  match addresses.lookup key.hashedAddress with
  | none => state key
  | some change =>
    applyUpdates (fun sub => if change.1 then none else state ⟨key.hashedAddress, sub⟩)
      change.2 key.sub

/-- A wipe deletes the keys that are live before the block. The others are gone already, as
far as a reader can tell. -/
theorem applyUpdates_allItems (hdistinct : DistinctKeys addresses) (view : Option ν → Option ν)
    (hview : view none = none)
    (hlive : ∀ address, ∃ entries : List (κ × ν), liveKeys address = keys entries ∧
      Enumerates (fun sub => view (state ⟨address, sub⟩)) (fun _ => True) entries)
    (key : StorageKey κ) :
    view (applyUpdates state (allItems liveKeys addresses) key) =
      view (storageAfter state addresses key) := by
  obtain ⟨address, key⟩ := key
  rw [applyUpdates, lookup_beq _ instBEqOfDecidableEq, lookup_allItems hdistinct.addresses,
    storageAfter]
  cases hlookup : addresses.lookup address with
  | none => rfl
  | some change =>
    obtain ⟨wipe, entries⟩ := change
    have hentries : (keys entries).Nodup :=
      hdistinct.entries _ ((lookup_eq_some_iff_mem hdistinct.addresses).mp hlookup)
    obtain ⟨found, hkeys, henum⟩ := hlive address
    simp only [Option.bind_some, addressEntries, applyUpdates]
    cases wipe with
    | false => rfl
    | true =>
      simp only [if_true, getD_overlay (hkeys ▸ henum.nodup) hentries]
      cases entries.lookup key with
      | some value => rfl
      | none =>
        rw [Option.getD_none, Option.getD_none, hview]
        split
        · exact hview
        · rename_i hout
          rw [hkeys, henum.mem_keys] at hout
          exact by_contra fun hne => hout ⟨trivial, hne⟩

/-- What a reader sees after a block depends on what it sees before. -/
theorem storageAfter_view {view : Option ν → Option ν}
    (hidem : ∀ value, view (view value) = view value) (state : StorageKey κ → Option ν)
    (addresses : AddressChanges κ ν) (key : StorageKey κ) :
    view (storageAfter (fun key => view (state key)) addresses key) =
      view (storageAfter state addresses key) := by
  rw [storageAfter, storageAfter]
  cases addresses.lookup key.hashedAddress with
  | none => exact hidem _
  | some change =>
    simp only [applyUpdates]
    cases change.2.lookup key.sub with
    | some value => rfl
    | none =>
      simp only [Option.getD_none]
      split
      · rfl
      · exact hidem _

/-- The rows of addresses behind a table are added to it. What a wipe deletes is looked up
in the table before the block. -/
theorem persistAddresses_ok {table : HistoryTable (StorageKey κ) ν}
    (liveKeys : HistoryTable (StorageKey κ) ν → HashKey → List κ)
    (hlive : ∀ table', (∀ r : Version (StorageKey κ) ν, r.subkey < block →
      (r ∈ table'.rows ↔ r ∈ table.rows)) → liveKeys table' = liveKeys table)
    (hbehind : ∀ key, table.Behind key block) (hdistinct : DistinctKeys addresses) :
    ∃ table', ProofsDb.persistAddresses liveKeys block table addresses =
        .ok (keys (allItems (liveKeys table) addresses), table') ∧
      ∀ r, r ∈ table'.rows ↔ r ∈ table.rows ∨
        block = r.subkey ∧ (r.key, r.value) ∈ allItems (liveKeys table) addresses := by
  have hnodup : (keys (allItems (liveKeys table) addresses)).Nodup :=
    keys_allItems_nodup hdistinct
  -- from a table that has rows of other addresses at the block
  suffices hfold : ∀ (seen : List (StorageKey κ)) (current : HistoryTable (StorageKey κ) ν),
      (∀ r : Version (StorageKey κ) ν, r.subkey < block →
        (r ∈ current.rows ↔ r ∈ table.rows)) →
      (∀ e ∈ allItems (liveKeys table) addresses, current.Behind e.1 block) →
      ∃ table', addresses.foldlM (persistAddress liveKeys block) (seen, current) =
          .ok (seen ++ keys (allItems (liveKeys table) addresses), table') ∧
        ∀ r, r ∈ table'.rows ↔ r ∈ current.rows ∨
          block = r.subkey ∧ (r.key, r.value) ∈ allItems (liveKeys table) addresses by
    exact hfold [] table (fun _ _ => Iff.rfl) fun e _ => hbehind e.1
  clear hdistinct
  induction addresses with
  | nil =>
    intro seen current _ _
    exact ⟨current, by simp [allItems, keys, pure, Except.pure], by simp [allItems]⟩
  | cons e addresses ih =>
    intro seen current hsame hfresh
    have hcons : allItems (liveKeys table) (e :: addresses) =
        addressItems e.2.1 (liveKeys table e.1) e.1 e.2.2 ++ allItems (liveKeys table) addresses :=
      rfl
    rw [hcons, keys, List.map_append, List.nodup_append] at hnodup
    rw [hcons, List.forall_mem_append] at hfresh
    obtain ⟨hitems, hrest, hdisjoint⟩ := hnodup
    obtain ⟨next, hnext, hrows⟩ := persistHistoryBatch_ok hitems hfresh.1
    have hsame' (r : Version (StorageKey κ) ν) (hlt : r.subkey < block) :
        r ∈ next.rows ↔ r ∈ table.rows := by
      rw [hrows, hsame r hlt, or_iff_left fun hat => hlt.ne' hat.1]
    have hfresh' : ∀ x ∈ allItems (liveKeys table) addresses, next.Behind x.1 block := by
      intro x hx r hr hkey
      rcases (hrows r).mp hr with hr | ⟨_, hmem⟩
      · exact hfresh.2 x hx r hr hkey
      · exact absurd hkey (hdisjoint _ (mem_keys_of_mem hmem) _ (mem_keys_of_mem hx))
    obtain ⟨table', htable, hrows'⟩ := ih hrest (seen ++ keys _) next hsame' hfresh'
    refine ⟨table', ?_, fun r => ?_⟩
    · rw [List.foldlM_cons, persistAddress, hlive current hsame, hnext]
      refine htable.trans ?_
      simp [hcons, keys]
    · rw [hrows', hrows, hcons, List.mem_append, and_or_left, or_assoc]

end Addresses

section Rows

variable {β α : Type}

/-- What the tables hold at a block. A slot may be there with the value zero. -/
structure RawState (β α : Type) where
  accountTrie : TriePath → Option β
  storageTrie : StorageKey TriePath → Option β
  hashedAccount : HashKey → Option α
  hashedStorage : StorageKey HashKey → Option U256

/-- The rows of a block. -/
structure BlockRows (β α : Type) where
  number : Nat
  accountTrie : List (TriePath × Option β)
  storageTrie : List (StorageKey TriePath × Option β)
  hashedAccount : List (HashKey × Option α)
  hashedStorage : List (StorageKey HashKey × Option U256)

def BlockRows.changeSet (rows : BlockRows β α) : ChangeSet :=
  ⟨keys rows.accountTrie, keys rows.storageTrie, keys rows.hashedAccount, keys rows.hashedStorage⟩

/-- The changes of one table. -/
def changesOf {κ ν : Type} (table : BlockRows β α → List (κ × Option ν))
    (rows : List (BlockRows β α)) : Changes κ ν :=
  rows.map fun r => (r.number, table r)

section

variable {κ ν : Type} (table : BlockRows β α → List (κ × Option ν)) (rows : List (BlockRows β α))
include table rows

theorem changesOf_snoc (r : BlockRows β α) :
    changesOf table (rows ++ [r]) = changesOf table rows ++ [(r.number, table r)] := by
  simp [changesOf]

theorem changesOf_filter (p : Nat → Bool) :
    changesOf table (rows.filter fun r => p r.number) =
      (changesOf table rows).filter fun u => p u.1 := by
  simp [changesOf, List.filter_map, Function.comp_def]

end

def rawAt (base : RawState β α) (rows : List (BlockRows β α)) (block : Nat) : RawState β α :=
  ⟨stateAt base.accountTrie (changesOf BlockRows.accountTrie rows) block,
    stateAt base.storageTrie (changesOf BlockRows.storageTrie rows) block,
    stateAt base.hashedAccount (changesOf BlockRows.hashedAccount rows) block,
    stateAt base.hashedStorage (changesOf BlockRows.hashedStorage rows) block⟩

def RawState.apply (raw : RawState β α) (rows : BlockRows β α) : RawState β α :=
  ⟨applyUpdates raw.accountTrie rows.accountTrie, applyUpdates raw.storageTrie rows.storageTrie,
    applyUpdates raw.hashedAccount rows.hashedAccount,
    applyUpdates raw.hashedStorage rows.hashedStorage⟩

/-- The four tables hold the state at the earliest block and the rows of the blocks after
it, which the change sets list. -/
structure DbTracks (db : ProofsDb β α) (earliest : NumHash) (base : RawState β α)
    (rows : List (BlockRows β α)) : Prop where
  accountTrie : Tracks db.accountTrie earliest.number base.accountTrie
    (changesOf BlockRows.accountTrie rows)
  storageTrie : Tracks db.storageTrie earliest.number base.storageTrie
    (changesOf BlockRows.storageTrie rows)
  hashedAccount : Tracks db.hashedAccount earliest.number base.hashedAccount
    (changesOf BlockRows.hashedAccount rows)
  hashedStorage : Tracks db.hashedStorage earliest.number base.hashedStorage
    (changesOf BlockRows.hashedStorage rows)
  changeSets : db.changeSets = rows.map fun r => (r.number, r.changeSet)
  earliestBlock : db.earliestBlock = some earliest

theorem DbTracks.order {rows : List (BlockRows β α)} (h : DbTracks db earliest base rows) :
    rows.Pairwise fun r r' => r.number < r'.number :=
  (List.pairwise_map (R := fun u w : Nat × List (TriePath × Option β) => u.1 < w.1)).mp
    h.accountTrie.order

theorem DbTracks.above (h : DbTracks db earliest base rows) :
    ∀ r ∈ rows, earliest.number < r.number := by
  intro r hr
  exact h.accountTrie.above (r.number, r.accountTrie) (List.mem_map.mpr ⟨r, hr, rfl⟩)

end Rows

section Store

variable {β α : Type}

/-- The changes of the storage tries by address. -/
def trieChanges (diff : BlockStateDiff β α) : AddressChanges TriePath β :=
  diff.trieUpdates.storageTries.list.map fun entry =>
    (entry.1, entry.2.isDeleted, entry.2.storageNodes.list)

/-- The changes of the storages by address. -/
def slotChanges (diff : BlockStateDiff β α) : AddressChanges HashKey U256 :=
  diff.postState.storages.list.map fun entry =>
    (entry.1, entry.2.wiped, entry.2.storageSlots.list.map fun slot => (slot.1, some slot.2))

theorem trieChanges_distinct (diff : BlockStateDiff β α) : DistinctKeys (trieChanges diff) := by
  constructor
  · have hkeys : keys (trieChanges diff) = keys diff.trieUpdates.storageTries.list := by
      simp [keys, trieChanges, Function.comp_def]
    rw [hkeys]
    exact diff.trieUpdates.storageTries.distinct
  · intro e he
    obtain ⟨entry, _, rfl⟩ := List.mem_map.mp he
    exact entry.2.storageNodes.distinct

theorem keys_slots (slots : List (HashKey × U256)) :
    keys (slots.map fun slot => (slot.1, some slot.2)) = keys slots := by
  simp [keys, Function.comp_def]

theorem slotChanges_distinct (diff : BlockStateDiff β α) : DistinctKeys (slotChanges diff) := by
  constructor
  · have hkeys : keys (slotChanges diff) = keys diff.postState.storages.list := by
      simp [keys, slotChanges, Function.comp_def]
    rw [hkeys]
    exact diff.postState.storages.distinct
  · intro e he
    obtain ⟨entry, _, rfl⟩ := List.mem_map.mp he
    rw [keys_slots]
    exact entry.2.storageSlots.distinct

/-- The rows that a block writes to the database. -/
def rowsOf (db : ProofsDb β α) (blockNumber : Nat) (diff : BlockStateDiff β α) : BlockRows β α :=
  ⟨blockNumber, diff.trieUpdates.accountNodes.list,
    allItems (ProofsDb.livePaths (blockNumber - 1) db.storageTrie) (trieChanges diff),
    diff.postState.accounts.list,
    allItems (ProofsDb.liveSlots (blockNumber - 1) db.hashedStorage) (slotChanges diff)⟩

variable {db : ProofsDb β α} {earliest : NumHash} {base : RawState β α}
  {rows : List (BlockRows β α)}

/-- A block behind all others is stored in the tables. -/
theorem DbTracks.store (h : DbTracks db earliest base rows) {block : BlockWithParent}
    {latest : NumHash} (hlatest : db.latest? = some latest) (hparent : latest.hash = block.parent)
    (hn : earliest.number < block.block.number) (hrows : ∀ r ∈ rows, r.number < block.block.number)
    (diff : BlockStateDiff β α) :
    ∃ db', db.storeTrieUpdates block diff = .ok db' ∧
      DbTracks db' earliest base (rows ++ [rowsOf db block.block.number diff]) ∧
      db'.latestBlock = some block.block := by
  have hlater {κ ν : Type} (table : BlockRows β α → List (κ × Option ν)) :
      ∀ u ∈ changesOf table rows, u.1 < block.block.number := by
    intro u hu
    obtain ⟨r, hr, rfl⟩ := List.mem_map.mp hu
    exact hrows r hr
  have hprev {r : Nat} (hr : r ≤ block.block.number - 1) : r < block.block.number := by omega
  obtain ⟨accountTrie, haccountTrie, hrows1⟩ := persistHistoryBatch_ok
    diff.trieUpdates.accountNodes.distinct
    fun e _ => h.accountTrie.behind hn (hlater _) e.1
  obtain ⟨hashedAccount, hhashedAccount, hrows2⟩ := persistHistoryBatch_ok
    diff.postState.accounts.distinct fun e _ => h.hashedAccount.behind hn (hlater _) e.1
  obtain ⟨storageTrie, hstorageTrie, hrows3⟩ := persistAddresses_ok
    (livePaths (block.block.number - 1))
    (fun table' hsame => funext fun address =>
      livePaths_congr (live_congr fun r hr => hsame r (hprev hr)) address)
    (h.storageTrie.behind hn (hlater _)) (trieChanges_distinct diff)
  obtain ⟨hashedStorage, hhashedStorage, hrows4⟩ := persistAddresses_ok
    (liveSlots (block.block.number - 1))
    (fun table' hsame => funext fun address =>
      liveSlots_congr (live_congr fun r hr => hsame r (hprev hr)) address)
    (h.hashedStorage.behind hn (hlater _)) (slotChanges_distinct diff)
  have hlast : (db.changeSets.all fun entry => entry.1 < block.block.number) = true := by
    rw [h.changeSets, List.all_eq_true]
    intro entry hentry
    obtain ⟨r, hr, rfl⟩ := List.mem_map.mp hentry
    simpa using hrows r hr
  simp only [trieChanges] at hstorageTrie
  simp only [slotChanges] at hhashedStorage
  simp only [storeTrieUpdates, hlatest, hparent, storeTrieUpdatesForBlock, haccountTrie,
    hhashedAccount, hstorageTrie, hhashedStorage, appendChangeSet, bind, Except.bind, pure,
    Except.pure, hlast, ne_eq, not_true_eq_false, if_false, if_true, Except.ok.injEq,
    exists_eq_left', and_true]
  refine ⟨?_, ?_, ?_, ?_, ?_, h.earliestBlock⟩
  · rw [changesOf_snoc]
    exact h.accountTrie.extend hn (hlater _) diff.trieUpdates.accountNodes.distinct hrows1
  · rw [changesOf_snoc]
    exact h.storageTrie.extend hn (hlater _) (keys_allItems_nodup (trieChanges_distinct diff)) hrows3
  · rw [changesOf_snoc]
    exact h.hashedAccount.extend hn (hlater _) diff.postState.accounts.distinct hrows2
  · rw [changesOf_snoc]
    exact h.hashedStorage.extend hn (hlater _) (keys_allItems_nodup (slotChanges_distinct diff)) hrows4
  · rw [h.changeSets, List.map_append]
    rfl

end Store

section States

variable {β α : Type}

/-- A value of a slot; zero counts as absent. -/
def nonZero (value : Option U256) : Option U256 := value.filter fun v => !ProofsDb.isZero v

/-- The state of the chain at a block, as the cursors present it. -/
structure ChainState (β α : Type) where
  accountNodes : TriePath → Option β
  storageNodes : StorageKey TriePath → Option β
  accounts : HashKey → Option α
  slots : StorageKey HashKey → Option U256

def ChainState.apply (s : ChainState β α) (diff : BlockStateDiff β α) : ChainState β α where
  accountNodes := applyUpdates s.accountNodes diff.trieUpdates.accountNodes.list
  storageNodes := storageAfter s.storageNodes (trieChanges diff)
  accounts := applyUpdates s.accounts diff.postState.accounts.list
  slots key := nonZero (storageAfter s.slots (slotChanges diff) key)

def RawState.chainState (raw : RawState β α) : ChainState β α :=
  ⟨raw.accountTrie, raw.storageTrie, raw.hashedAccount, fun key => nonZero (raw.hashedStorage key)⟩

variable {db : ProofsDb β α} {raw : RawState β α} {n : Nat}

theorem nonZero_idem (value : Option U256) : nonZero (nonZero value) = nonZero value := by
  cases value with
  | none => rfl
  | some v => simp [nonZero]

theorem chainState_apply (htrie : live db.storageTrie (n - 1) = raw.storageTrie)
    (hslots : live db.hashedStorage (n - 1) = raw.hashedStorage) (diff : BlockStateDiff β α) :
    (raw.apply (rowsOf db n diff)).chainState = raw.chainState.apply diff := by
  have htries : applyUpdates raw.storageTrie (rowsOf db n diff).storageTrie =
      storageAfter raw.storageTrie (trieChanges diff) :=
    funext fun key => applyUpdates_allItems (trieChanges_distinct diff) id rfl
      (fun address => htrie ▸ livePaths_enumerates db.storageTrie (n - 1) address) key
  have hstorages (key : StorageKey HashKey) :
      nonZero (applyUpdates raw.hashedStorage (rowsOf db n diff).hashedStorage key) =
        nonZero (storageAfter raw.hashedStorage (slotChanges diff) key) :=
    applyUpdates_allItems (slotChanges_distinct diff) nonZero rfl
      (fun address => hslots ▸ liveSlots_enumerates db.hashedStorage (n - 1) address) key
  simp only [RawState.chainState, RawState.apply, ChainState.apply, htries, hstorages,
    storageAfter_view nonZero_idem]
  rfl

end States
end SciChain.History
