import SciChain.History.Cursor

namespace SciChain.History
open Library DupTable StorageKey

variable {κ ν γ : Type} [LinearOrder κ]

/-- The value of a key at a block. -/
def live (table : HistoryTable κ ν) (block : Nat) (key : κ) : Option ν :=
  (table.latestAt block key).bind Row.value

theorem live_eq_none {table : HistoryTable κ ν} (h : ∀ row ∈ table.rows, row.key ≠ key) :
    live table block key = none := by
  have hnone : table.latestAt block key = none :=
    latestAt_eq_none_iff.mpr fun r hr hk => absurd hk (h r hr)
  rw [live, hnone]
  rfl

/-- The first entry of a state among the keys that satisfy `P`. -/
def IsFirst (state : κ → Option ν) (P : κ → Prop) : Option (κ × ν) → Prop
  | some (k, v) => P k ∧ state k = some v ∧ ∀ k', P k' → k' < k → state k' = none
  | none => ∀ k, P k → state k = none

/-- What a move of a cursor returns: the first entry of those asked for, with the cursor at its
key. -/
structure Finds (At : γ → κ → Prop) (state : κ → Option ν) (P : κ → Prop)
    (result : Option (κ × ν) × γ) : Prop where
  first : IsFirst state P result.1
  cursor : ∀ e ∈ result.1, At result.2 e.1

/-- The entries that are not zero. -/
def withoutZeros (isZero : ν → Bool) (state : κ → Option ν) (key : κ) : Option ν :=
  (state key).filter fun v => !isZero v

namespace Finds

variable {At : γ → κ → Prop} {state : κ → Option ν} {P Q : κ → Prop} {isZero : ν → Bool}
  {result : Option (κ × ν) × γ}

theorem nothing (h : ∀ k, P k → state k = none) (c : γ) : Finds At state P (none, c) := ⟨h, nofun⟩

theorem congr (h : Finds At state P result) (hPQ : ∀ k, P k → Q k)
    (hskip : ∀ k, Q k → ¬P k → state k = none) : Finds At state Q result := by
  refine ⟨?_, h.cursor⟩
  have hfirst := h.first
  rcases result with ⟨_ | e, c⟩
  · intro k hk
    by_cases hp : P k
    · exact hfirst k hp
    · exact hskip k hk hp
  · obtain ⟨hp, hv, hfirst⟩ := hfirst
    refine ⟨hPQ _ hp, hv, ?_⟩
    intro k hk hlt
    by_cases hp' : P k
    · exact hfirst k hp' hlt
    · exact hskip k hk hp'

omit [LinearOrder κ] in
theorem withoutZeros_of_none (h : state k = none) : withoutZeros isZero state k = none := by
  rw [withoutZeros, h]
  rfl

theorem keep (h : Finds At state P result) (hzero : ∀ e ∈ result.1, isZero e.2 = false) :
    Finds At (withoutZeros isZero state) P result := by
  refine ⟨?_, h.cursor⟩
  have hfirst := h.first
  rcases result with ⟨_ | e, c⟩
  · exact fun k hk => withoutZeros_of_none (hfirst k hk)
  · obtain ⟨hk, hv, hfirst⟩ := hfirst
    refine ⟨hk, ?_, fun k' hk' hlt => withoutZeros_of_none (hfirst k' hk' hlt)⟩
    rw [withoutZeros, hv]
    simp [Option.filter, hzero e rfl]

/-- A zero is passed, and the search goes on from its key. -/
theorem pass (h : Finds At state P (some (k, v), c)) (hzero : isZero v = true)
    (hrest : Finds At (withoutZeros isZero state) (k < ·) result) (hup : ∀ x, k < x → P x) :
    Finds At (withoutZeros isZero state) P result := by
  obtain ⟨_, hv, hfirst⟩ := h.first
  refine hrest.congr hup ?_
  intro x hx hnx
  rcases lt_or_eq_of_le (not_lt.mp hnx) with hxk | rfl
  · exact withoutZeros_of_none (hfirst x hx hxk)
  · rw [withoutZeros, hv]
    simp [Option.filter, hzero]

end Finds

/-- All entries of a state among the keys that satisfy `P`, in the order of the keys. -/
structure Enumerates (state : κ → Option ν) (P : κ → Prop) (entries : List (κ × ν)) : Prop where
  sorted : entries.Pairwise fun a b => a.1 < b.1
  mem : ∀ k v, (k, v) ∈ entries ↔ P k ∧ state k = some v

section Entries

variable {state : κ → Option ν} {P : κ → Prop}

theorem Enumerates.nil (h : IsFirst state P none) : Enumerates state P [] := by
  refine ⟨List.Pairwise.nil, ?_⟩
  intro k v
  constructor
  · intro hmem
    cases hmem
  · rintro ⟨hk, hv⟩
    rw [h k hk] at hv
    cases hv

theorem Enumerates.cons (h : IsFirst state P (some (k, v)))
    (hrest : Enumerates state (k < ·) rest) (hup : ∀ k', k < k' → P k') :
    Enumerates state P ((k, v) :: rest) := by
  obtain ⟨hk, hv, hfirst⟩ := h
  refine ⟨List.pairwise_cons.mpr ⟨?_, hrest.sorted⟩, ?_⟩
  · rintro ⟨k', v'⟩ hmem
    exact ((hrest.mem k' v').mp hmem).1
  · intro k' v'
    rw [List.mem_cons, hrest.mem, Prod.mk.injEq]
    constructor
    · rintro (⟨rfl, rfl⟩ | ⟨hlt, hv'⟩)
      · exact ⟨hk, hv⟩
      · exact ⟨hup k' hlt, hv'⟩
    · rintro ⟨hk', hv'⟩
      rcases lt_trichotomy k' k with hlt | rfl | hlt
      · rw [hfirst k' hk' hlt] at hv'
        cases hv'
      · rw [hv] at hv'
        exact Or.inl ⟨rfl, (Option.some.inj hv').symm⟩
      · exact Or.inr ⟨hlt, hv'⟩

theorem Enumerates.unique (h : Enumerates state P entries) (h' : Enumerates state P entries') :
    entries = entries' := by
  have hnodup {l : List (κ × ν)} (hl : l.Pairwise fun a b => a.1 < b.1) : l.Nodup :=
    hl.imp fun hlt heq => (heq ▸ hlt).ne rfl
  have hperm : entries.Perm entries' := by
    refine (List.perm_ext_iff_of_nodup (hnodup h.sorted) (hnodup h'.sorted)).mpr ?_
    rintro ⟨k, v⟩
    rw [h.mem, h'.mem]
  refine hperm.eq_of_pairwise ?_ h.sorted h'.sorted
  intro a b _ _ hab hba
  exact absurd hab (lt_asymm hba)

variable {next : γ → Option (κ × ν) × γ} {At : γ → κ → Prop} {keys : List κ}

section

variable (hnext : ∀ c p, At c p → Finds At state (p < ·) (next c))
include hnext

/-- A cursor that finds the first entry after its key enumerates the entries. -/
theorem drain_enumerates (hkeys : ∀ k, state k ≠ none → k ∈ keys) (hat : At c p)
    (hfuel : (keys.filter fun k => p < k).length < fuel) :
    Enumerates state (p < ·) (drain next fuel c) := by
  induction fuel generalizing c p with
  | zero => omega
  | succ fuel ih =>
    have hfinds := hnext c p hat
    rw [drain]
    rcases hres : next c with ⟨found, c'⟩
    rw [hres] at hfinds
    cases found with
    | none => exact .nil hfinds.first
    | some e =>
      obtain ⟨k, v⟩ := e
      have hp : p < k := hfinds.first.1
      have hmem : k ∈ keys := hkeys k (by rw [hfinds.first.2.1]; simp)
      have hless : (keys.filter fun x => k < x).length < (keys.filter fun x => p < x).length :=
        length_filter_lt (by simpa using fun x hx => hp.trans hx) hmem (by simpa) (by simp)
      exact .cons hfinds.first (ih (hfinds.cursor (k, v) rfl) (by omega)) fun k' hlt => hp.trans hlt

theorem entriesFrom_enumerates (hkeys : ∀ k, state k ≠ none → k ∈ keys)
    (hfound : Finds At state P result) (hup : ∀ k k', P k → k < k' → P k')
    (hfuel : keys.length < fuel) : Enumerates state P (entriesFrom next fuel result) := by
  obtain ⟨found, c⟩ := result
  cases found with
  | none => exact .nil hfound.first
  | some e =>
    obtain ⟨k, v⟩ := e
    refine .cons hfound.first (drain_enumerates hnext hkeys (hfound.cursor (k, v) rfl) ?_)
      fun k' hlt => hup k k' hfound.first.1 hlt
    exact Nat.lt_of_le_of_lt (List.length_filter_le _ _) hfuel

end

end Entries

namespace VersionedCursor

variable {table : HistoryTable κ ν} {block : Nat} {key : κ}

/-- The state that a cursor sees. -/
def state (c : VersionedCursor κ ν) : κ → Option ν := live c.table c.maxBlockNumber

/-- The cursor reads the table at the block and is on a row of the key. -/
def At (table : HistoryTable κ ν) (block : Nat) (c : VersionedCursor κ ν) (key : κ) : Prop :=
  ∃ row ∈ table.rows, c = ⟨table, block, some row⟩ ∧ row.key = key

theorem latestVersionForKey_eq (c : VersionedCursor κ ν) (key : κ) :
    (c.latestVersionForKey key).1 = c.table.latestAt c.maxBlockNumber key ∧
      ((∃ row ∈ c.table.rows, row.key = key) →
        At c.table c.maxBlockNumber (c.latestVersionForKey key).2 key) := by
  unfold latestVersionForKey
  cases hseek : c.table.seekByKeySubkey key c.maxBlockNumber with
  | some vv =>
    obtain ⟨hmem, hvkey, hvle, hfirst⟩ := c.table.seekByKeySubkey_eq_some_iff.mp hseek
    by_cases hlt : c.maxBlockNumber < vv.subkey
    · have hprev : c.table.prevDup vv = c.table.latestAt c.maxBlockNumber key := by
        unfold prevDup latestAt
        congr 1
        refine List.filter_congr ?_
        intro x hx
        rw [decide_eq_decide, hvkey]
        refine and_congr_right fun hkey => ⟨fun hxlt => ?_, fun hxle => hxle.trans_lt hlt⟩
        by_contra hgt
        have := hfirst x hx hkey (not_le.mp hgt).le
        omega
      simp only [if_pos hlt, hprev]
      cases hlatest : c.table.latestAt c.maxBlockNumber key with
      | some row =>
        obtain ⟨hrow, hkey, _⟩ := latestAt_eq_some_iff.mp hlatest
        exact ⟨rfl, fun _ => ⟨row, hrow, rfl, hkey⟩⟩
      | none => exact ⟨rfl, fun _ => ⟨vv, hmem, rfl, hvkey⟩⟩
    · simp only [if_neg hlt]
      refine ⟨?_, fun _ => ⟨vv, hmem, rfl, hvkey⟩⟩
      exact (latestAt_eq_some_iff.mpr ⟨hmem, hvkey, not_lt.mp hlt, fun _ _ _ hx => hx.trans hvle⟩).symm
  | none =>
    have hnone := List.find?_eq_none.mp hseek
    simp only [decide_eq_true_eq, not_and, not_le] at hnone
    cases hexact : c.table.seekExact key with
    | none =>
      have habsent := List.find?_eq_none.mp hexact
      simp only [decide_eq_true_eq] at habsent
      refine ⟨?_, ?_⟩
      · refine (latestAt_eq_none_iff.mpr ?_).symm
        intro r hr hkey
        exact absurd hkey (habsent r hr)
      · rintro ⟨row, hrow, hkey⟩
        exact absurd hkey (habsent row hrow)
    | some first =>
      obtain ⟨hmem, hkey, _⟩ := c.table.find_key (p := (· = key)) hexact
      have hlast : c.table.lastDup first = c.table.latestAt c.maxBlockNumber key := by
        unfold lastDup latestAt
        congr 1
        refine List.filter_congr ?_
        intro x hx
        rw [decide_eq_decide, hkey]
        exact ⟨fun h => ⟨h, (hnone x hx h).le⟩, fun h => h.1⟩
      simp only [hlast]
      cases hlatest : c.table.latestAt c.maxBlockNumber key with
      | some row =>
        obtain ⟨hrow, hrkey, _⟩ := latestAt_eq_some_iff.mp hlatest
        exact ⟨rfl, fun _ => ⟨row, hrow, rfl, hrkey⟩⟩
      | none => exact ⟨rfl, fun _ => ⟨first, hmem, rfl, hkey⟩⟩

theorem seekExact_eq (c : VersionedCursor κ ν) (key : κ) :
    (c.seekExact key).1 = (c.state key).map (Prod.mk key) ∧
      ((∃ row ∈ c.table.rows, row.key = key) →
        At c.table c.maxBlockNumber (c.seekExact key).2 key) := by
  obtain ⟨hlatest, hat⟩ := c.latestVersionForKey_eq key
  unfold seekExact state live
  rw [← hlatest]
  rcases hres : c.latestVersionForKey key with ⟨found, c'⟩
  rw [hres] at hlatest hat
  cases found with
  | none => exact ⟨rfl, hat⟩
  | some row =>
    obtain ⟨_, hkey, _⟩ := latestAt_eq_some_iff.mp hlatest.symm
    obtain ⟨rowKey, block, value⟩ := row
    cases value with
    | none => exact ⟨rfl, hat⟩
    | some v =>
      subst hkey
      exact ⟨rfl, hat⟩

/-- The rows from a key on, as a bound for a walk over the keys. -/
def ahead (table : HistoryTable κ ν) (key : κ) : Nat :=
  (table.rows.filter fun row => key ≤ row.key).length

theorem ahead_lt (hrow : row ∈ table.rows) (hlt : row.key < key) :
    ahead table key < ahead table row.key :=
  length_filter_lt (by simpa using fun r hr => hlt.le.trans hr) hrow (by simp) (by simpa using hlt)

theorem ahead_pos (hrow : row ∈ table.rows) : 0 < ahead table row.key :=
  List.length_pos_of_mem (List.mem_filter.mpr ⟨hrow, decide_eq_true (le_refl _)⟩)

/-- The keys before the first row of those asked for have no entries. -/
theorem Finds.skip {first : Version κ ν} {P : κ → Prop}
    (h : Finds (At table block) (live table block) (first.key ≤ ·) result)
    (hup : ∀ k, first.key ≤ k → P k) (hfirst : ∀ x ∈ table.rows, P x.key → first.key ≤ x.key) :
    Finds (At table block) (live table block) P result := by
  refine h.congr hup fun k hk hnk => live_eq_none ?_
  rintro r hr rfl
  exact hnk (hfirst r hr hk)

theorem nextLiveFrom_finds {fuel : Nat} {row : Version κ ν} (hrow : row ∈ table.rows)
    (hfuel : ahead table row.key ≤ fuel) (position : Option (Version κ ν)) :
    Finds (At table block) (live table block) (row.key ≤ ·)
      (nextLiveFrom fuel ⟨table, block, position⟩ row.key) := by
  induction fuel generalizing row position with
  | zero =>
    have hpos := ahead_pos hrow
    omega
  | succ fuel ih =>
    obtain ⟨hvalue, hat⟩ := seekExact_eq ⟨table, block, position⟩ row.key
    obtain ⟨current, hcurrent, hcursor, hkey⟩ := hat ⟨row, hrow, rfl⟩
    rw [nextLiveFrom]
    rcases hres : seekExact ⟨table, block, position⟩ row.key with ⟨found, c⟩
    simp only [hres, state] at hvalue hcursor
    subst hvalue hcursor
    cases hlive : live table block row.key with
    | some v =>
      refine ⟨⟨le_refl _, hlive, fun k hle hlt => absurd hlt (not_lt.mpr hle)⟩, ?_⟩
      rintro _ ⟨⟩
      exact ⟨current, hcurrent, rfl, hkey⟩
    | none =>
      have hskip (k : κ) (hle : row.key ≤ k) (hnot : ¬row.key < k) : live table block k = none :=
        eq_of_le_of_not_lt hle hnot ▸ hlive
      refine Finds.congr (P := (row.key < ·)) ?_ (fun k hk => hk.le) hskip
      simp only [Option.map_none, nextNoDup]
      cases hnext : table.nextNoDup current with
      | none =>
        refine .nothing (fun k hlt => live_eq_none ?_) _
        rintro r hr rfl
        exact absurd (hkey ▸ hlt) (by simpa using List.find?_eq_none.mp hnext r hr)
      | some next =>
        obtain ⟨hmem, hlt, hfirst⟩ := table.find_key (p := (current.key < ·)) hnext
        rw [hkey] at hlt hfirst
        have hless := ahead_lt hrow hlt
        exact Finds.skip (ih hmem (by omega) _) (fun k hk => hlt.trans_le hk) hfirst

theorem seek_finds (c : VersionedCursor κ ν) (start : κ) :
    Finds (At c.table c.maxBlockNumber) c.state (start ≤ ·) (c.seek start) := by
  unfold seek
  cases hseek : c.table.seek start with
  | none =>
    refine .nothing (fun k hle => live_eq_none ?_) _
    rintro r hr rfl
    exact absurd hle (by simpa using List.find?_eq_none.mp hseek r hr)
  | some first =>
    obtain ⟨hmem, hle, hfirst⟩ := c.table.find_key (p := (start ≤ ·)) hseek
    exact Finds.skip (nextLiveFrom_finds hmem (List.length_filter_le _ _) _)
      (fun k hk => hle.trans hk) hfirst

theorem next_finds {default : κ} {c : VersionedCursor κ ν} (hat : At table block c key) :
    Finds (At table block) (live table block) (key < ·) (c.next default) := by
  obtain ⟨current, _, rfl, rfl⟩ := hat
  simp only [next, nextNoDup]
  cases hnext : table.nextNoDup current with
  | none =>
    refine .nothing (fun k hlt => live_eq_none ?_) _
    rintro r hr rfl
    exact absurd hlt (by simpa using List.find?_eq_none.mp hnext r hr)
  | some row =>
    obtain ⟨hmem, hlt, hfirst⟩ := table.find_key (p := (current.key < ·)) hnext
    exact Finds.skip (nextLiveFrom_finds hmem (List.length_filter_le _ _) _)
      (fun k hk => hlt.trans_le hk) hfirst

theorem mem_keys_of_live (h : live table block key ≠ none) : key ∈ table.rows.map Row.key := by
  by_contra hnot
  refine h (live_eq_none ?_)
  rintro row hrow rfl
  exact hnot (List.mem_map_of_mem hrow)

theorem entriesFrom_seek (c : VersionedCursor κ ν) (default start : κ) :
    Enumerates c.state (start ≤ ·)
      (entriesFrom (next · default) (c.fuel + 1) (c.seek start)) :=
  entriesFrom_enumerates (fun _ _ hat => next_finds hat) (fun _ hk => mem_keys_of_live hk)
    (c.seek_finds start) (fun _ _ hk hlt => hk.trans hlt.le) (by simp [fuel])

end VersionedCursor

section Bound

theorem StorageKey.lt_iff {a b : StorageKey κ} :
    a < b ↔ a.hashedAddress < b.hashedAddress ∨
      a.hashedAddress = b.hashedAddress ∧ a.sub < b.sub :=
  Prod.Lex.lt_iff

theorem StorageKey.le_iff {a b : StorageKey κ} :
    a ≤ b ↔ a.hashedAddress < b.hashedAddress ∨
      a.hashedAddress = b.hashedAddress ∧ a.sub ≤ b.sub :=
  Prod.Lex.le_iff

namespace BoundCursor

variable {table : HistoryTable (StorageKey κ) ν} {block : Nat} {address : HashKey} {key : κ}
  {isZero : ν → Bool}

/-- The state of the address. -/
def state (c : BoundCursor κ ν) (key : κ) : Option ν := c.inner.state ⟨c.hashedAddress, key⟩

/-- The storage slots: a zero is no entry. -/
def slots (isZero : ν → Bool) (c : BoundCursor κ ν) : κ → Option ν := withoutZeros isZero c.state

def At (table : HistoryTable (StorageKey κ) ν) (block : Nat) (address : HashKey)
    (c : BoundCursor κ ν) (key : κ) : Prop :=
  VersionedCursor.At table block c.inner ⟨address, key⟩ ∧ c.hashedAddress = address

/-- The entries of an address follow each other. -/
theorem own_finds {Q : StorageKey κ → Prop} {c : BoundCursor κ ν}
    (h : Finds (VersionedCursor.At table block) (live table block) Q result)
    (haddress : c.hashedAddress = address) (hPQ : ∀ k, P k ↔ Q ⟨address, k⟩)
    (hge : ∀ k, Q k → address ≤ k.hashedAddress) :
    Finds (At table block address) (fun k => live table block ⟨address, k⟩) P (c.own result) := by
  obtain ⟨found, inner⟩ := result
  cases found with
  | none => exact ⟨fun k hk => h.first _ ((hPQ k).mp hk), nofun⟩
  | some e =>
    obtain ⟨⟨other, k⟩, v⟩ := e
    obtain ⟨hk, hv, hfirst⟩ := h.first
    simp only [own, haddress]
    by_cases hother : other = address
    · subst hother
      rw [if_pos rfl]
      refine ⟨⟨(hPQ k).mpr hk, hv, ?_⟩, ?_⟩
      · intro k' hk' hlt
        exact hfirst _ ((hPQ k').mp hk') (lt_iff.mpr (Or.inr ⟨rfl, hlt⟩))
      · rintro _ ⟨⟩
        exact ⟨h.cursor _ rfl, rfl⟩
    · rw [if_neg hother]
      refine .nothing (fun k' hk' => ?_) _
      have hlt : address < other := lt_of_le_of_ne (hge _ hk) (Ne.symm hother)
      exact hfirst _ ((hPQ k').mp hk') (lt_iff.mpr (Or.inl hlt))

theorem seek_finds (c : BoundCursor κ ν) (start : κ) :
    Finds (At c.inner.table c.inner.maxBlockNumber c.hashedAddress) c.state (start ≤ ·)
      (c.seek start) := by
  refine own_finds (c.inner.seek_finds _) rfl ?_ ?_
  · intro k
    simp [le_iff]
  · intro k hk
    rcases le_iff.mp hk with h | ⟨h, _⟩
    · exact h.le
    · exact h.le

section

variable {c : BoundCursor κ ν} (hat : At table block address c key) (default : κ)
include hat

theorem own_next_finds :
    Finds (At table block address) (fun k => live table block ⟨address, k⟩) (key < ·)
      (c.own (c.inner.next ⟨c.hashedAddress, default⟩)) := by
  refine own_finds (VersionedCursor.next_finds hat.1) hat.2 ?_ ?_
  · intro k
    simp [lt_iff]
  · intro k hk
    rcases lt_iff.mp hk with h | ⟨h, _⟩
    · exact h.le
    · exact h.le

theorem next_finds :
    Finds (At table block address) (fun k => live table block ⟨address, k⟩) (key < ·)
      (c.next default) := by
  have hfinds := own_next_finds hat default
  obtain ⟨⟨row, _, hinner, _⟩, _⟩ := hat
  rw [next, hinner]
  rwa [hinner] at hfinds

theorem nextNonZero_finds (hfuel : VersionedCursor.ahead table ⟨address, key⟩ ≤ fuel) :
    Finds (At table block address) (withoutZeros isZero fun k => live table block ⟨address, k⟩)
      (key < ·) (nextNonZero isZero default fuel c) := by
  induction fuel generalizing c key with
  | zero =>
    obtain ⟨⟨row, hmem, _, hkey⟩, _⟩ := hat
    have hpos := VersionedCursor.ahead_pos hmem
    rw [hkey] at hpos
    omega
  | succ fuel ih =>
    have hfinds := own_next_finds hat default
    rw [nextNonZero]
    rcases hres : c.own (c.inner.next ⟨c.hashedAddress, default⟩) with ⟨found, c'⟩
    rw [hres] at hfinds
    cases found with
    | none => exact hfinds.keep nofun
    | some e =>
      obtain ⟨k, v⟩ := e
      have hlt : key < k := hfinds.first.1
      cases hzero : isZero v with
      | true =>
        simp only [hzero, if_true]
        obtain ⟨⟨row, hmem, _, hkey⟩, _⟩ := hat
        have hless : VersionedCursor.ahead table ⟨address, k⟩ <
            VersionedCursor.ahead table row.key :=
          VersionedCursor.ahead_lt hmem (hkey ▸ lt_iff.mpr (Or.inr ⟨rfl, hlt⟩))
        rw [hkey] at hless
        exact hfinds.pass hzero (ih (hfinds.cursor (k, v) rfl) (by omega)) fun x hx => hlt.trans hx
      | false =>
        simp only [hzero]
        exact hfinds.keep (by simpa using hzero)

theorem nextSlot_finds :
    Finds (At table block address) (withoutZeros isZero fun k => live table block ⟨address, k⟩)
      (key < ·) (c.nextSlot isZero default) := by
  obtain ⟨⟨row, hrow, hinner, hkey⟩, haddress⟩ := hat
  rw [nextSlot, hinner]
  exact nextNonZero_finds ⟨⟨row, hrow, hinner, hkey⟩, haddress⟩ default
    (List.length_filter_le _ _)

end

theorem seekSlot_finds (c : BoundCursor κ ν) (default start : κ) :
    Finds (At c.inner.table c.inner.maxBlockNumber c.hashedAddress) (c.slots isZero) (start ≤ ·)
      (c.seekSlot isZero default start) := by
  have hfinds := c.seek_finds start
  unfold seekSlot
  rcases hres : c.seek start with ⟨found, c'⟩
  rw [hres] at hfinds
  cases found with
  | none => exact hfinds.keep nofun
  | some e =>
    obtain ⟨k, v⟩ := e
    have hle : start ≤ k := hfinds.first.1
    cases hzero : isZero v with
    | true =>
      simp only [hzero, if_true]
      have hat := hfinds.cursor (k, v) rfl
      have htable : c'.inner.table = c.inner.table := by
        obtain ⟨⟨_, _, hinner, _⟩, _⟩ := hat
        rw [hinner]
      refine hfinds.pass hzero (nextNonZero_finds hat default ?_) fun x hx => hle.trans hx.le
      rw [VersionedCursor.fuel, htable]
      exact List.length_filter_le _ _
    | false =>
      simp only [hzero]
      exact hfinds.keep (by simpa using hzero)

/-- The keys of the address that rows have. -/
def keys (c : BoundCursor κ ν) : List κ := c.inner.table.rows.map fun row => row.key.sub

theorem mem_keys_of_state {c : BoundCursor κ ν} (h : c.state key ≠ none) : key ∈ c.keys := by
  obtain ⟨row, hrow, hkey⟩ := List.mem_map.mp (VersionedCursor.mem_keys_of_live h)
  exact List.mem_map.mpr ⟨row, hrow, by rw [hkey]⟩

/-- What the cursor of a storage trie returns from a path on. -/
theorem entriesFrom_seek (c : BoundCursor κ ν) (default start : κ) :
    Enumerates c.state (start ≤ ·)
      (entriesFrom (next · default) (c.inner.fuel + 1) (c.seek start)) :=
  entriesFrom_enumerates (fun _ _ hat => next_finds hat default) (fun _ hk => mem_keys_of_state hk)
    (c.seek_finds start) (fun _ _ hk hlt => hk.trans hlt.le)
    (by simp [keys, VersionedCursor.fuel])

theorem entriesFrom_seekSlot (c : BoundCursor κ ν) (default start : κ) :
    Enumerates (c.slots isZero) (start ≤ ·)
      (entriesFrom (nextSlot · isZero default) (c.inner.fuel + 1)
        (c.seekSlot isZero default start)) := by
  have hkeys (k : κ) (hk : c.slots isZero k ≠ none) : k ∈ c.keys :=
    mem_keys_of_state fun hnone => hk (Finds.withoutZeros_of_none hnone)
  exact entriesFrom_enumerates (fun _ _ hat => nextSlot_finds hat default) hkeys
    (c.seekSlot_finds default start) (fun _ _ hk hlt => hk.trans hlt.le)
    (by simp [keys, VersionedCursor.fuel])

end BoundCursor
end Bound
end SciChain.History
