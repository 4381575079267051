import SciChain.History.Store
import SciChain.Proofs.VersionedReads

namespace SciChain.History
open Library ProofsDb

/-! What a history table holds: one row for each entry of the state at the earliest block,
and the changes of the blocks after it. -/

variable {κ ν : Type} [LinearOrder κ]

section Spec

/-- A state after the changes of a block. -/
def applyUpdates (state : κ → Option ν) (updates : List (κ × Option ν)) (key : κ) : Option ν :=
  (updates.lookup key).getD (state key)

/-- The changes of blocks, with their numbers. -/
abbrev Changes (κ ν : Type) := List (Nat × List (κ × Option ν))

/-- The state at a block. -/
def stateAt (base : κ → Option ν) (later : Changes κ ν) (block : Nat) : κ → Option ν :=
  (later.filter fun u => u.1 ≤ block).foldl (fun state u => applyUpdates state u.2) base

/-- A block gave the key the value. -/
def Changed (later : Changes κ ν) (key : κ) (block : Nat) (value : Option ν) : Prop :=
  ∃ u ∈ later, u.1 = block ∧ (key, value) ∈ u.2

/-- The last change of a key up to the target. -/
structure LastChange (later : Changes κ ν) (target : Nat) (key : κ) (block : Nat) : Prop where
  le : block ≤ target
  changed : ∃ value, Changed later key block value
  last : ∀ b value, b ≤ target → Changed later key b value → b ≤ block

/-- A row belongs to an entry of the state at the earliest block, or to a later change. -/
structure Tracks (table : HistoryTable κ ν) (earliest : Nat) (base : κ → Option ν)
    (later : Changes κ ν) : Prop where
  mem : ∃ since : κ → Nat, (∀ key, since key ≤ earliest) ∧ ∀ r, r ∈ table.rows ↔
    (r.subkey = since r.key ∧ r.value ≠ none ∧ base r.key = r.value) ∨
      Changed later r.key r.subkey r.value
  order : later.Pairwise fun u w => u.1 < w.1
  above : ∀ u ∈ later, earliest < u.1
  distinct : ∀ u ∈ later, (keys u.2).Nodup

end Spec

section Changed

variable {later : Changes κ ν}

omit [LinearOrder κ] in
theorem changed_snoc : Changed (later ++ [u]) key block value ↔
    Changed later key block value ∨ u.1 = block ∧ (key, value) ∈ u.2 := by
  simp [Changed, or_and_right, exists_or]

omit [LinearOrder κ] in
theorem changed_filter {p : Nat → Bool} : Changed (later.filter fun u => p u.1) key block value ↔
    Changed later key block value ∧ p block = true := by
  constructor
  · rintro ⟨u, hu, rfl, hmem⟩
    exact ⟨⟨u, (List.mem_filter.mp hu).1, rfl, hmem⟩, (List.mem_filter.mp hu).2⟩
  · rintro ⟨⟨u, hu, rfl, hmem⟩, hp⟩
    exact ⟨u, List.mem_filter.mpr ⟨hu, hp⟩, rfl, hmem⟩

omit [LinearOrder κ] in
theorem LastChange.unique (h : LastChange later target key block)
    (h' : LastChange later target key block') : block' = block := by
  obtain ⟨value, hchanged⟩ := h.changed
  obtain ⟨value', hchanged'⟩ := h'.changed
  exact le_antisymm (h.last _ _ h'.le hchanged') (h'.last _ _ h.le hchanged)

theorem stateAt_snoc (base : κ → Option ν) (later : Changes κ ν)
    (u : Nat × List (κ × Option ν)) (block : Nat) :
    stateAt base (later ++ [u]) block =
      if u.1 ≤ block then applyUpdates (stateAt base later block) u.2
      else stateAt base later block := by
  unfold stateAt
  rw [List.filter_append, List.foldl_append]
  by_cases hle : u.1 ≤ block <;> simp [hle]

/-- A value is that of the last change, or still the first one. -/
theorem stateAt_cases (horder : later.Pairwise fun u w => u.1 < w.1)
    (hdistinct : ∀ u ∈ later, (keys u.2).Nodup) (base : κ → Option ν) (target : Nat) (key : κ) :
    (∃ block value, LastChange later target key block ∧ Changed later key block value ∧
      stateAt base later target key = value) ∨
    (∀ block value, block ≤ target → ¬Changed later key block value) ∧
      stateAt base later target key = base key := by
  induction later using List.reverseRecOn with
  | nil => exact .inr ⟨by simp [Changed], rfl⟩
  | append_singleton later u ih =>
    obtain ⟨horder, _, hbefore⟩ := List.pairwise_append.mp horder
    rw [stateAt_snoc]
    by_cases hu : u.1 ≤ target ∧ key ∈ keys u.2
    · obtain ⟨⟨_, value⟩, hmem, rfl⟩ := List.mem_map.mp hu.2
      refine .inl ⟨u.1, value, ⟨hu.1, ⟨value, changed_snoc.mpr (.inr ⟨rfl, hmem⟩)⟩, ?_⟩,
        changed_snoc.mpr (.inr ⟨rfl, hmem⟩), ?_⟩
      · rintro b _ _ hb
        rcases changed_snoc.mp hb with ⟨w, hw, rfl, _⟩ | ⟨rfl, _⟩
        · exact (hbefore w hw u (List.mem_singleton_self u)).le
        · exact le_refl _
      · rw [if_pos hu.1, applyUpdates,
          (lookup_eq_some_iff_mem (hdistinct u (by simp))).mpr hmem, Option.getD_some]
    · -- the block is behind the target or does not have the key
      have hsame (b : Nat) (hb : b ≤ target) (value : Option ν) :
          Changed (later ++ [u]) key b value ↔ Changed later key b value := by
        refine changed_snoc.trans (or_iff_left ?_)
        rintro ⟨rfl, hmem⟩
        exact hu ⟨hb, mem_keys_of_mem hmem⟩
      have hstate : (if u.1 ≤ target then applyUpdates (stateAt base later target) u.2
          else stateAt base later target) key = stateAt base later target key := by
        split
        · rename_i hle
          rw [applyUpdates, lookup_eq_none_iff_not_mem.mpr fun hkey => hu ⟨hle, hkey⟩,
            Option.getD_none]
        · rfl
      rw [hstate]
      rcases ih horder (fun w hw => hdistinct w (List.mem_append_left _ hw)) with
        ⟨block, value, hlast, hchanged, heq⟩ | ⟨hnone, heq⟩
      · have hchanged := (hsame block hlast.le value).mpr hchanged
        exact .inl ⟨block, value, ⟨hlast.le, ⟨value, hchanged⟩,
          fun b v hb hv => hlast.last b v hb ((hsame b hb v).mp hv)⟩, hchanged, heq⟩
      · exact .inr ⟨fun b v hb hv => hnone b v hb ((hsame b hb v).mp hv), heq⟩

end Changed

section Reads

variable {table : HistoryTable κ ν} {earliest block : Nat} {base : κ → Option ν}
  {later : Changes κ ν}

theorem Tracks.lt_of_changed (h : Tracks table earliest base later)
    (hchanged : Changed later key block value) : earliest < block := by
  obtain ⟨u, hu, rfl, _⟩ := hchanged
  exact h.above u hu

theorem Tracks.live_eq (h : Tracks table earliest base later) (hle : earliest ≤ block) :
    live table block = stateAt base later block := by
  obtain ⟨since, hsince, hrows⟩ := h.mem
  funext key
  rcases stateAt_cases h.order h.distinct base block key with
    ⟨n, value, hlast, hchanged, hstate⟩ | ⟨hnone, hstate⟩
  · have hlatest : table.latestAt block key = some ⟨key, n, value⟩ := by
      refine DupTable.latestAt_eq_some_iff.mpr ⟨(hrows _).mpr (.inr hchanged), rfl, hlast.le, ?_⟩
      rintro x hx rfl hxle
      rcases (hrows x).mp hx with ⟨hsub, _⟩ | hx
      · rw [hsub]
        exact (hsince _).trans (h.lt_of_changed hchanged).le
      · exact hlast.last _ _ hxle hx
    rw [live, hlatest, hstate]
    rfl
  · -- no block up to this one changed the key: what counts is the state at the earliest one
    rw [live, hstate]
    cases hlatest : table.latestAt block key with
    | none =>
      refine Eq.symm (by_contra fun hne => ?_)
      have habsent := DupTable.latestAt_eq_none_iff.mp hlatest ⟨key, since key, base key⟩
        ((hrows _).mpr (.inl ⟨rfl, hne, rfl⟩)) rfl
      exact absurd ((hsince key).trans hle) (not_le.mpr habsent)
    | some r =>
      obtain ⟨hr, rfl, hrle, _⟩ := DupTable.latestAt_eq_some_iff.mp hlatest
      exact (((hrows r).mp hr).resolve_right (hnone _ _ hrle)).2.2.symm

end Reads

section Writes

variable {table : HistoryTable κ ν} {earliest block : Nat} {base : κ → Option ν}
  {later : Changes κ ν} {items : List (κ × Option ν)}

theorem persistHistoryBatch_ok (hitems : (keys items).Nodup)
    (hbehind : ∀ e ∈ items, table.Behind e.1 block) :
    ∃ table', ProofsDb.persistHistoryBatch table block items = .ok table' ∧
      ∀ r, r ∈ table'.rows ↔ r ∈ table.rows ∨ block = r.subkey ∧ (r.key, r.value) ∈ items := by
  suffices hfold : ∃ table', items.foldlM
      (fun table item => table.appendDup item.1 block item.2) table = some table' ∧
      ∀ r, r ∈ table'.rows ↔ r ∈ table.rows ∨ block = r.subkey ∧ (r.key, r.value) ∈ items by
    obtain ⟨table', htable, hrows⟩ := hfold
    refine ⟨table', ?_, hrows⟩
    rw [persistHistoryBatch, htable]
  induction items generalizing table with
  | nil => exact ⟨table, rfl, by simp⟩
  | cons e items ih =>
    rw [keys_cons, List.nodup_cons] at hitems
    obtain ⟨next, hnext, hrows⟩ :=
      table.appendDup_of_behind (hbehind e List.mem_cons_self) e.2
    have hbehind' : ∀ x ∈ items, next.Behind x.1 block := by
      intro x hx r hr hkey
      rcases (hrows r).mp hr with rfl | hr
      · have hmem : x.1 ∈ keys items := mem_keys_of_mem hx
        have heq : e.1 = x.1 := hkey
        exact absurd (heq ▸ hmem) hitems.1
      · exact hbehind x (List.mem_cons_of_mem _ hx) r hr hkey
    obtain ⟨table', htable, hrows'⟩ := ih hitems.2 hbehind'
    refine ⟨table', ?_, ?_⟩
    · rw [List.foldlM_cons, hnext]
      exact htable
    · intro r
      have hfirst : r = ⟨e.1, block, e.2⟩ ↔ block = r.subkey ∧ (r.key, r.value) = e := by
        obtain ⟨k, n, v⟩ := r
        simp [Prod.ext_iff, and_left_comm, eq_comm]
      rw [hrows', hrows, hfirst, List.mem_cons, and_or_left, or_assoc, or_left_comm]

section

variable (h : Tracks table earliest base later) (hblock : earliest < block)
  (hlater : ∀ u ∈ later, u.1 < block)
include h hblock hlater

theorem Tracks.behind (key : κ) : table.Behind key block := by
  obtain ⟨since, hsince, hrows⟩ := h.mem
  intro r hr _
  rcases (hrows r).mp hr with ⟨hsub, _⟩ | ⟨u, hu, hsub, _⟩
  · rw [hsub]
    exact (hsince _).trans_lt hblock
  · rw [← hsub]
    exact hlater u hu

theorem Tracks.extend (hitems : (keys items).Nodup)
    (hrows : ∀ r, r ∈ table'.rows ↔ r ∈ table.rows ∨ block = r.subkey ∧ (r.key, r.value) ∈ items) :
    Tracks table' earliest base (later ++ [(block, items)]) := by
  obtain ⟨since, hsince, hold⟩ := h.mem
  refine ⟨⟨since, hsince, fun r => ?_⟩, ?_, ?_, ?_⟩
  · rw [hrows, hold, changed_snoc, or_assoc]
  · refine List.pairwise_append.mpr ⟨h.order, List.pairwise_singleton _ _, ?_⟩
    intro u hu w hw
    obtain rfl := List.mem_singleton.mp hw
    exact hlater u hu
  · exact List.forall_mem_append.mpr ⟨h.above, by simpa using hblock⟩
  · exact List.forall_mem_append.mpr ⟨h.distinct, by simpa using hitems⟩

end

end Writes

section Prune

variable {table : HistoryTable κ ν} {earliest target : Nat} {base : κ → Option ν}
  {later : Changes κ ν}

omit [LinearOrder κ] in
theorem mem_preceding {rows : List (Version κ ν)}
    (hrows : rows.Pairwise fun a b => a.subkey < b.subkey) :
    x ∈ ProofsDb.preceding survivor rows ↔
      x ∈ rows ∧ (x.subkey < survivor ∨ x.subkey = survivor ∧ x.value = none) := by
  induction rows with
  | nil => simp [preceding]
  | cons row rest ih =>
    obtain ⟨hrow, hrest⟩ := List.pairwise_cons.mp hrows
    simp only [preceding]
    by_cases hle : survivor ≤ row.subkey
    · -- the rows after this one are all behind the survivor
      rw [if_pos hle]
      have hafter (y : Version κ ν) (hy : y ∈ rest) : survivor < y.subkey :=
        hle.trans_lt (hrow y hy)
      constructor
      · intro hx
        split at hx
        · rename_i hnone
          obtain rfl := List.mem_singleton.mp hx
          exact ⟨List.mem_cons_self, Or.inr ⟨hnone.1, by simpa using hnone.2⟩⟩
        · cases hx
      · rintro ⟨hx, hgone⟩
        rcases List.mem_cons.mp hx with rfl | hx
        · rcases hgone with hlt | ⟨heq, hnone⟩
          · omega
          · rw [if_pos ⟨heq, by simp [hnone]⟩]
            exact List.mem_singleton_self _
        · have hlt := hafter x hx
          omega
    · rw [if_neg hle, List.mem_cons, ih hrest, List.mem_cons]
      constructor
      · rintro (rfl | ⟨hx, hgone⟩)
        · exact ⟨Or.inl rfl, Or.inl (not_le.mp hle)⟩
        · exact ⟨Or.inr hx, hgone⟩
      · rintro ⟨rfl | hx, hgone⟩
        · exact Or.inl rfl
        · exact Or.inr ⟨hx, hgone⟩

/-- A row that goes when the last change of its key up to the target is at `survivor`. -/
def Gone (survivor : Nat) (r : Version κ ν) : Prop :=
  r.subkey < survivor ∨ r.subkey = survivor ∧ r.value = none

theorem mem_pruneKey {r : Version κ ν} :
    r ∈ (ProofsDb.pruneKey table key survivor).rows ↔
      r ∈ table.rows ∧ ¬(r.key = key ∧ Gone survivor r) := by
  have hdups : (table.rows.filter fun row => row.key = key).Pairwise
      fun a b => a.subkey < b.subkey := by
    refine List.Pairwise.imp_of_mem ?_ (table.sorted.filter _)
    intro a b ha hb hab
    have hakey : a.key = key := by simpa using (List.mem_filter.mp ha).2
    have hbkey : b.key = key := by simpa using (List.mem_filter.mp hb).2
    exact hab.subkey_lt (hakey.trans hbkey.symm)
  rw [pruneKey, DupTable.mem_remove, decide_eq_false_iff_not]
  refine and_congr_right fun hr => not_congr (and_congr_right fun hkey => ?_)
  rw [List.any_eq_true]
  constructor
  · rintro ⟨x, hx, heq⟩
    obtain ⟨hmem, hgone⟩ := (mem_preceding hdups).mp hx
    obtain ⟨hxmem, hxkey⟩ := List.mem_filter.mp hmem
    have hxr : x = r := by
      refine table.eq_of_mem hxmem hr ?_ (by simpa using heq)
      rw [hkey]
      simpa using hxkey
    rw [← hxr]
    exact hgone
  · intro hgone
    have hmem : r ∈ table.rows.filter fun row => row.key = key :=
      List.mem_filter.mpr ⟨hr, by simpa using hkey⟩
    exact ⟨r, (mem_preceding hdups).mpr ⟨hmem, hgone⟩, by simp⟩

theorem mem_pruneHistoryPreceding :
    r ∈ (ProofsDb.pruneHistoryPreceding table cut).rows ↔
      r ∈ table.rows ∧ ∀ item ∈ cut, ¬(r.key = item.1 ∧ Gone item.2 r) := by
  induction cut generalizing table with
  | nil => simp [pruneHistoryPreceding]
  | cons item cut ih =>
    change r ∈ (pruneHistoryPreceding (pruneKey table item.1 item.2) cut).rows ↔ _
    rw [ih, mem_pruneKey, List.forall_mem_cons, and_assoc]

/-- Pruning up to a target: what was its state is the state at the earliest block now. -/
theorem Tracks.prune (h : Tracks table earliest base later) (htarget : earliest < target)
    (hrows : ∀ r, r ∈ table'.rows ↔ r ∈ table.rows ∧
      ∀ survivor, LastChange later target r.key survivor → ¬Gone survivor r) :
    Tracks table' target (stateAt base later target) (later.filter fun u => target < u.1) := by
  obtain ⟨since, hsince, hold⟩ := h.mem
  -- the row that stays of a key is the one of its last change, or there was no change
  have hkept (key : κ) : ∃ n ≤ target, ∀ r : Version κ ν, r.key = key → (r ∈ table'.rows ↔
      (r.subkey = n ∧ r.value ≠ none ∧ stateAt base later target r.key = r.value) ∨
        Changed (later.filter fun u => target < u.1) r.key r.subkey r.value) := by
    rcases stateAt_cases h.order h.distinct base target key with
      ⟨n, value, hlast, hchanged, hstate⟩ | ⟨hnone, hstate⟩
    · refine ⟨n, hlast.le, ?_⟩
      rintro r rfl
      rw [hrows, hold, hstate, changed_filter (p := (target < ·)), decide_eq_true_eq]
      constructor
      · rintro ⟨hr, hgone⟩
        have hge : n ≤ r.subkey := not_lt.mp fun hlt => hgone n hlast (.inl hlt)
        have hr : Changed later r.key r.subkey r.value := by
          refine hr.resolve_left ?_
          rintro ⟨hsub, _⟩
          have := hsince r.key
          have := h.lt_of_changed hchanged
          omega
        by_cases hle : r.subkey ≤ target
        · have heq := le_antisymm (hlast.last _ _ hle hr) hge
          have hrow : r = ⟨r.key, n, value⟩ :=
            table.eq_of_mem ((hold r).mpr (.inr hr)) ((hold _).mpr (.inr hchanged)) rfl heq
          exact .inl ⟨heq, fun hnone => hgone n hlast (.inr ⟨heq, hnone⟩), by rw [hrow]⟩
        · exact .inr ⟨hr, not_le.mp hle⟩
      · rintro (⟨rfl, hne, rfl⟩ | ⟨hr, hlt⟩)
        · refine ⟨.inr hchanged, fun survivor hsurvivor hgone => ?_⟩
          obtain rfl := hlast.unique hsurvivor
          rcases hgone with hlt | ⟨_, hnone⟩
          · exact lt_irrefl _ hlt
          · exact hne hnone
        · refine ⟨.inr hr, fun survivor hsurvivor hgone => ?_⟩
          have := hsurvivor.le
          rcases hgone with hlt | ⟨heq, _⟩ <;> omega
    · refine ⟨since key, (hsince key).trans htarget.le, ?_⟩
      rintro r rfl
      rw [hrows, hold, hstate, changed_filter (p := (target < ·)), decide_eq_true_eq]
      constructor
      · rintro ⟨hr | hr, _⟩
        · exact .inl hr
        · exact .inr ⟨hr, not_le.mp fun hle => hnone _ _ hle hr⟩
      · intro hr
        refine ⟨hr.imp_right And.left, fun survivor hsurvivor => ?_⟩
        obtain ⟨value, hchanged⟩ := hsurvivor.changed
        exact absurd hchanged (hnone _ _ hsurvivor.le)
  choose since' hle hrows' using hkept
  refine ⟨⟨since', hle, fun r => hrows' r.key r rfl⟩, h.order.filter _, ?_, ?_⟩
  · intro u hu
    simpa using (List.mem_filter.mp hu).2
  · intro u hu
    exact h.distinct u (List.mem_filter.mp hu).1

end Prune

section Delete

variable {table : HistoryTable κ ν} {earliest first : Nat} {base : κ → Option ν}
  {later : Changes κ ν}

theorem mem_deleteVersion :
    r ∈ (ProofsDb.deleteVersion table key block).rows ↔
      r ∈ table.rows ∧ ¬(r.key = key ∧ r.subkey = block) := by
  unfold deleteVersion
  cases hseek : table.seekByKeySubkey key block with
  | none =>
    have hnone := List.find?_eq_none.mp hseek
    simp only [decide_eq_true_eq, not_and, not_le] at hnone
    refine ⟨fun hr => ⟨hr, ?_⟩, fun hr => hr.1⟩
    rintro ⟨hkey, hsub⟩
    exact absurd (hnone r hr hkey) (by omega)
  | some row =>
    obtain ⟨_, hrow, _, hfirst⟩ := table.seekByKeySubkey_eq_some_iff.mp hseek
    simp only
    split
    · rename_i hsub
      rw [DupTable.mem_remove, decide_eq_false_iff_not, hrow, hsub]
    · rename_i hsub
      refine ⟨fun hr => ⟨hr, ?_⟩, fun hr => hr.1⟩
      rintro ⟨hkey, hrsub⟩
      have := hfirst r hr hkey hrsub.ge
      omega

theorem mem_deleteDupSorted :
    r ∈ (ProofsDb.deleteDupSorted table items).rows ↔
      r ∈ table.rows ∧ (r.key, r.subkey) ∉ items := by
  induction items generalizing table with
  | nil => simp [deleteDupSorted]
  | cons item items ih =>
    change r ∈ (deleteDupSorted
      (deleteVersion table item.1 item.2) items).rows ↔ _
    rw [ih, mem_deleteVersion, List.mem_cons, not_or, and_assoc, Prod.ext_iff]

theorem Tracks.unwind (h : Tracks table earliest base later) (hfirst : earliest < first)
    (hrows : ∀ r, r ∈ table'.rows ↔ r ∈ table.rows ∧
      ¬(first ≤ r.subkey ∧ ∃ value, Changed later r.key r.subkey value)) :
    Tracks table' earliest base (later.filter fun u => ¬first ≤ u.1) := by
  obtain ⟨since, hsince, hold⟩ := h.mem
  refine ⟨⟨since, hsince, fun r => ?_⟩, h.order.filter _, ?_, ?_⟩
  · rw [hrows, hold, changed_filter (p := fun n => ¬first ≤ n), decide_eq_true_eq]
    constructor
    · rintro ⟨hr | hr, hnot⟩
      · exact .inl hr
      · exact .inr ⟨hr, fun hle => hnot ⟨hle, _, hr⟩⟩
    · rintro (hr | ⟨hr, hlt⟩)
      · refine ⟨.inl hr, fun hge => ?_⟩
        have := hsince r.key
        omega
      · exact ⟨.inr hr, fun hge => hlt hge.1⟩
  · intro u hu
    exact h.above u (List.mem_filter.mp hu).1
  · intro u hu
    exact h.distinct u (List.mem_filter.mp hu).1

end Delete
end SciChain.History
