import SciChain.Proofs.HistoryChain

namespace SciChain.History
open Library

section Survivors

variable {κ : Type} [LinearOrder κ]

/-- The keys of one block that are not there yet. -/
def addSurvivors (found : List (κ × Nat)) (entry : Nat × List κ) : List (κ × Nat) :=
  entry.2.foldl (fun found key =>
    if (found.lookup key).isSome then found else insertKey key entry.1 found) found

theorem survivors_eq (changes : List (Nat × List κ)) :
    ProofsDb.survivors changes = changes.foldl addSurvivors [] := rfl

theorem lookup_addSurvivors (found : List (κ × Nat)) (entry : Nat × List κ) (key : κ) :
    (addSurvivors found entry).lookup key =
      (found.lookup key).or (if key ∈ entry.2 then some entry.1 else none) := by
  obtain ⟨block, changed⟩ := entry
  unfold addSurvivors
  induction changed generalizing found with
  | nil => simp
  | cons x changed ih =>
    rw [List.foldl_cons, ih]
    by_cases hkey : key = x
    · subst hkey
      cases hfound : found.lookup key with
      | some n => simp [hfound]
      | none => simp [lookup_insertKey]
    · have hsame : (if (found.lookup x).isSome then found else insertKey x block found).lookup key =
          found.lookup key := by
        split
        · rfl
        · rw [lookup_insertKey, if_neg hkey]
      rw [hsame]
      simp [hkey]

theorem lookup_survivors (changes : List (Nat × List κ)) (key : κ) :
    (ProofsDb.survivors changes).lookup key =
      (changes.find? fun entry => key ∈ entry.2).map Prod.fst := by
  suffices hfold : ∀ found : List (κ × Nat), (changes.foldl addSurvivors found).lookup key =
      (found.lookup key).or ((changes.find? fun entry => key ∈ entry.2).map Prod.fst) by
    rw [survivors_eq, hfold]
    rfl
  induction changes with
  | nil => simp
  | cons entry changes ih =>
    intro found
    rw [List.foldl_cons, ih, lookup_addSurvivors, List.find?_cons, Option.or_assoc]
    by_cases hkey : key ∈ entry.2 <;> simp [hkey]

theorem sorted_addSurvivors (h : (keys found).Pairwise (· < ·)) (entry : Nat × List κ) :
    (keys (addSurvivors found entry)).Pairwise (· < ·) := by
  obtain ⟨block, changed⟩ := entry
  unfold addSurvivors
  induction changed generalizing found with
  | nil => exact h
  | cons x changed ih =>
    rw [List.foldl_cons]
    split
    · exact ih h
    · exact ih (sorted_insertKey h)

theorem sorted_survivors (changes : List (Nat × List κ)) :
    (keys (ProofsDb.survivors changes)).Pairwise (· < ·) := by
  suffices hfold : ∀ found : List (κ × Nat), (keys found).Pairwise (· < ·) →
      (keys (changes.foldl addSurvivors found)).Pairwise (· < ·) by
    rw [survivors_eq]
    exact hfold [] List.Pairwise.nil
  induction changes with
  | nil => exact fun _ h => h
  | cons entry changes ih => exact fun found h => ih _ (sorted_addSurvivors h entry)

/-- Backwards through the blocks, the first one that has a key is the last that changed it. -/
theorem mem_survivors {ν : Type} {later : Changes κ ν}
    (horder : later.Pairwise fun u w => u.1 < w.1) :
    (key, block) ∈ ProofsDb.survivors
      (((later.filter fun u => u.1 ≤ target).reverse).map fun u => (u.1, keys u.2)) ↔
      LastChange later target key block := by
  have hdown : (((later.filter fun u => u.1 ≤ target).reverse).map
      fun u => (u.1, keys u.2)).Pairwise fun u w => w.1 < u.1 := by
    rw [List.pairwise_map, List.pairwise_reverse]
    exact horder.filter _
  have hmem {u : Nat × List κ} : u ∈ ((later.filter fun u => u.1 ≤ target).reverse).map
      (fun u => (u.1, keys u.2)) ↔ ∃ w ∈ later, w.1 ≤ target ∧ u = (w.1, keys w.2) := by
    simp [and_assoc, eq_comm]
  have hlast {u : Nat × List κ} (hfind : (((later.filter fun u => u.1 ≤ target).reverse).map
      fun u => (u.1, keys u.2)).find? (fun entry => key ∈ entry.2) = some u) :
      LastChange later target key u.1 := by
    obtain ⟨hin, hkey, hfirst⟩ := find_first hdown hfind
    obtain ⟨w, hw, hle, rfl⟩ := hmem.mp hin
    obtain ⟨⟨_, value⟩, hvalue, rfl⟩ := List.mem_map.mp (of_decide_eq_true hkey)
    refine ⟨hle, ⟨value, w, hw, rfl, hvalue⟩, ?_⟩
    rintro b _ hb ⟨x, hx, rfl, hxmem⟩
    rcases hfirst _ (hmem.mpr ⟨x, hx, hb, rfl⟩) (by simpa using mem_keys_of_mem hxmem) with heq | hlt
    · exact (congrArg Prod.fst heq).le
    · exact hlt.le
  rw [← lookup_eq_some_iff_mem ((sorted_survivors _).imp fun h => h.ne), lookup_survivors,
    Option.map_eq_some_iff]
  constructor
  · rintro ⟨u, hfind, rfl⟩
    exact hlast hfind
  · intro h
    obtain ⟨value, w, hw, rfl, hvalue⟩ := h.changed
    obtain ⟨u, hfind⟩ := Option.isSome_iff_exists.mp
      ((List.find?_isSome (p := fun entry => key ∈ entry.2)).mpr
        ⟨_, hmem.mpr ⟨w, hw, h.le, rfl⟩, decide_eq_true (mem_keys_of_mem hvalue)⟩)
    exact ⟨u, hfind, h.unique (hlast hfind)⟩

end Survivors

section Prune

variable {β α : Type} {db : ProofsDb β α} {earliest : NumHash} {base : RawState β α}
  {rows : List (BlockRows β α)}

/-- The entries up to one of a list in order: those before it, then itself. -/
theorem filter_le_eq_append {γ : Type} (f : γ → Nat) {l : List γ}
    (hl : l.Pairwise fun a b => f a < f b) {x : γ} (hx : x ∈ l) :
    l.filter (fun a => f a ≤ f x) = l.filter (fun a => f a < f x) ++ [x] := by
  induction l with
  | nil => cases hx
  | cons y l ih =>
    obtain ⟨hy, hl⟩ := List.pairwise_cons.mp hl
    rcases List.mem_cons.mp hx with rfl | hx
    · have hnone : l.filter (fun a => f a ≤ f x) = [] ∧ l.filter (fun a => f a < f x) = [] := by
        constructor
        · refine List.filter_eq_nil_iff.mpr fun a ha => ?_
          simpa using hy a ha
        · refine List.filter_eq_nil_iff.mpr fun a ha => ?_
          simpa using (hy a ha).le
      simp [hnone]
    · have hlt := hy x hx
      simp [hlt, hlt.le, ih hl hx]

/-- The change sets up to a block, backwards. -/
def changeSetsBack (rows : List (BlockRows β α)) (target : Nat) : List (Nat × ChangeSet) :=
  ((rows.filter fun r => r.number ≤ target).reverse).map fun r => (r.number, r.changeSet)

theorem DbTracks.walkBack (h : DbTracks db earliest base rows) {target : Nat}
    (htarget : ∃ r ∈ rows, r.number = target) :
    db.walkBack target = changeSetsBack rows target := by
  obtain ⟨r, hr, rfl⟩ := htarget
  have horder : db.changeSets.Pairwise fun a b => a.1 < b.1 := by
    rw [h.changeSets, List.pairwise_map]
    exact h.order
  have hmem : (r.number, r.changeSet) ∈ db.changeSets := by
    rw [h.changeSets]
    exact List.mem_map.mpr ⟨r, hr, rfl⟩
  have hfind : db.changeSets.find? (fun entry => r.number ≤ entry.1) =
      some (r.number, r.changeSet) := by
    have hsome : (db.changeSets.find? fun entry => r.number ≤ entry.1).isSome := by
      rw [List.find?_isSome]
      exact ⟨_, hmem, by simp⟩
    obtain ⟨start, hstart⟩ := Option.isSome_iff_exists.mp hsome
    obtain ⟨_, hge, hfirst⟩ := find_first horder hstart
    rcases hfirst _ hmem (by simp) with heq | hlt
    · rw [hstart, heq]
    · have hge : r.number ≤ start.1 := by simpa using hge
      exact absurd hlt (not_lt.mpr hge)
  rw [ProofsDb.walkBack, hfind, changeSetsBack, filter_le_eq_append BlockRows.number h.order hr,
    h.changeSets]
  simp [List.filter_map, Function.comp_def]

theorem DbTracks.pruneEarliestState (h : DbTracks db earliest base rows) {target : NumHash}
    (hlt : earliest.number < target.number) (htarget : ∃ r ∈ rows, r.number = target.number) :
    DbTracks (db.pruneEarliestState target) target (rawAt base rows target.number)
      (rows.filter fun r => target.number < r.number) ∧
      (db.pruneEarliestState target).latestBlock = db.latestBlock := by
  have habove := h.above
  have hrange : (db.walkBack target.number).takeWhile (fun entry => earliest.number < entry.1) =
      changeSetsBack rows target.number := by
    rw [h.walkBack htarget, List.takeWhile_eq_self_iff]
    intro entry hentry
    obtain ⟨r, hr, rfl⟩ := List.mem_map.mp hentry
    simpa using habove r (List.mem_filter.mp (List.mem_reverse.mp hr)).1
  -- each of the four plans lists the last changes of its table
  have hplan {κ ν : Type} (table : BlockRows β α → List (κ × Option ν))
      (changed : ChangeSet → List κ)
      (hchanged : ∀ r, changed (BlockRows.changeSet r) = keys (table r)) :
      (changeSetsBack rows target.number).map (fun entry => (entry.1, changed entry.2)) =
      (((changesOf table rows).filter fun u => u.1 ≤ target.number).reverse).map
        fun u => (u.1, keys u.2) := by
    simp [changeSetsBack, changesOf, List.filter_map, Function.comp_def, hchanged]
  have hpruned {κ ν : Type} [LinearOrder κ] (table : BlockRows β α → List (κ × Option ν))
      (changed : ChangeSet → List κ) (hchanged : ∀ r, changed (BlockRows.changeSet r) = keys (table r))
      {history : HistoryTable κ ν} {state : κ → Option ν}
      (htracks : Tracks history earliest.number state (changesOf table rows)) :
      Tracks (ProofsDb.pruneHistoryPreceding history (ProofsDb.survivors
        ((changeSetsBack rows target.number).map fun entry => (entry.1, changed entry.2))))
        target.number (stateAt state (changesOf table rows) target.number)
        (changesOf table (rows.filter fun r => target.number < r.number)) := by
    rw [changesOf_filter table rows (target.number < ·), hplan table changed hchanged]
    refine htracks.prune hlt ?_
    intro r
    rw [mem_pruneHistoryPreceding]
    refine and_congr_right fun _ => ?_
    constructor
    · intro hall survivor hlast hgone
      exact hall (r.key, survivor) ((mem_survivors htracks.order).mpr hlast) ⟨rfl, hgone⟩
    · rintro hall ⟨key, survivor⟩ hmem ⟨rfl, hgone⟩
      exact hall survivor ((mem_survivors htracks.order).mp hmem) hgone
  rw [ProofsDb.pruneEarliestState, ProofsDb.calculatePrunePlan, h.earliestBlock]
  simp only [not_le.mpr hlt, if_false, hrange]
  refine ⟨⟨hpruned _ _ (fun _ => rfl) h.accountTrie, hpruned _ _ (fun _ => rfl) h.storageTrie,
    hpruned _ _ (fun _ => rfl) h.hashedAccount, hpruned _ _ (fun _ => rfl) h.hashedStorage, ?_,
    rfl⟩, trivial⟩
  change db.changeSets.filter _ = _
  rw [h.changeSets, List.filter_map]
  congr 1
  refine List.filter_congr fun r hr => ?_
  have := habove r hr
  simp only [Function.comp_apply, decide_eq_decide]
  omega

end Prune

section Unwind

variable {β α : Type} {db : ProofsDb β α} {earliest : NumHash} {base : RawState β α}
  {rows : List (BlockRows β α)}

theorem DbTracks.deleteHistoryFrom (h : DbTracks db earliest base rows)
    (hfirst : earliest.number < first) :
    DbTracks (db.deleteHistoryFrom first) earliest base
      (rows.filter fun r => ¬first ≤ r.number) := by
  have hdeleted {κ ν : Type} [LinearOrder κ] (table : BlockRows β α → List (κ × Option ν))
      (changed : ChangeSet → List κ) (hchanged : ∀ r, changed (BlockRows.changeSet r) = keys (table r))
      {history : HistoryTable κ ν} {state : κ → Option ν}
      (htracks : Tracks history earliest.number state (changesOf table rows)) :
      Tracks (ProofsDb.deleteDupSorted history (ProofsDb.historyItems
        (db.changeSets.filter fun entry => first ≤ entry.1) changed))
        earliest.number state (changesOf table (rows.filter fun r => ¬first ≤ r.number)) := by
    rw [changesOf_filter table rows fun n => ¬first ≤ n]
    refine htracks.unwind hfirst fun r => ?_
    rw [mem_deleteDupSorted]
    refine and_congr_right fun _ => not_congr ?_
    simp only [ProofsDb.historyItems, h.changeSets, List.mem_flatMap, List.mem_filter, List.mem_map,
      Changed, changesOf, decide_eq_true_eq]
    constructor
    · rintro ⟨_, ⟨⟨x, hx, rfl⟩, hle⟩, key, hkey, heq⟩
      obtain ⟨rfl, hsub⟩ := Prod.mk.inj heq
      obtain ⟨⟨_, value⟩, hvalue, hkey⟩ := List.mem_map.mp (hchanged x ▸ hkey)
      exact ⟨hsub ▸ hle, value, _, ⟨x, hx, rfl⟩, hsub, hkey ▸ hvalue⟩
    · rintro ⟨hle, value, _, ⟨x, hx, rfl⟩, hsub, hvalue⟩
      exact ⟨_, ⟨⟨x, hx, rfl⟩, hsub ▸ hle⟩, r.key,
        (hchanged x).symm ▸ mem_keys_of_mem hvalue, Prod.ext rfl hsub⟩
  refine ⟨hdeleted _ _ (fun _ => rfl) h.accountTrie, hdeleted _ _ (fun _ => rfl) h.storageTrie,
    hdeleted _ _ (fun _ => rfl) h.hashedAccount, hdeleted _ _ (fun _ => rfl) h.hashedStorage, ?_,
    h.earliestBlock⟩
  change db.changeSets.filter _ = _
  rw [h.changeSets, List.filter_map]
  rfl

end Unwind
end SciChain.History
