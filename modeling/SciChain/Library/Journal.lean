import SciChain.Library.SortedMap

namespace SciChain.Library

/-! A journal of entries keyed by numbers, and a sorted map that answers as the journal does
which entry is the last one at or below a number. -/

variable {ν : Type} {m journal kept dropped : List (ℕ × ν)} {key n : ℕ} {v : ν}

/-- The last entry at or below a number. -/
def latest (journal : List (ℕ × ν)) (n : ℕ) : Option (ℕ × ν) :=
  (journal.filter (fun e => e.1 ≤ n)).getLast?

theorem latest_eq_some (h : latest journal n = some e) : e ∈ journal ∧ e.1 ≤ n := by
  have hmem := List.mem_of_getLast? h
  simpa using hmem

theorem latest_concat (journal : List (ℕ × ν)) (e : ℕ × ν) (n : ℕ) :
    latest (journal ++ [e]) n = if e.1 ≤ n then some e else latest journal n := by
  unfold latest
  rw [List.filter_append, List.filter_singleton]
  by_cases h : e.1 ≤ n <;> simp [h]

theorem latest_append_of_lt (journal : List (ℕ × ν)) (h : ∀ e ∈ dropped, n < e.1) :
    latest (journal ++ dropped) n = latest journal n := by
  have hnone : dropped.filter (fun e => decide (e.1 ≤ n)) = [] := by
    rw [List.filter_eq_nil_iff]
    intro e he
    simpa using h e he
  rw [latest, List.filter_append, hnone, List.append_nil, latest]

/-- The map is in order and has the answers of the journal. -/
structure Mirrors (m journal : List (ℕ × ν)) : Prop where
  sorted : (keys m).Pairwise (· < ·)
  answers : ∀ n, latest m n = latest journal n

theorem mirrors_nil : Mirrors ([] : List (ℕ × ν)) [] := ⟨List.Pairwise.nil, fun _ => rfl⟩

/-- An entry of a map in order is the last one at its own key. -/
theorem latest_of_mem (hsorted : (keys m).Pairwise (· < ·)) (h : (key, v) ∈ m) :
    latest m key = some (key, v) := by
  obtain ⟨before, after, rfl⟩ := List.append_of_mem h
  rw [keys, List.map_append, List.map_cons, List.pairwise_append, List.pairwise_cons] at hsorted
  have hafter : ∀ e ∈ after, key < e.1 := fun e he => hsorted.2.1.1 e.1 (List.mem_map_of_mem he)
  rw [← List.singleton_append, ← List.append_assoc, latest_append_of_lt _ hafter, latest_concat]
  simp

theorem Mirrors.mem (h : Mirrors m journal) (hmem : e ∈ m) : e ∈ journal := by
  have hlatest := latest_of_mem h.sorted hmem
  rw [h.answers] at hlatest
  exact (latest_eq_some hlatest).1

/-- Where only entries at or above a key follow one, the last entry at the key is that one or
one of them. -/
theorem latest_at_cut (kept : List (ℕ × ν)) (hdropped : ∀ e ∈ dropped, key ≤ e.1) :
    ∃ w, latest (kept ++ (key, v) :: dropped) key = some (key, w) ∧
      (w = v ∨ (key, w) ∈ dropped) := by
  induction dropped using List.reverseRecOn with
  | nil => exact ⟨v, by rw [latest_concat, if_pos (Nat.le_refl key)], .inl rfl⟩
  | append_singleton dropped e ih =>
    rw [← List.cons_append, ← List.append_assoc, latest_concat]
    have hle := hdropped e (by simp)
    by_cases hlast : e.1 ≤ key
    · obtain ⟨k, w⟩ := e
      obtain rfl : k = key := Nat.le_antisymm hlast hle
      exact ⟨w, by rw [if_pos hlast], .inr (by simp)⟩
    · obtain ⟨w, hw, horigin⟩ := ih (fun x hx => hdropped x (List.mem_append_left _ hx))
      exact ⟨w, by rw [if_neg hlast, hw], horigin.imp_right (List.mem_append_left _)⟩

theorem filter_insertKey_of_lt (hlt : n < key) (v : ν) (m : List (ℕ × ν)) :
    (insertKey key v m).filter (fun e => decide (e.1 ≤ n)) =
      m.filter (fun e => decide (e.1 ≤ n)) := by
  have hnot : ¬key ≤ n := Nat.not_le.mpr hlt
  induction m with
  | nil => simp [insertKey, hnot]
  | cons e rest ih =>
    simp only [insertKey]
    split
    · simp [hnot]
    · split
      · rename_i heq
        simp [hnot, ← heq]
      · simp only [List.filter_cons, ih]

/-- What is inserted above all other keys is the last entry. -/
theorem latest_insertKey (hsorted : (keys m).Pairwise (· < ·)) (hle : ∀ e ∈ m, e.1 ≤ key) (v : ν)
    (n : ℕ) : latest (insertKey key v m) n = if key ≤ n then some (key, v) else latest m n := by
  by_cases hn : key ≤ n
  · have hmem : (key, v) ∈ insertKey key v m := by
      have hnodup : (keys (insertKey key v m)).Nodup := (sorted_insertKey hsorted).imp Nat.ne_of_lt
      rw [← lookup_eq_some_iff_mem hnodup, lookup_insertKey]
      simp
    have hkeys : ∀ e ∈ insertKey key v m, e.1 ≤ key := by
      intro e he
      rcases mem_keys_insertKey.mp (mem_keys_of_mem he) with heq | hold
      · exact Nat.le_of_eq heq
      · obtain ⟨e', he', heq⟩ := List.mem_map.mp hold
        exact heq ▸ hle e' he'
    have hall (k : ℕ) (hk : key ≤ k) : (insertKey key v m).filter (fun e => decide (e.1 ≤ k)) =
        insertKey key v m := by
      rw [List.filter_eq_self]
      intro e he
      simpa using (hkeys e he).trans hk
    have hlatest := latest_of_mem (sorted_insertKey hsorted) hmem
    rw [latest, hall key (Nat.le_refl key)] at hlatest
    rw [if_pos hn, latest, hall n hn, hlatest]
  · rw [if_neg hn, latest, filter_insertKey_of_lt (Nat.lt_of_not_le hn), latest]

/-- An entry at or above all others goes to the end of the journal. -/
theorem Mirrors.insert (h : Mirrors m journal) (hle : ∀ e ∈ journal, e.1 ≤ key)
    (hkept : ∀ n, n < key → latest kept n = latest journal n) (v : ν) :
    Mirrors (insertKey key v m) (kept ++ [(key, v)]) := by
  refine ⟨sorted_insertKey h.sorted, fun n => ?_⟩
  rw [latest_insertKey h.sorted (fun e he => hle e (h.mem he)), latest_concat]
  by_cases hn : key ≤ n
  · rw [if_pos hn, if_pos hn]
  · rw [if_neg hn, if_neg hn, h.answers, hkept n (Nat.lt_of_not_le hn)]

/-- The journal is cut back to an entry, and the map below its key. -/
theorem Mirrors.cut (h : Mirrors m (kept ++ (key, v) :: dropped))
    (hdropped : ∀ e ∈ dropped, key ≤ e.1) :
    Mirrors (insertKey key v (m.filter (fun e => e.1 < key))) (kept ++ [(key, v)]) := by
  have hsorted : (keys (m.filter (fun e => decide (e.1 < key)))).Pairwise (· < ·) :=
    h.sorted.sublist (List.filter_sublist.map Prod.fst)
  refine ⟨sorted_insertKey hsorted, fun n => ?_⟩
  have hbelow : ∀ e ∈ m.filter (fun e => decide (e.1 < key)), e.1 ≤ key := by
    intro e he
    have hlt := (List.mem_filter.mp he).2
    exact Nat.le_of_lt (by simpa using hlt)
  rw [latest_insertKey hsorted hbelow, latest_concat]
  by_cases hn : key ≤ n
  · rw [if_pos hn, if_pos hn]
  · rw [if_neg hn, if_neg hn]
    have hlt : n < key := Nat.lt_of_not_le hn
    have hsame : latest (m.filter (fun e => decide (e.1 < key))) n = latest m n := by
      unfold latest
      rw [List.filter_filter]
      congr 1
      apply List.filter_congr
      intro e _
      by_cases he : e.1 ≤ n
      · simp [he, Nat.lt_of_le_of_lt he hlt]
      · simp [he]
    rw [hsame, h.answers, latest_append_of_lt]
    intro e he
    rcases List.mem_cons.mp he with rfl | he
    · exact hlt
    · exact Nat.lt_of_lt_of_le hlt (hdropped e he)

/-- Of a map in order the entries from a key on begin with that of the key. -/
theorem filter_from_of_mem (hsorted : (keys m).Pairwise (· < ·)) (h : (key, v) ∈ m) :
    ∃ rest, m.filter (fun e => decide (key ≤ e.1)) = (key, v) :: rest := by
  obtain ⟨before, after, rfl⟩ := List.append_of_mem h
  rw [keys, List.map_append, List.map_cons, List.pairwise_append, List.pairwise_cons] at hsorted
  have hbefore : before.filter (fun e => decide (key ≤ e.1)) = [] := by
    rw [List.filter_eq_nil_iff]
    intro e he
    have hlt := hsorted.2.2 e.1 (List.mem_map_of_mem he) key List.mem_cons_self
    simpa using hlt
  refine ⟨after.filter (fun e => decide (key ≤ e.1)), ?_⟩
  rw [List.filter_append, hbefore, List.nil_append, List.filter_cons_of_pos (by simp)]

end SciChain.Library
