import SciChain.Library.Word
import Mathlib.Order.Defs.LinearOrder
import Mathlib.Data.List.Pairwise

namespace SciChain.Library

/-! A table of a key-value store that keeps several rows for a key, one for each subkey, in
the order of keys and subkeys, and the moves of a cursor on it. -/

structure Row (κ σ ν : Type) where
  key : κ
  subkey : σ
  value : ν
  deriving DecidableEq, Repr

section FirstAndLast

variable {α : Type} {R : α → α → Prop} {p : α → Bool} {l : List α} {a : α}

theorem find_first (hl : l.Pairwise R) (h : l.find? p = some a) :
    a ∈ l ∧ p a = true ∧ ∀ b ∈ l, p b = true → b = a ∨ R a b := by
  obtain ⟨hpa, before, after, rfl, hbefore⟩ := List.find?_eq_some_iff_append.mp h
  refine ⟨by simp, hpa, ?_⟩
  intro b hb hpb
  rcases List.mem_append.mp hb with hb | hb
  · exact absurd hpb (by simpa using hbefore b hb)
  · rcases List.mem_cons.mp hb with rfl | hb
    · exact Or.inl rfl
    · exact Or.inr ((List.pairwise_cons.mp (List.pairwise_append.mp hl).2.1).1 b hb)

theorem pairwise_mem (hl : l.Pairwise R) (ha : a ∈ l) (hb : b ∈ l) :
    a = b ∨ R a b ∨ R b a := by
  by_cases hab : a = b
  · exact Or.inl hab
  · have hsymm : l.Pairwise fun x y => R x y ∨ R y x := hl.imp Or.inl
    have : Std.Symm fun x y => R x y ∨ R y x := ⟨fun _ _ => Or.symm⟩
    exact Or.inr (hsymm.forall ha hb hab)

theorem getLast_filter (hl : l.Pairwise R) (h : (l.filter p).getLast? = some a) :
    a ∈ l ∧ p a = true ∧ ∀ b ∈ l, p b = true → b = a ∨ R b a := by
  obtain ⟨front, hfront⟩ := List.getLast?_eq_some_iff.mp h
  have hmem : a ∈ l.filter p := by simp [hfront]
  obtain ⟨ha, hpa⟩ := List.mem_filter.mp hmem
  refine ⟨ha, hpa, ?_⟩
  intro b hb hpb
  have hbmem : b ∈ l.filter p := List.mem_filter.mpr ⟨hb, hpb⟩
  have hpair : (front ++ [a]).Pairwise R := hfront ▸ hl.filter p
  rw [hfront, List.mem_append, List.mem_singleton] at hbmem
  rcases hbmem with hbf | rfl
  · exact Or.inr ((List.pairwise_append.mp hpair).2.2 b hbf a (List.mem_singleton_self a))
  · exact Or.inl rfl

theorem getLast_filter_eq_none_iff : (l.filter p).getLast? = none ↔ ∀ b ∈ l, ¬p b = true := by
  rw [List.getLast?_eq_none_iff, List.filter_eq_nil_iff]

theorem length_filter_lt {q : α → Bool} (hpq : ∀ x, p x = true → q x = true) (ha : a ∈ l)
    (hqa : q a = true) (hpa : p a = false) : (l.filter p).length < (l.filter q).length := by
  have hsub : l.filter p = (l.filter q).filter p := by
    rw [List.filter_filter]
    refine List.filter_congr fun x _ => ?_
    cases hp : p x with
    | true => simp [hpq x hp]
    | false => simp
  rw [hsub]
  exact List.length_filter_lt_length_iff_exists.mpr
    ⟨a, List.mem_filter.mpr ⟨ha, hqa⟩, by simp [hpa]⟩

end FirstAndLast

variable {κ σ ν : Type} [LinearOrder κ] [LinearOrder σ]

/-- The order of the rows. -/
def Row.Before (r s : Row κ σ ν) : Prop := r.key < s.key ∨ r.key = s.key ∧ r.subkey < s.subkey

instance (r s : Row κ σ ν) : Decidable (r.Before s) :=
  inferInstanceAs (Decidable (_ ∨ _ ∧ _))

theorem Row.Before.trans {a b c : Row κ σ ν} (hab : a.Before b) (hbc : b.Before c) :
    a.Before c := by
  rcases hab with hab | ⟨hab, hab'⟩
  · rcases hbc with hbc | ⟨hbc, _⟩
    · exact Or.inl (hab.trans hbc)
    · exact Or.inl (hbc ▸ hab)
  · rcases hbc with hbc | ⟨hbc, hbc'⟩
    · exact Or.inl (hab ▸ hbc)
    · exact Or.inr ⟨hab.trans hbc, hab'.trans hbc'⟩

theorem Row.Before.key_le {a b : Row κ σ ν} (h : a.Before b) : a.key ≤ b.key := by
  rcases h with h | ⟨h, _⟩
  · exact h.le
  · exact h.le

theorem Row.Before.subkey_lt {a b : Row κ σ ν} (h : a.Before b) (hkey : a.key = b.key) :
    a.subkey < b.subkey := by
  rcases h with h | ⟨_, h⟩
  · exact absurd hkey h.ne
  · exact h

theorem Row.before_or_before {a b : Row κ σ ν} (h : ¬(a.key = b.key ∧ a.subkey = b.subkey))
    (hab : ¬a.Before b) : b.Before a := by
  rcases lt_trichotomy a.key b.key with hk | hk | hk
  · exact absurd (Or.inl hk) hab
  · rcases lt_trichotomy a.subkey b.subkey with hs | hs | hs
    · exact absurd (Or.inr ⟨hk, hs⟩) hab
    · exact absurd ⟨hk, hs⟩ h
    · exact Or.inr ⟨hk.symm, hs⟩
  · exact Or.inl hk

structure DupTable (κ σ ν : Type) [LinearOrder κ] [LinearOrder σ] where
  rows : List (Row κ σ ν)
  sorted : rows.Pairwise Row.Before

namespace DupTable

variable (t : DupTable κ σ ν)

def empty : DupTable κ σ ν := ⟨[], List.Pairwise.nil⟩

section Moves

/-- The first row of the first key that is not below `k`. -/
def seek (k : κ) : Option (Row κ σ ν) := t.rows.find? fun r => k ≤ r.key

/-- The first row of the key. -/
def seekExact (k : κ) : Option (Row κ σ ν) := t.rows.find? fun r => r.key = k

/-- The first row of the key whose subkey is not below `s`. -/
def seekByKeySubkey (k : κ) (s : σ) : Option (Row κ σ ν) :=
  t.rows.find? fun r => r.key = k ∧ s ≤ r.subkey

/-- The row of the same key before the row. -/
def prevDup (r : Row κ σ ν) : Option (Row κ σ ν) :=
  (t.rows.filter fun x => x.key = r.key ∧ x.subkey < r.subkey).getLast?

/-- The last row of the key of the row. -/
def lastDup (r : Row κ σ ν) : Option (Row κ σ ν) :=
  (t.rows.filter fun x => x.key = r.key).getLast?

/-- The first row of the next key. -/
def nextNoDup (r : Row κ σ ν) : Option (Row κ σ ν) := t.rows.find? fun x => r.key < x.key

end Moves

/-- The first row whose key satisfies `p` has the first such key. -/
theorem find_key {p : κ → Prop} [DecidablePred p] (h : t.rows.find? (fun r => p r.key) = some r) :
    r ∈ t.rows ∧ p r.key ∧ ∀ x ∈ t.rows, p x.key → r.key ≤ x.key := by
  obtain ⟨hmem, hp, hfirst⟩ := find_first t.sorted h
  simp only [decide_eq_true_eq] at hp hfirst
  refine ⟨hmem, hp, fun x hx hpx => ?_⟩
  rcases hfirst x hx hpx with rfl | hbefore
  · exact le_refl _
  · exact hbefore.key_le

section Changes

/-- A row in its place. -/
def insertRow (x : Row κ σ ν) : List (Row κ σ ν) → List (Row κ σ ν)
  | [] => [x]
  | r :: rest => if x.Before r then x :: r :: rest else r :: insertRow x rest

theorem mem_insertRow {x r : Row κ σ ν} {rows : List (Row κ σ ν)} :
    r ∈ insertRow x rows ↔ r = x ∨ r ∈ rows := by
  induction rows with
  | nil => simp [insertRow]
  | cons y rows ih =>
    simp only [insertRow]
    split
    · simp
    · rw [List.mem_cons, ih, List.mem_cons]
      exact or_left_comm

theorem pairwise_insertRow {x : Row κ σ ν} {rows : List (Row κ σ ν)}
    (hrows : rows.Pairwise Row.Before)
    (hnew : ∀ r ∈ rows, ¬(x.key = r.key ∧ x.subkey = r.subkey)) :
    (insertRow x rows).Pairwise Row.Before := by
  induction rows with
  | nil => simp [insertRow]
  | cons y rows ih =>
    obtain ⟨hy, hrows⟩ := List.pairwise_cons.mp hrows
    simp only [insertRow]
    split
    · rename_i hxy
      refine List.pairwise_cons.mpr ⟨?_, List.pairwise_cons.mpr ⟨hy, hrows⟩⟩
      intro r hr
      rcases List.mem_cons.mp hr with rfl | hr
      · exact hxy
      · exact hxy.trans (hy r hr)
    · rename_i hxy
      refine List.pairwise_cons.mpr
        ⟨?_, ih hrows fun r hr => hnew r (List.mem_cons_of_mem _ hr)⟩
      intro r hr
      rcases mem_insertRow.mp hr with rfl | hr
      · exact Row.before_or_before (hnew y List.mem_cons_self) hxy
      · exact hy r hr

/-- No row of the key has a subkey that is not below `s`. -/
def Behind (k : κ) (s : σ) : Prop := ∀ r ∈ t.rows, r.key = k → r.subkey < s

instance (k : κ) (s : σ) : Decidable (t.Behind k s) :=
  inferInstanceAs (Decidable (∀ r ∈ t.rows, _))

/-- A row behind all rows of its key; an error when there is one at or after it. -/
def appendDup (k : κ) (s : σ) (v : ν) : Option (DupTable κ σ ν) :=
  if h : t.Behind k s then
    some ⟨insertRow ⟨k, s, v⟩ t.rows, pairwise_insertRow t.sorted (by
      rintro r hr ⟨hk, hs⟩
      exact absurd hs (h r hr hk.symm).ne')⟩
  else none

theorem appendDup_of_behind {k : κ} (h : t.Behind k s) (v : ν) :
    ∃ t', t.appendDup k s v = some t' ∧ ∀ r, r ∈ t'.rows ↔ r = ⟨k, s, v⟩ ∨ r ∈ t.rows := by
  rw [appendDup, dif_pos h]
  exact ⟨_, rfl, fun r => mem_insertRow⟩

/-- The table without some of its rows. -/
def remove (p : Row κ σ ν → Bool) : DupTable κ σ ν :=
  ⟨t.rows.filter fun r => !p r, t.sorted.filter _⟩

theorem mem_remove :
    r ∈ (t.remove p).rows ↔ r ∈ t.rows ∧ p r = false := by
  simp [remove]

end Changes

section Versions

theorem eq_of_mem {r s : Row κ σ ν} (hr : r ∈ t.rows) (hs : s ∈ t.rows) (hkey : r.key = s.key)
    (hsub : r.subkey = s.subkey) : r = s := by
  rcases pairwise_mem t.sorted hr hs with h | h | h
  · exact h
  · exact absurd hsub (h.subkey_lt hkey).ne
  · exact absurd hsub (h.subkey_lt hkey.symm).ne'

theorem seekByKeySubkey_eq_some_iff {s : σ} :
    t.seekByKeySubkey k s = some r ↔ r ∈ t.rows ∧ r.key = k ∧ s ≤ r.subkey ∧
      ∀ x ∈ t.rows, x.key = k → s ≤ x.subkey → r.subkey ≤ x.subkey := by
  have hfirst {r : Row κ σ ν} (h : t.seekByKeySubkey k s = some r) : r ∈ t.rows ∧ r.key = k ∧
      s ≤ r.subkey ∧ ∀ x ∈ t.rows, x.key = k → s ≤ x.subkey → r.subkey ≤ x.subkey := by
    obtain ⟨hmem, hp, hfirst⟩ := find_first t.sorted h
    simp only [decide_eq_true_eq] at hp hfirst
    refine ⟨hmem, hp.1, hp.2, fun x hx hkey hle => ?_⟩
    rcases hfirst x hx ⟨hkey, hle⟩ with rfl | hbefore
    · exact le_refl _
    · exact (hbefore.subkey_lt (hp.1.trans hkey.symm)).le
  refine ⟨hfirst, ?_⟩
  rintro ⟨hmem, hkey, hle, hmin⟩
  obtain ⟨x, hx⟩ := Option.isSome_iff_exists.mp
    ((List.find?_isSome (p := fun r => r.key = k ∧ s ≤ r.subkey)).mpr
      ⟨r, hmem, decide_eq_true ⟨hkey, hle⟩⟩)
  obtain ⟨hxmem, hxkey, hxle, hxmin⟩ := hfirst hx
  obtain rfl := t.eq_of_mem hxmem hmem (hxkey.trans hkey.symm)
    (le_antisymm (hxmin r hmem hkey hle) (hmin x hxmem hxkey hxle))
  exact hx

/-- The row of the key with the last subkey up to `s`. -/
def latestAt (s : σ) (k : κ) : Option (Row κ σ ν) :=
  (t.rows.filter fun r => r.key = k ∧ r.subkey ≤ s).getLast?

variable {t} {s : σ} {k : κ} {r : Row κ σ ν}

theorem latestAt_eq_none_iff : t.latestAt s k = none ↔ ∀ r ∈ t.rows, r.key = k → s < r.subkey := by
  rw [latestAt, getLast_filter_eq_none_iff]
  simp

theorem latestAt_eq_some_iff :
    t.latestAt s k = some r ↔ r ∈ t.rows ∧ r.key = k ∧ r.subkey ≤ s ∧
      ∀ x ∈ t.rows, x.key = k → x.subkey ≤ s → x.subkey ≤ r.subkey := by
  constructor
  · intro h
    obtain ⟨hmem, hp, hlast⟩ := getLast_filter t.sorted h
    simp only [decide_eq_true_eq] at hp hlast
    refine ⟨hmem, hp.1, hp.2, ?_⟩
    intro x hx hkey hle
    rcases hlast x hx ⟨hkey, hle⟩ with rfl | hbefore
    · exact le_refl _
    · exact (hbefore.subkey_lt (hkey.trans hp.1.symm)).le
  · rintro ⟨hmem, hkey, hle, hlast⟩
    cases hlatest : t.latestAt s k with
    | none => exact absurd (latestAt_eq_none_iff.mp hlatest r hmem hkey) (not_lt.mpr hle)
    | some x =>
      obtain ⟨hx, hp, hxlast⟩ := getLast_filter t.sorted hlatest
      simp only [decide_eq_true_eq] at hp hxlast
      rcases hxlast r hmem ⟨hkey, hle⟩ with rfl | hbefore
      · rfl
      · have hlt := hbefore.subkey_lt (hkey.trans hp.1.symm)
        exact absurd (hlast x hx hp.1 hp.2) (not_le.mpr hlt)

end Versions
end DupTable
end SciChain.Library
