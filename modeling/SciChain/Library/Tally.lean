import SciChain.Library.Word

namespace SciChain.Library

variable {κ : Type} [DecidableEq κ] {w : Nat}

/-- The amounts booked on `k`, added up without a bound. -/
def amountOf (k : κ) : List (κ × BitVec w) → Nat
  | [] => 0
  | e :: rest => (if e.1 = k then e.2.toNat else 0) + amountOf k rest

/-- A map of saturating totals: `entry(k).or_insert(0)` and add. -/
def record (totals : List (κ × BitVec w)) (k : κ) (amount : BitVec w) : List (κ × BitVec w) :=
  match totals with
  | [] => [(k, satAdd 0 amount)]
  | e :: rest =>
    if e.1 = k then (k, satAdd e.2 amount) :: rest else e :: record rest k amount

def recordAll (totals : List (κ × BitVec w)) (es : List (κ × BitVec w)) : List (κ × BitVec w) :=
  es.foldl (fun totals e => record totals e.1 e.2) totals

/-- The total of a key, zero where it has no entry. -/
def totalOf (totals : List (κ × BitVec w)) (k : κ) : BitVec w :=
  match totals with
  | [] => 0
  | e :: rest => if e.1 = k then e.2 else totalOf rest k

@[simp] theorem amountOf_nil (k : κ) : amountOf k ([] : List (κ × BitVec w)) = 0 := rfl

@[simp] theorem amountOf_cons (k : κ) (e : κ × BitVec w) (es : List (κ × BitVec w)) :
    amountOf k (e :: es) = (if e.1 = k then e.2.toNat else 0) + amountOf k es := rfl

@[simp] theorem amountOf_append (k : κ) (es fs : List (κ × BitVec w)) :
    amountOf k (es ++ fs) = amountOf k es + amountOf k fs := by
  induction es with
  | nil => simp
  | cons e es ih =>
    rw [List.cons_append, amountOf_cons, amountOf_cons, ih]
    omega

theorem totalOf_record (totals : List (κ × BitVec w)) (k : κ) (amount : BitVec w) (j : κ) :
    totalOf (record totals k amount) j =
      if k = j then satAdd (totalOf totals k) amount else totalOf totals j := by
  induction totals with
  | nil => by_cases hj : k = j <;> simp [record, totalOf, hj]
  | cons e rest ih =>
    by_cases he : e.1 = k
    · by_cases hj : k = j <;> simp [record, totalOf, he, hj]
    · by_cases hj : k = j
      · subst hj
        simpa [record, totalOf, he] using ih
      · rw [if_neg hj] at ih
        simp only [record, if_neg he, totalOf, if_neg hj, ih]

/-- Saturating step by step is saturating the exact sum once. -/
theorem toNat_totalOf_recordAll (totals es : List (κ × BitVec w)) (k : κ) :
    (totalOf (recordAll totals es) k).toNat =
      min ((totalOf totals k).toNat + amountOf k es) (2 ^ w - 1) := by
  have hlt := (totalOf totals k).isLt
  induction es generalizing totals with
  | nil =>
    simp only [recordAll, List.foldl_nil, amountOf_nil]
    omega
  | cons e es ih =>
    have hstep := ih (record totals e.1 e.2) (totalOf _ k).isLt
    simp only [recordAll, List.foldl_cons] at hstep ⊢
    rw [hstep, totalOf_record, amountOf_cons]
    by_cases he : e.1 = k
    · rw [if_pos he, if_pos he, toNat_satAdd, he]
      omega
    · rw [if_neg he, if_neg he]
      omega

/-- A total that is not zero is the total of an entry. -/
theorem mem_of_totalOf_ne_zero {totals : List (κ × BitVec w)}
    (h : totalOf totals k ≠ 0) : (k, totalOf totals k) ∈ totals := by
  induction totals with
  | nil => simp [totalOf] at h
  | cons e rest ih =>
    by_cases he : e.1 = k
    · have hk : totalOf (e :: rest) k = e.2 := by simp [totalOf, he]
      rw [hk, ← he]
      exact List.mem_cons_self
    · have hk : totalOf (e :: rest) k = totalOf rest k := by simp [totalOf, he]
      rw [hk] at h ⊢
      exact List.mem_cons_of_mem _ (ih h)

end SciChain.Library
