import SciChain.Primitives

namespace SciChain
open Library

/-- The `FastLZ` length estimate that prices the L1 data of a transaction. The
counters are natural numbers; a position outside the input reads as zero. -/
def u24 (input : Bytes) (idx : Nat) : Nat :=
  (input.getD idx 0).toNat + (input.getD (idx + 1) 0).toNat * 2 ^ 8 +
    (input.getD (idx + 2) 0).toNat * 2 ^ 16

def flzHash (v : Nat) : Nat := v * 2654435769 / 2 ^ 19 % 2 ^ 13

def literals (r size : Nat) : Nat :=
  let size := size + 0x21 * (r / 0x20)
  let r := r % 0x20
  if r ≠ 0 then size + r + 1 else size

/-- Compares at most `n` bytes from `p` and `q` on; a differing byte is counted
and ends the count. -/
def cmpBytes (input : Bytes) (p q : Nat) : Nat → Nat
  | 0 => 0
  | n + 1 =>
    if input.getD p 0 = input.getD q 0 then cmpBytes input (p + 1) (q + 1) n + 1 else 1

def cmp (input : Bytes) (p q r : Nat) : Nat := cmpBytes input p q (r - q)

def flzMatch (l size : Nat) : Nat :=
  let l := l - 1
  let size := size + 3 * (l / 262)
  if 6 ≤ l % 262 then size + 3 else size + 2

def setNextHash (htab : Nat → Nat) (input : Bytes) (idx : Nat) : (Nat → Nat) × Nat :=
  (Function.update htab (flzHash (u24 input idx)) idx, idx + 1)

/-- The inner loop: the next position after one whose three bytes were seen
before, with the earlier position. The first argument is the fuel. -/
def flzFind (input : Bytes) (idxLimit : Nat) :
    Nat → (Nat → Nat) → Nat → Nat × Nat × (Nat → Nat)
  | fuel, htab, idx =>
    let seq := u24 input idx
    let r := htab (flzHash seq)
    let htab := Function.update htab (flzHash seq) idx
    if idxLimit ≤ idx then (idx, r, htab)
    else if idx - r < 8192 ∧ seq = u24 input r then (idx + 1, r, htab)
    else match fuel with
      | 0 => (idx + 1, r, htab)
      | fuel + 1 => flzFind input idxLimit fuel htab (idx + 1)

/-- The outer loop, with the start of the pending literals and the size so far. -/
def flzScan (input : Bytes) (idxLimit : Nat) :
    Nat → (Nat → Nat) → Nat → Nat → Nat → Nat × Nat
  | 0, _, _, anchor, size => (anchor, size)
  | fuel + 1, htab, idx, anchor, size =>
    if idxLimit ≤ idx then (anchor, size) else
    let (idx, r, htab) := flzFind input idxLimit (idxLimit - idx) htab idx
    if idxLimit ≤ idx then (anchor, size) else
    let idx := idx - 1
    let size := if anchor < idx then literals (idx - anchor) size else size
    let len := cmp input (r + 3) (idx + 3) (idxLimit + 9)
    let size := flzMatch len size
    let (htab, idx) := setNextHash htab input (idx + len)
    let (htab, idx) := setNextHash htab input idx
    flzScan input idxLimit fuel htab idx idx size

def flzCompressLen (input : Bytes) : Nat :=
  let idxLimit := input.length - 13
  let (anchor, size) := flzScan input idxLimit input.length (fun _ => 0) 2 0 0
  literals (input.length - anchor) size

def l1CostFastlzCoef : U64 := 836500
def l1CostIntercept : U64 := 42585600
def minTxSizeScaled : U64 := 100 * 1000000

/-- `tx_estimated_size_fjord`, scaled by a million. -/
def txEstimatedSizeFjord (input : Bytes) : U64 :=
  let fastlzSize : U64 := BitVec.ofNat 64 (flzCompressLen input)
  let size := satSub (satMul fastlzSize l1CostFastlzCoef) l1CostIntercept
  if size.toNat < minTxSizeScaled.toNat then minTxSizeScaled else size

end SciChain
