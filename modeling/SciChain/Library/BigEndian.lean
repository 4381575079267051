import SciChain.Library.Word
import Mathlib.Data.List.DropRight

namespace SciChain

/-- Big-endian value of a byte string. -/
def beValue (bytes : List UInt8) : Nat := bytes.foldl (fun acc b => acc * 256 + b.toNat) 0

/-- `to_be_bytes` of a word of `width` bytes. -/
def beBytes : Nat → Nat → List UInt8
  | 0, _ => []
  | width + 1, value => beBytes width (value / 256) ++ [UInt8.ofNat (value % 256)]

/-- The word of `w` bits in the bytes from `lo` to `hi`. -/
def wordAt (w : Nat) (bytes : List UInt8) (lo hi : Nat) : BitVec w :=
  BitVec.ofNat w (beValue ((bytes.drop lo).take (hi - lo)))

@[simp] theorem beValue_nil : beValue [] = 0 := rfl

theorem beValue_concat (bytes : List UInt8) (b : UInt8) :
    beValue (bytes ++ [b]) = beValue bytes * 256 + b.toNat := by
  simp [beValue]

@[simp] theorem beValue_zero_cons (bytes : List UInt8) : beValue (0 :: bytes) = beValue bytes := rfl

@[simp] theorem length_beBytes (width value : Nat) : (beBytes width value).length = width := by
  induction width generalizing value with
  | zero => rfl
  | succ width ih => simp [beBytes, ih]

theorem beValue_beBytes (h : value < 256 ^ width) :
    beValue (beBytes width value) = value := by
  induction width generalizing value with
  | zero =>
    rw [Nat.pow_zero] at h
    simp [beBytes]
    omega
  | succ width ih =>
    have hq : value / 256 < 256 ^ width := by
      rw [Nat.pow_succ] at h
      exact Nat.div_lt_of_lt_mul (by omega)
    rw [beBytes, beValue_concat, ih hq, UInt8.toNat_ofNat']
    omega

theorem drop_beBytes (k m value : Nat) : (beBytes (k + m) value).drop k = beBytes m value := by
  induction m generalizing value with
  | zero => exact List.drop_of_length_le (by simp)
  | succ m ih =>
    rw [← Nat.add_assoc, beBytes, List.drop_append_of_le_length (by simp), ih]
    rfl

theorem beBytes_beValue (bytes : List UInt8) : beBytes bytes.length (beValue bytes) = bytes := by
  induction bytes using List.reverseRecOn with
  | nil => rfl
  | append_singleton bytes b ih =>
    have hb := b.toNat_lt
    have hdiv : (beValue bytes * 256 + b.toNat) / 256 = beValue bytes := by omega
    have hmod : (beValue bytes * 256 + b.toNat) % 256 = b.toNat := by omega
    rw [List.length_append, List.length_singleton, beBytes, beValue_concat, hdiv, hmod, ih,
      UInt8.ofNat_toNat]

theorem beValue_lt (bytes : List UInt8) : beValue bytes < 256 ^ bytes.length := by
  induction bytes using List.reverseRecOn with
  | nil => simp
  | append_singleton bytes b ih =>
    have hb := b.toNat_lt
    rw [beValue_concat, List.length_append, List.length_singleton, Nat.pow_succ]
    omega

@[simp] theorem wordAt_append (h : chunk.length ≤ lo) (rest : List UInt8) :
    wordAt w (chunk ++ rest) lo hi = wordAt w rest (lo - chunk.length) (hi - chunk.length) := by
  have hlen : hi - chunk.length - (lo - chunk.length) = hi - lo := by omega
  rw [wordAt, wordAt, List.drop_append, List.drop_of_length_le h, List.nil_append, hlen]

@[simp] theorem wordAt_cons (h : 1 ≤ lo) (b : UInt8) (rest : List UInt8) :
    wordAt w (b :: rest) lo hi = wordAt w rest (lo - 1) (hi - 1) :=
  wordAt_append (show [b].length ≤ lo from h) rest

@[simp] theorem wordAt_beBytes_append (hlo : lo ≤ n) (hw : w = 8 * (n - lo)) (v : BitVec w)
    (rest : List UInt8) : wordAt w (beBytes n v.toNat ++ rest) lo n = v := by
  obtain ⟨m, rfl⟩ := Nat.exists_eq_add_of_le hlo
  have hm : lo + m - lo = m := by omega
  rw [hm] at hw
  subst hw
  have hlt : v.toNat < 256 ^ m := by
    have hv := v.isLt
    rwa [Nat.pow_mul] at hv
  rw [wordAt, List.drop_append_of_le_length (by simp), drop_beBytes, hm,
    List.take_append_of_le_length (by simp), List.take_of_length_le (by simp),
    beValue_beBytes hlt, BitVec.ofNat_toNat, BitVec.setWidth_eq]

@[simp] theorem wordAt_beBytes (hlo : lo ≤ n) (hw : w = 8 * (n - lo)) (v : BitVec w) :
    wordAt w (beBytes n v.toNat) lo n = v := by
  rw [← List.append_nil (beBytes n v.toNat), wordAt_beBytes_append hlo hw]

end SciChain
