import SciChain.Batcher.Compressor

namespace SciChain.Batcher
open Library

/-- The libraries turn every input into some output. -/
def Libraries.Working (lib : Libraries) : Prop :=
  (∀ level data, ∃ out, lib.brotli level data = some out ∧ out ≠ []) ∧ ∀ data, lib.zlib data ≠ []

/-- No output is longer than its input by more than the overhead. -/
def Libraries.Expanding (lib : Libraries) (overhead : Nat) : Prop :=
  (∀ level data out, lib.brotli level data = some out → out.length ≤ data.length + overhead) ∧
    ∀ data, (lib.zlib data).length ≤ data.length + overhead

/-- The size of data that are compressed as one. -/
def Libraries.size (lib : Libraries) : CompressionAlgo → Bytes → Nat
  | .brotli level, data => ((lib.brotli level data).getD []).length
  | .zlib, data => (lib.zlib data).length

theorem Libraries.Working.size_pos {lib : Libraries} (hlib : lib.Working) (algo : CompressionAlgo)
    (data : Bytes) : 0 < lib.size algo data := by
  cases algo with
  | brotli level =>
    obtain ⟨out, hout, hne⟩ := hlib.1 level data
    rw [size, hout]
    exact List.length_pos_of_ne_nil hne
  | zlib => exact List.length_pos_of_ne_nil (hlib.2 data)

namespace VariantCompressor

/-- A compressor that got these data. -/
def filled : CompressionAlgo → List Bytes → VariantCompressor
  | .brotli level, written => .brotli ⟨[], written.flatten, false, !written.isEmpty, level⟩
  | .zlib, written => .zlib ⟨written.flatten, [], !written.isEmpty⟩

theorem write_filled (algo : CompressionAlgo) (written : List Bytes) (data : Bytes) :
    (filled algo written).write data = .ok (filled algo (written ++ [data])) := by
  cases algo with
  | brotli level => simp [filled, write, BrotliCompressor.write, Except.map]
  | zlib => simp [filled, write, ZlibCompressor.write]

theorem len_filled (lib : Libraries) (algo : CompressionAlgo) (h : written ≠ []) :
    (filled algo written).len lib = lib.size algo written.flatten := by
  have hdirty : (!written.isEmpty) = true := by simpa using h
  cases algo with
  | brotli level =>
    cases hout : lib.brotli level written.flatten <;>
      simp [filled, len, getCompressed, BrotliCompressor.getCompressed,
        BrotliCompressor.ensureCompressed, Libraries.size, hdirty, hout]
  | zlib =>
    simp [filled, len, getCompressed, ZlibCompressor.ensureCompressed, Libraries.size, hdirty]

end VariantCompressor

namespace ShadowCompressor
open VariantCompressor

variable {lib : Libraries} {target : Nat} {algo : CompressionAlgo}

/-- The bound after these writes. Only a write longer than the target is measured; after any other
one the bound is its own length, whatever was written before. -/
def BoundAfter (lib : Libraries) (target : Nat) (accepted : List Bytes) (s : ShadowCompressor) :
    Prop :=
  match accepted.getLast? with
  | none => s.bound = safeCompressionOverhead
  | some last =>
    if last.length ≤ target then s.bound = last.length
    else s.bound = s.len lib + closeOverheadZlib ∧ (1 < accepted.length → s.bound ≤ target)

/-- Where the compressors stand after writes of which these were accepted. -/
structure Stands (lib : Libraries) (target : Nat) (algo : CompressionAlgo) (accepted : List Bytes)
    (s : ShadowCompressor) : Prop where
  aimed : s.targetOutputSize = target
  compressor : s.compressor = filled algo accepted
  shadow : s.isFull = false → s.shadow = filled algo accepted
  bound : BoundAfter lib target accepted s

theorem stands_ofConfig (lib : Libraries) (target : Nat) (algo : CompressionAlgo) :
    Stands lib target algo [] (ofConfig target algo) := by
  refine ⟨rfl, ?_, fun _ => ?_, rfl⟩
  · cases algo <;> rfl
  · cases algo <;> rfl

theorem compress_stands {s : ShadowCompressor} (htarget : s.targetOutputSize = target)
    (hcompressor : s.compressor = filled algo accepted)
    (hshadow : s.shadow = filled algo (accepted ++ [data]))
    (hbound : if data.length ≤ target then newbound = data.length
      else newbound = (filled algo (accepted ++ [data])).len lib + closeOverheadZlib ∧
        (accepted ≠ [] → newbound ≤ target)) :
    (s.compress newbound data).1 = .ok data.length ∧
      Stands lib target algo (accepted ++ [data]) (s.compress newbound data).2 := by
  rw [compress, hcompressor, write_filled]
  refine ⟨rfl, htarget, rfl, fun _ => hshadow, ?_⟩
  rw [BoundAfter, List.getLast?_concat]
  dsimp only
  split at hbound
  · rename_i hle
    rw [if_pos hle]
    exact hbound
  · rename_i hlt
    rw [if_neg hlt]
    refine ⟨hbound.1, fun hmany => hbound.2 fun hnil => ?_⟩
    rw [hnil] at hmany
    exact absurd hmany (Nat.lt_irrefl _)

/-- One write: it is accepted, or nothing that counts has changed. -/
theorem write_stands (hlib : lib.Working) {s : ShadowCompressor}
    (h : Stands lib target algo accepted s) (data : Bytes) :
    ((s.write lib data).1.isOk = true ∧
        Stands lib target algo (accepted ++ [data]) (s.write lib data).2) ∨
      (s.write lib data).1.isOk = false ∧ Stands lib target algo accepted (s.write lib data).2 := by
  unfold write
  by_cases hfull : s.isFull = true
  · rw [if_pos hfull]
    exact Or.inr ⟨rfl, h⟩
  rw [if_neg hfull, h.shadow (Bool.not_eq_true _ ▸ hfull), write_filled]
  have haccept : ∀ {t : ShadowCompressor} {newbound : Nat}, t.targetOutputSize = target →
      t.compressor = filled algo accepted → t.shadow = filled algo (accepted ++ [data]) →
      (if data.length ≤ target then newbound = data.length
        else newbound = (filled algo (accepted ++ [data])).len lib + closeOverheadZlib ∧
          (accepted ≠ [] → newbound ≤ target)) →
      ((t.compress newbound data).1.isOk = true ∧
        Stands lib target algo (accepted ++ [data]) (t.compress newbound data).2) ∨
      (t.compress newbound data).1.isOk = false ∧
        Stands lib target algo accepted (t.compress newbound data).2 := by
    intro t newbound htarget hcompressor hshadow hbound
    obtain ⟨hok, hstands⟩ := compress_stands htarget hcompressor hshadow hbound
    exact Or.inl ⟨by rw [hok]; rfl, hstands⟩
  dsimp only
  rw [h.aimed]
  by_cases hlong : target < data.length
  · rw [if_pos hlong]
    have hnot : ¬data.length ≤ target := Nat.not_le.mpr hlong
    by_cases hover : target < (filled algo (accepted ++ [data])).len lib + closeOverheadZlib
    · rw [if_pos hover]
      by_cases hwritten : accepted = []
      · subst hwritten
        have hzero : s.compressor.len lib = 0 := by
          rw [h.compressor]
          cases algo <;> rfl
        rw [if_neg (by rw [hzero]; exact Nat.lt_irrefl 0)]
        refine haccept rfl h.compressor rfl ?_
        rw [if_neg hnot]
        exact ⟨rfl, fun hne => absurd rfl hne⟩
      · rw [if_pos (by rw [h.compressor]; exact len_filled lib algo hwritten ▸ hlib.size_pos algo _)]
        exact Or.inr ⟨rfl, rfl, h.compressor, nofun, h.bound⟩
    · rw [if_neg hover]
      refine haccept rfl h.compressor rfl ?_
      rw [if_neg hnot]
      exact ⟨rfl, fun _ => Nat.not_lt.mp hover⟩
  · rw [if_neg hlong]
    refine haccept rfl h.compressor rfl ?_
    rw [if_pos (Nat.not_lt.mp hlong)]

theorem writes_stands (hlib : lib.Working) (ds : List Bytes)
    (h : Stands lib target algo accepted s) :
    Stands lib target algo (accepted ++ (s.writes lib ds).1) (s.writes lib ds).2 := by
  induction ds generalizing accepted s with
  | nil =>
    rw [writes, List.append_nil]
    exact h
  | cons data ds ih =>
    rw [writes]
    dsimp only
    rcases write_stands hlib h data with ⟨hok, hnext⟩ | ⟨hrefused, hnext⟩
    · have hrest := ih hnext
      rw [if_pos hok]
      rwa [List.append_assoc] at hrest
    · rw [if_neg (by rw [hrefused]; exact Bool.false_ne_true)]
      exact ih hnext

/-- What the first writes are accepted of stays accepted. -/
theorem writes_take_length (lib : Libraries) (ds : List Bytes) (n : Nat) (s : ShadowCompressor) :
    (s.writes lib (ds.take n)).1 <+: (s.writes lib ds).1 := by
  induction ds generalizing n s with
  | nil => rw [List.take_nil]
  | cons data ds ih =>
    cases n with
    | zero => exact List.nil_prefix
    | succ n =>
      rw [List.take_succ_cons, writes, writes]
      dsimp only
      split
      · exact (List.prefix_cons_inj data).mpr (ih n _)
      · exact ih n _

/-- What the compressor promises: the recorded bound covers the compressed size, and after more
than one write the result stays within the target. -/
def Bounded (lib : Libraries) (target : Nat) (accepted : List Bytes) (s : ShadowCompressor) :
    Prop :=
  s.len lib ≤ s.bound ∧ (1 < accepted.length → s.len lib + closeOverheadZlib ≤ target)

theorem bounded_iff_last (hlib : lib.Working) (target : Nat) (algo : CompressionAlgo)
    (ds : List Bytes) :
    Bounded lib target ((ofConfig target algo).writes lib ds).1
        ((ofConfig target algo).writes lib ds).2 ↔
      ∀ last, ((ofConfig target algo).writes lib ds).1.getLast? = some last →
        last.length ≤ target →
        lib.size algo ((ofConfig target algo).writes lib ds).1.flatten ≤ last.length ∧
        (1 < ((ofConfig target algo).writes lib ds).1.length →
          lib.size algo ((ofConfig target algo).writes lib ds).1.flatten + closeOverheadZlib ≤
            target) := by
  have h := writes_stands hlib ds (stands_ofConfig lib target algo)
  rw [List.nil_append] at h
  generalize (ofConfig target algo).writes lib ds = result at h ⊢
  obtain ⟨accepted, s⟩ := result
  have hbound := h.bound
  rw [BoundAfter] at hbound
  unfold Bounded
  cases hlast : accepted.getLast? with
  | none =>
    obtain rfl := List.getLast?_eq_none_iff.mp hlast
    have hzero : s.len lib = 0 := by
      rw [len, h.compressor]
      cases algo <;> rfl
    rw [hzero]
    refine ⟨nofun, fun _ => ⟨Nat.zero_le _, fun hmany => ?_⟩⟩
    exact absurd hmany (Nat.not_lt_zero _)
  | some last =>
    have hsize : s.len lib = lib.size algo accepted.flatten := by
      rw [len, h.compressor, len_filled lib algo (by rintro rfl; cases hlast)]
    rw [hlast] at hbound
    dsimp only at hbound
    rw [hsize] at hbound ⊢
    split at hbound
    · rename_i hle
      rw [hbound]
      refine ⟨fun hboth last' heq _ => ?_, fun hall => hall last rfl hle⟩
      cases heq
      exact hboth
    · rename_i hlt
      refine ⟨fun _ last' heq hle => ?_, fun _ => ⟨?_, fun hmany => ?_⟩⟩
      · cases heq
        exact absurd hle hlt
      · rw [hbound.1]
        exact Nat.le_add_right _ _
      · rw [← hbound.1]
        exact hbound.2 hmany

/-- After any writes the promise is kept exactly if the last accepted one was longer than the
target, or is by itself as long as all accepted data compressed, which fit the target. A run
whose accepted writes are all longer than the target keeps it after each of them. -/
theorem bounded_iff (lib : Libraries) (hlib : lib.Working) (target : Nat) (algo : CompressionAlgo)
    (ds : List Bytes) :
    (Bounded lib target ((ofConfig target algo).writes lib ds).1
        ((ofConfig target algo).writes lib ds).2 ↔
      ∀ last, ((ofConfig target algo).writes lib ds).1.getLast? = some last →
        last.length ≤ target →
        lib.size algo ((ofConfig target algo).writes lib ds).1.flatten ≤ last.length ∧
        (1 < ((ofConfig target algo).writes lib ds).1.length →
          lib.size algo ((ofConfig target algo).writes lib ds).1.flatten + closeOverheadZlib ≤
            target)) ∧
    ((∀ data ∈ ((ofConfig target algo).writes lib ds).1, target < data.length) →
      ∀ n, Bounded lib target ((ofConfig target algo).writes lib (ds.take n)).1
        ((ofConfig target algo).writes lib (ds.take n)).2) := by
  refine ⟨bounded_iff_last hlib target algo ds, fun hlong n => ?_⟩
  refine (bounded_iff_last hlib target algo (ds.take n)).mpr fun last hlast hle => ?_
  have hmem := (writes_take_length lib ds n (ofConfig target algo)).mem (List.mem_of_getLast? hlast)
  exact absurd hle (Nat.not_le.mpr (hlong last hmem))

/-- Libraries that store each run of equal bytes as the byte and its length. -/
def runLengths (data : Bytes) : Bytes :=
  0 :: (data.splitBy (· == ·)).flatMap fun run => [run.headD 0, UInt8.ofNat run.length]

def squeezing : Libraries := ⟨fun _ data => some (runLengths data), runLengths⟩

def longWrites : List Bytes := [List.replicate 30 1, List.replicate 30 2]

/-- Two writes that are longer than the target and compress to less. -/
theorem bounded_iff_squeezing :
    ((ofConfig 20 .zlib).writes squeezing longWrites).1 = longWrites ∧
    Bounded squeezing 20 ((ofConfig 20 .zlib).writes squeezing longWrites).1
      ((ofConfig 20 .zlib).writes squeezing longWrites).2 := by
  have haccepted : ((ofConfig 20 .zlib).writes squeezing longWrites).1 = longWrites := by
    decide +kernel
  have h := bounded_iff squeezing
    ⟨fun _ _ => ⟨_, rfl, List.cons_ne_nil _ _⟩, fun _ => List.cons_ne_nil _ _⟩ 20 .zlib longWrites
  refine ⟨haccepted, h.2 ?_ 2⟩
  rw [haccepted]
  simp [longWrites]

/-- Libraries that store their input behind one byte. -/
def storing : Libraries := ⟨fun _ data => some (0 :: data), fun data => 0 :: data⟩

/-- Pieces that are each shorter than the target are taken without end. -/
theorem short_writes_unbounded :
    storing.Expanding safeCompressionOverhead ∧
      ((ofConfig 20 (.brotli .brotli10)).writes storing
        [List.replicate 12 1, List.replicate 12 2, List.replicate 12 3]).1.length = 3 ∧
      ((ofConfig 20 (.brotli .brotli10)).writes storing
        [List.replicate 12 1, List.replicate 12 2, List.replicate 12 3]).2.len storing = 37 ∧
      ((ofConfig 20 (.brotli .brotli10)).writes storing
        [List.replicate 12 1, List.replicate 12 2, List.replicate 12 3]).2.bound = 12 := by
  refine ⟨⟨fun level data out h => ?_, fun data => ?_⟩, by decide, by decide, by decide⟩
  · cases h
    exact Nat.add_le_add_left (by decide) _
  · exact Nat.add_le_add_left (by decide) _

end ShadowCompressor
end SciChain.Batcher
