import SciChain.Derive.Frame

namespace SciChain.Derive.Frame
open Library

/-- The encoding of a frame with a given last byte. -/
def encodeWith (flag : UInt8) (f : Frame) : Bytes :=
  f.id.val ++ beBytes 2 f.number.toNat ++ beBytes 4 f.data.length ++ f.data ++ [flag]

/-- A frame together with the byte that its flag was read from. -/
structure Reading where
  frame : Frame
  flag : UInt8
  isLast : frame.isLast = (flag == 1)
  fits : frame.data.length ≤ maxLen

namespace Reading

def bytes (r : Reading) : Bytes := encodeWith r.flag r.frame

def Canonical (r : Reading) : Prop := r.flag = 0 ∨ r.flag = 1

theorem length_bytes (r : Reading) : r.bytes.length = baseFrameLen + r.frame.data.length := by
  simp only [bytes, encodeWith, List.length_append, r.frame.id.property, length_beBytes,
    List.length_singleton, baseFrameLen]
  omega

theorem bytes_ne_nil (r : Reading) : r.bytes ≠ [] := by
  simp [bytes, encodeWith]

theorem drop_header (r : Reading) (rest : Bytes) :
    (r.bytes ++ rest).drop 22 = r.frame.data ++ r.flag :: rest := by
  have hbytes : r.bytes ++ rest = (r.frame.id.val ++ beBytes 2 r.frame.number.toNat ++
      beBytes 4 r.frame.data.length) ++ (r.frame.data ++ r.flag :: rest) := by
    simp [bytes, encodeWith]
  rw [hbytes]
  exact List.drop_left' (by simp [r.frame.id.property])

theorem flag_at (r : Reading) (rest : Bytes) :
    (r.bytes ++ rest).getD (22 + r.frame.data.length) 0 = r.flag := by
  rw [List.getD, ← List.getElem?_drop, r.drop_header]
  simp

/-- The encoder only writes the bytes 0 and 1. -/
theorem bytes_eq_encode_iff (r : Reading) : r.bytes = r.frame.encode ↔ r.Canonical := by
  have hlast := r.isLast
  rw [bytes, encodeWith, encode, List.append_cancel_left_eq, List.singleton_inj, Canonical]
  cases hb : r.frame.isLast with
  | true =>
    rw [hb] at hlast
    simp [beq_iff_eq.mp hlast.symm]
  | false =>
    rw [hb] at hlast
    simp [beq_eq_false_iff_ne.mp hlast.symm]

theorem flatMap_bytes_eq_iff (rs : List Reading) :
    rs.flatMap bytes = (rs.map frame).flatMap encode ↔ ∀ r ∈ rs, r.Canonical := by
  induction rs with
  | nil => simp
  | cons r rs ih =>
    have hlen : r.bytes.length = r.frame.encode.length := by
      simp [bytes, encodeWith, encode]
    rw [List.map_cons, List.flatMap_cons, List.flatMap_cons, List.forall_mem_cons,
      ← r.bytes_eq_encode_iff, ← ih]
    exact ⟨fun h => List.append_inj h hlen, fun ⟨hr, hrs⟩ => by rw [hr, hrs]⟩

end Reading

theorem maxLen_lt : maxLen < 256 ^ 4 := by decide

theorem beBytes_ofNat {w n : Nat} {bytes : Bytes} (hlen : bytes.length = n) (hw : 2 ^ w = 256 ^ n) :
    beBytes n (BitVec.ofNat w (beValue bytes)).toNat = bytes := by
  have hlt := beValue_lt bytes
  rw [hlen, ← hw] at hlt
  rw [BitVec.toNat_ofNat, Nat.mod_eq_of_lt hlt, ← hlen, beBytes_beValue]

/-- A byte string that is long enough, cut as a frame. -/
theorem cut {encoded : Bytes} {n : Nat} (h : 22 + n < encoded.length) :
    encoded.take 16 ++ (encoded.drop 16).take 2 ++ (encoded.drop 18).take 4 ++
      (encoded.drop 22).take n ++ [encoded.getD (22 + n) 0] ++ encoded.drop (23 + n) = encoded := by
  have hpart : ∀ k m, (encoded.drop k).take m ++ encoded.drop (k + m) = encoded.drop k := by
    intro k m
    rw [← List.drop_drop, List.take_append_drop]
  have hlast : [encoded.getD (22 + n) 0] ++ encoded.drop (23 + n) = encoded.drop (22 + n) := by
    rw [List.drop_eq_getElem_cons h, Nat.add_right_comm]
    simp [List.getD, h]
  simp only [List.append_assoc]
  rw [hlast, hpart, hpart 18 4, hpart 16 2, List.take_append_drop]

/-- What `decode` accepts: a prefix with the layout of a frame, whatever its last
byte is. -/
theorem decode_ok_iff {encoded : Bytes} {n : Nat} {f : Frame} :
    decode encoded = .ok (n, f) ↔
      ∃ r : Reading, r.frame = f ∧ n = r.bytes.length ∧ r.bytes <+: encoded := by
  constructor
  · intro h
    unfold decode at h
    split at h
    · cases h
    · rename_i hlen
      simp only at h
      split at h
      · cases h
      · rename_i hdata
        obtain ⟨hn, hf⟩ := Prod.mk.inj (Except.ok.inj h)
        simp only [baseFrameLen] at hlen hdata
        generalize hd : beValue ((encoded.drop 18).take 4) = dataLen at hn hf hdata
        have hnumber : ((encoded.drop 16).take 2).length = 2 := by simp; omega
        have hlength : ((encoded.drop 18).take 4).length = 4 := by simp; omega
        have hbody : ((encoded.drop 22).take dataLen).length = dataLen := by simp; omega
        subst hf
        refine ⟨⟨_, encoded.getD (22 + dataLen) 0, rfl, by rw [hbody]; omega⟩, rfl, ?_,
          encoded.drop (23 + dataLen), ?_⟩
        · rw [Reading.length_bytes, hbody, ← hn]
        · have hprefix : beBytes 4 dataLen = (encoded.drop 18).take 4 := by
            rw [← hd]
            exact (congrArg (beBytes · _) hlength.symm).trans (beBytes_beValue _)
          simp only [Reading.bytes, encodeWith, hbody]
          rw [beBytes_ofNat hnumber (by decide), hprefix]
          exact cut (by omega)
  · rintro ⟨r, rfl, rfl, rest, rfl⟩
    have hid : r.frame.id.val.length = 16 := r.frame.id.property
    have hfits := r.fits
    have hdata : beValue (beBytes 4 r.frame.data.length) = r.frame.data.length :=
      beValue_beBytes (Nat.lt_of_le_of_lt hfits maxLen_lt)
    have hnumber : beValue (beBytes 2 r.frame.number.toNat) = r.frame.number.toNat :=
      beValue_beBytes r.frame.number.isLt
    have hlen : (r.bytes ++ rest).length = 23 + r.frame.data.length + rest.length := by
      rw [List.length_append, r.length_bytes, baseFrameLen]
    have hbytes : r.bytes ++ rest = r.frame.id.val ++ (beBytes 2 r.frame.number.toNat ++
        (beBytes 4 r.frame.data.length ++ (r.frame.data ++ (r.flag :: rest)))) := by
      simp [Reading.bytes, encodeWith]
    have hnumberAt : ((r.bytes ++ rest).drop 16).take 2 = beBytes 2 r.frame.number.toNat := by
      rw [hbytes]
      simp [hid]
    have hlengthAt : ((r.bytes ++ rest).drop 18).take 4 = beBytes 4 r.frame.data.length := by
      rw [hbytes]
      simp [List.drop_append, List.take_append, hid]
    have hdataAt : ((r.bytes ++ rest).drop 22).take r.frame.data.length = r.frame.data := by
      rw [r.drop_header, List.take_left' rfl]
    have hidAt : (r.bytes ++ rest).take 16 = r.frame.id.val := by
      rw [hbytes]
      simp [hid]
    unfold decode
    rw [dif_neg (by rw [hlen, baseFrameLen]; omega)]
    simp only [hlengthAt, hdata, hnumberAt, hnumber, hdataAt, r.flag_at, hidAt]
    rw [if_neg (by rw [hlen, baseFrameLen]; omega), r.length_bytes]
    simp [← r.isLast]

theorem parseFrom_ok_iff (data : Bytes) (offset : Nat) (hoffset : offset ≤ data.length) :
    parseFrom data offset = .ok (frames, stop) ↔
      stop = data.length ∧ ∃ rs : List Reading, rs.map Reading.frame = frames ∧
        data.drop offset = rs.flatMap Reading.bytes := by
  fun_induction parseFrom data offset generalizing frames stop with
  | case1 offset hlt e hd =>
    refine ⟨nofun, ?_⟩
    rintro ⟨-, rs, -, hrs⟩
    cases rs with
    | nil => exact absurd (List.drop_eq_nil_iff.mp hrs) (Nat.not_le.mpr hlt)
    | cons r rs =>
      have hok := decode_ok_iff.mpr ⟨r, rfl, rfl, rs.flatMap Reading.bytes, hrs.symm⟩
      rw [hd] at hok
      cases hok
  | case2 offset hlt n frame hd ih =>
    obtain ⟨r, rfl, rfl, rest, hrest⟩ := decode_ok_iff.mp hd
    have hnext : data.drop (offset + r.bytes.length) = rest := by
      rw [← List.drop_drop, ← hrest, List.drop_left' rfl]
    have hle : offset + r.bytes.length ≤ data.length := by
      have := decode_len hd
      rw [List.length_drop] at this
      omega
    simp only [bind_ok, pure_eq]
    constructor
    · rintro ⟨⟨frames', stop'⟩, htail, h⟩
      cases h
      obtain ⟨hstop, rs, hframes, hrs⟩ := (ih hle).mp htail
      refine ⟨hstop, r :: rs, by rw [List.map_cons, hframes], ?_⟩
      rw [List.flatMap_cons, ← hrs, hnext, hrest]
    · rintro ⟨hstop, rs, hframes, hrs⟩
      cases rs with
      | nil => exact absurd (List.drop_eq_nil_iff.mp hrs) (Nat.not_le.mpr hlt)
      | cons r' rs =>
        have hok := decode_ok_iff.mpr ⟨r', rfl, rfl, rs.flatMap Reading.bytes, hrs.symm⟩
        obtain ⟨hlen, hframe⟩ := Prod.mk.inj (Except.ok.inj (hd.symm.trans hok))
        refine ⟨⟨rs.map Reading.frame, stop⟩, (ih hle).mpr ⟨hstop, rs, rfl, ?_⟩, ?_⟩
        · rw [hlen, ← List.drop_drop, hrs, List.flatMap_cons, List.drop_left' rfl]
        · rw [← hframes, List.map_cons, hframe]
  | case3 offset hge =>
    have hend : offset = data.length := Nat.le_antisymm hoffset (Nat.le_of_not_lt hge)
    subst hend
    constructor
    · intro h
      cases h
      exact ⟨rfl, [], rfl, by simp⟩
    · rintro ⟨rfl, rs, rfl, hrs⟩
      cases rs with
      | nil => rfl
      | cons r rs =>
        rw [List.drop_length, List.flatMap_cons] at hrs
        exact absurd (List.append_eq_nil_iff.mp hrs.symm).1 r.bytes_ne_nil

theorem parseFrames_ok_iff :
    parseFrames encoded = .ok frames ↔ ∃ rs : List Reading, rs ≠ [] ∧
      rs.map Reading.frame = frames ∧ encoded = 0 :: rs.flatMap Reading.bytes := by
  cases encoded with
  | nil => exact ⟨nofun, fun ⟨_, _, _, h⟩ => (by cases h)⟩
  | cons version data =>
    simp only [parseFrames, bind_ok, reject_ok, pure_eq, not_not]
    constructor
    · rintro ⟨_, hversion, ⟨frames', stop⟩, hparse, _, -, _, hne, h⟩
      cases h
      obtain ⟨-, rs, hframes, hrs⟩ := (parseFrom_ok_iff data 0 (Nat.zero_le _)).mp hparse
      refine ⟨rs, ?_, hframes, by rw [hversion, ← hrs, List.drop_zero]; rfl⟩
      rintro rfl
      exact hne hframes.symm
    · rintro ⟨rs, hne, rfl, h⟩
      cases h
      exact ⟨(), rfl, ⟨_, _⟩, (parseFrom_ok_iff _ 0 (Nat.zero_le _)).mpr ⟨rfl, rs, rfl, rfl⟩, (),
        rfl, (), by simpa using hne, rfl⟩

/-- Encodings are read back, a decoded frame has the bytes it was read from as
its encoding unless its flag byte is neither 0 nor 1, and `parse_frames` accepts
version 0 followed by one or more frames in this sense. -/
theorem frame_codec (encoded : Bytes) :
    (∀ f : Frame, f.data.length ≤ maxLen → decode f.encode = .ok (f.encode.length, f)) ∧
    (∀ (n : Nat) (f : Frame), decode encoded = .ok (n, f) →
      (f.encode = encoded.take n ↔
        encoded.getD (n - 1) 0 = 0 ∨ encoded.getD (n - 1) 0 = 1)) ∧
    ∀ frames : List Frame, parseFrames encoded = .ok frames ↔
      ∃ rs : List Reading, rs ≠ [] ∧ rs.map Reading.frame = frames ∧
        encoded = 0 :: rs.flatMap Reading.bytes ∧
        (encoded = 0 :: frames.flatMap encode ↔ ∀ r ∈ rs, r.Canonical) := by
  refine ⟨fun f hf => ?_, fun n f h => ?_, fun frames => ?_⟩
  · have hcanonical : (if f.isLast then 1 else 0 : UInt8) = 0 ∨
        (if f.isLast then 1 else 0 : UInt8) = 1 := by
      cases f.isLast <;> simp
    have hlast : f.isLast = ((if f.isLast then 1 else 0 : UInt8) == 1) := by
      cases f.isLast <;> rfl
    have hbytes := (Reading.bytes_eq_encode_iff ⟨f, _, hlast, hf⟩).mpr hcanonical
    exact decode_ok_iff.mpr ⟨⟨f, _, hlast, hf⟩, rfl, by rw [hbytes], [], by simp [hbytes]⟩
  · obtain ⟨r, rfl, rfl, rest, rfl⟩ := decode_ok_iff.mp h
    have hflag : (r.bytes ++ rest).getD (r.bytes.length - 1) 0 = r.flag := by
      rw [show r.bytes.length - 1 = 22 + r.frame.data.length by
        rw [r.length_bytes, baseFrameLen]; omega]
      exact r.flag_at rest
    rw [List.take_left' rfl, hflag, eq_comm, r.bytes_eq_encode_iff]
    rfl
  · rw [parseFrames_ok_iff]
    refine exists_congr fun rs => and_congr_right fun _ => and_congr_right fun hframes => ?_
    refine ⟨fun h => ⟨h, ?_⟩, And.left⟩
    rw [h, ← hframes, List.cons.injEq, eq_self, true_and, Reading.flatMap_bytes_eq_iff]

def sampleFrame : Frame := ⟨⟨List.replicate 16 7, rfl⟩, 3, [9, 8], false⟩

theorem frame_codec_sample :
    sampleFrame.data.length ≤ maxLen ∧
      decode sampleFrame.encode = .ok (sampleFrame.encode.length, sampleFrame) :=
  ⟨by decide, (frame_codec []).1 sampleFrame (by decide)⟩

/-- A frame with the flag byte 2 is accepted as one that is not the last. -/
theorem flag_byte_not_rejected :
    decode (sampleFrame.encodeWith 2) = .ok (25, sampleFrame) ∧
      parseFrames (0 :: sampleFrame.encodeWith 2) = .ok [sampleFrame] ∧
      sampleFrame.encode ≠ sampleFrame.encodeWith 2 :=
  ⟨decode_ok_iff.mpr ⟨⟨sampleFrame, 2, rfl, by decide⟩, rfl, rfl, [], List.append_nil _⟩,
    parseFrames_ok_iff.mpr ⟨[⟨sampleFrame, 2, rfl, by decide⟩], by simp, rfl, by
      simp [Reading.bytes]⟩, by decide⟩

end SciChain.Derive.Frame
