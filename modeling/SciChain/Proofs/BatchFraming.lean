import SciChain.Derive.BatchReader

namespace SciChain.Derive
open Library

/-- The libraries decompress correctly. A compressed string has a content, up to its end or to
where it cannot be decompressed, and they return no more than the given number of its first
bytes. A state of brotli has a rest of the content that it still has to return, and a call that
does not ask for more room has returned all of it. -/
structure Decompressors.Correct {σ : Type} (lib : Decompressors σ)
    (zlibContent brotliContent : Bytes → Bytes) : Prop where
  zlib_ok : ∀ data limit out, lib.decompressToVecZlibWithLimit data limit = .ok out →
    out = (zlibContent data).take limit
  zlib_error : ∀ data limit e, lib.decompressToVecZlibWithLimit data limit = .error e →
    e.output = (zlibContent data).take limit
  brotli : ∃ left : σ → Bytes, (∀ data, left (lib.brotliState data) = brotliContent data) ∧
    ∀ state availableOut result bytes state',
      lib.brotliDecompressStream state availableOut = (result, bytes, state') →
      left state = bytes ++ left state' ∧ bytes.length ≤ availableOut ∧
      (result = .needsMoreOutput → bytes.length = availableOut) ∧
      (result ≠ .needsMoreOutput → left state' = [])

namespace BatchReader

variable {σ B : Type}

/-- What a channel holds. -/
def channelContent (zlibContent brotliContent : Bytes → Bytes) (brotliSupported : Bool) :
    Bytes → Bytes
  | [] => []
  | compressionType :: rest =>
    if isZlib compressionType then zlibContent (compressionType :: rest)
    else if compressionType = channelVersionBrotli ∧ brotliSupported then brotliContent rest
    else []

end BatchReader

section Brotli

variable {σ : Type} {lib : Decompressors σ} {zlibContent brotliContent : Bytes → Bytes}

/-- The loop returns the first bytes of the content, and fails only without any. -/
theorem Brotli.decompressLoop_eq {left : σ → Bytes}
    (hstep : ∀ state availableOut result bytes state',
      lib.brotliDecompressStream state availableOut = (result, bytes, state') →
      left state = bytes ++ left state' ∧ bytes.length ≤ availableOut ∧
      (result = .needsMoreOutput → bytes.length = availableOut) ∧
      (result ≠ .needsMoreOutput → left state' = [])) (hlen : len ≤ limit)
    (hroom : written.length + availableOut = len) :
    (∃ out, decompressLoop lib limit state written len availableOut = .ok out ∧
      out = (written ++ left state).take limit) ∨
    ((∃ e, decompressLoop lib limit state written len availableOut = .error e) ∧
      written ++ left state = []) := by
  induction hmeasure : limit - len using Nat.strongRecOn generalizing state written len availableOut
    with
  | _ m ih =>
  rw [decompressLoop]
  rcases hcall : lib.brotliDecompressStream state availableOut with ⟨result, bytes, state'⟩
  obtain ⟨hleft, hbytes, hfull, hlast⟩ := hstep _ _ _ _ _ hcall
  -- every result but a request for more room ends the loop with the whole content
  have hend : result ≠ .needsMoreOutput →
      written ++ left state = written ++ bytes ∧ (written ++ bytes).length ≤ limit := by
    intro hresult
    rw [hleft, hlast hresult, List.append_nil, List.length_append]
    exact ⟨rfl, by omega⟩
  have hstop : ∀ result' : BrotliResult, result ≠ .needsMoreOutput →
      (∃ out, (if (written ++ bytes).length = 0 then
          (.error (.decompressionFailed result') : Except BrotliDecompressionError Bytes)
          else .ok (written ++ bytes)) = .ok out ∧ out = (written ++ left state).take limit) ∨
      ((∃ e, (if (written ++ bytes).length = 0 then
          (.error (.decompressionFailed result') : Except BrotliDecompressionError Bytes)
          else .ok (written ++ bytes)) = .error e) ∧ written ++ left state = []) := by
    intro result' hresult
    obtain ⟨hall, hsize⟩ := hend hresult
    split
    · rename_i hnone
      exact Or.inr ⟨⟨_, rfl⟩, hall.trans (List.eq_nil_of_length_eq_zero hnone)⟩
    · exact Or.inl ⟨_, rfl, by rw [hall, List.take_of_length_le hsize]⟩
  cases result with
  | needsMoreOutput =>
    have hbytes := hfull rfl
    have hnow : (written ++ bytes).length = len := by
      rw [List.length_append]
      omega
    dsimp only
    split
    · rename_i hlimit
      refine Or.inl ⟨_, rfl, ?_⟩
      rw [hleft, ← List.append_assoc, List.take_left' (by omega)]
    · rename_i hlimit
      have hgrow : len < min (max (len * 2) 1) limit := by omega
      have hle : min (max (len * 2) 1) limit ≤ limit := Nat.min_le_right _ _
      rw [hleft, ← List.append_assoc]
      exact ih _ (by omega) hle (by rw [hnow]; omega) rfl
  | success => exact hstop _ (by decide)
  | needsMoreInput => exact hstop _ (by decide)
  | failure => exact hstop _ (by decide)

theorem Brotli.decompress_eq (hlib : lib.Correct zlibContent brotliContent) (data : Bytes)
    (limit : Nat) :
    (∃ out, decompress lib data limit = .ok out ∧ out = (brotliContent data).take limit) ∨
    ((∃ e, decompress lib data limit = .error e) ∧ brotliContent data = []) := by
  obtain ⟨left, hstart, hstep⟩ := hlib.brotli
  rw [← hstart data]
  exact decompressLoop_eq hstep (Nat.min_le_right _ _) (by simp)

end Brotli

namespace BatchReader

section Reading

variable {σ B : Type} {lib : Decompressors σ} {zlibContent brotliContent : Bytes → Bytes}
  {data : Bytes} {limit : Nat} {brotliSupported : Bool} {decodeBatch : Bytes → Option B}

theorem decompress_cons (compressionType : UInt8) (rest : Bytes) :
    decompress lib (new (compressionType :: rest) limit brotliSupported) =
      let r : BatchReader := ⟨none, [], 0, limit, false, brotliSupported⟩
      if isZlib compressionType then decompressZlib lib r (compressionType :: rest)
      else if compressionType = channelVersionBrotli ∧ brotliSupported then
        decompressBrotli lib r (compressionType :: rest)
      else (.error (.unsupportedType compressionType), r) := by
  unfold decompress
  rw [if_neg (by simp [new])]
  rfl

/-- The first call decompresses what the limit leaves of the channel. -/
theorem decompress_new (hlib : lib.Correct zlibContent brotliContent) (data : Bytes)
    (limit : Nat) (brotliSupported : Bool) :
    let content := (channelContent zlibContent brotliContent brotliSupported data).take limit
    ∃ outcome r, decompress lib (new data limit brotliSupported) = (outcome, r) ∧
      r.data = none ∧ r.decompressed = content ∧ r.cursor = 0 ∧
      (∀ e, outcome = .error e → content = []) := by
  intro content
  cases data with
  | nil =>
    have hempty : content = [] := List.take_nil
    exact ⟨.error .emptyData, ⟨none, [], 0, limit, false, brotliSupported⟩, rfl, rfl,
      hempty.symm, rfl, fun _ _ => hempty⟩
  | cons compressionType rest =>
    rw [decompress_cons]
    by_cases hzlib : isZlib compressionType = true
    · have hcontent : content = (zlibContent (compressionType :: rest)).take limit := by
        simp [content, channelContent, if_pos hzlib]
      rw [if_pos hzlib, decompressZlib]
      cases hout : lib.decompressToVecZlibWithLimit (compressionType :: rest) limit with
      | ok out =>
        have heq := hlib.zlib_ok _ _ _ hout
        exact ⟨_, _, rfl, rfl, heq.trans hcontent.symm, rfl, nofun⟩
      | error e =>
        have heq := hlib.zlib_error _ _ _ hout
        dsimp only
        split
        · exact ⟨_, _, rfl, rfl, heq.trans hcontent.symm, rfl, nofun⟩
        · rename_i hnone
          have hempty : content = [] := by
            rw [hcontent, ← heq]
            by_contra hne
            exact hnone (Or.inr hne)
          exact ⟨_, _, rfl, rfl, hempty.symm, rfl, fun _ _ => hempty⟩
    · rw [if_neg hzlib]
      by_cases hbrotli : compressionType = channelVersionBrotli ∧ brotliSupported = true
      · have hcontent : content = (brotliContent rest).take limit := by
          simp [content, channelContent, if_neg hzlib, if_pos hbrotli]
        rw [if_pos hbrotli, decompressBrotli,
          show (compressionType :: rest).drop 1 = rest from rfl]
        rcases Brotli.decompress_eq hlib rest limit with ⟨out, hout, heq⟩ | ⟨⟨e, he⟩, hnone⟩
        · rw [hout]
          exact ⟨_, _, rfl, rfl, heq.trans hcontent.symm, rfl, nofun⟩
        · have hempty : content = [] := by rw [hcontent, hnone, List.take_nil]
          rw [he]
          exact ⟨_, _, rfl, rfl, hempty.symm, rfl, fun _ _ => hempty⟩
      · have hempty : content = [] := by
          simp [content, channelContent, if_neg hzlib, if_neg hbrotli]
        rw [if_neg hbrotli]
        exact ⟨_, _, rfl, rfl, hempty.symm, rfl, fun _ _ => hempty⟩

/-- Where a reader of a channel with the given content stands: new, or behind its first bytes. -/
def At (content : Bytes) (start : BatchReader) (cursor : Nat) (r : BatchReader) : Prop :=
  r.cursor = cursor ∧ (r = start ∨ r.data = none ∧ r.decompressed = content)

/-- The batch at the front of the content, and what is behind it. -/
def front (decodeBatch : Bytes → Option B) (content : Bytes) : Option (B × Bytes) :=
  match Rlp.decodeBytes content false with
  | .error _ => none
  | .ok (bytes, rest) => (decodeBatch bytes).map fun batch => (batch, rest)

theorem readBatch_eq (decodeBatch : Bytes → Option B) (hsplit : r.decompressed = before ++ rest)
    (hcursor : r.cursor = before.length) :
    (front decodeBatch rest = none ∧ readBatch decodeBatch r = (none, r)) ∨
    ∃ batch after, front decodeBatch rest = some (batch, after) ∧
      readBatch decodeBatch r =
        (some batch, { r with cursor := r.decompressed.length - after.length }) := by
  have hrest : r.decompressed.drop r.cursor = rest := by
    rw [hsplit, hcursor, List.drop_left' rfl]
  unfold readBatch front
  rw [hrest]
  cases Rlp.decodeBytes rest false with
  | error e => exact Or.inl ⟨rfl, rfl⟩
  | ok found =>
    obtain ⟨bytes, after⟩ := found
    dsimp only
    cases decodeBatch bytes with
    | none => exact Or.inl ⟨rfl, rfl⟩
    | some batch => exact Or.inr ⟨batch, after, rfl, rfl⟩

theorem front_eq_some (h : front decodeBatch content = some (batch, rest)) :
    ∃ bytes : Bytes, content = Rlp.encodeString bytes ++ rest ∧ bytes.length < 2 ^ 64 ∧
      decodeBatch bytes = some batch := by
  unfold front at h
  cases hdecode : Rlp.decodeBytes content false with
  | error e =>
    rw [hdecode] at h
    cases h
  | ok found =>
    obtain ⟨bytes, after⟩ := found
    rw [hdecode] at h
    obtain ⟨batch', hbatch, heq⟩ := Option.map_eq_some_iff.mp h
    cases heq
    obtain ⟨hcontent, hlt⟩ := Rlp.eq_encodeString hdecode
    exact ⟨bytes, hcontent, hlt, hbatch⟩

theorem front_encodeString (hlt : bytes.length < 2 ^ 64) (hbatch : decodeBatch bytes = some batch) :
    front decodeBatch (Rlp.encodeString bytes ++ rest) = some (batch, rest) := by
  unfold front
  rw [Rlp.decodeBytes_encodeString hlt]
  dsimp only
  rw [hbatch]
  rfl

/-- One call from anywhere: the batch in front is returned and passed, or nothing happens. -/
theorem nextBatch_at (hlib : lib.Correct zlibContent brotliContent)
    (decodeBatch : Bytes → Option B) (hcontent : content =
      (channelContent zlibContent brotliContent brotliSupported data).take limit)
    (hsplit : content = before ++ rest)
    (hat : At content (new data limit brotliSupported) before.length r) :
    (front decodeBatch rest = none ∧ ∃ r', nextBatch lib decodeBatch r = some (none, r') ∧
      At content (new data limit brotliSupported) before.length r') ∨
    ∃ batch after, front decodeBatch rest = some (batch, after) ∧
      ∃ r', nextBatch lib decodeBatch r = some (some batch, r') ∧
        At content (new data limit brotliSupported) (content.length - after.length) r' := by
  obtain ⟨hcursor, hstate⟩ := hat
  -- after decompressing, whether it was this call or an earlier one
  have hopen : ∃ outcome r', decompress lib r = (outcome, r') ∧ r'.data = none ∧
      r'.decompressed = content ∧ r'.cursor = before.length ∧
      (∀ e, outcome = .error e → content = []) := by
    rcases hstate with rfl | ⟨hdata, hdecompressed⟩
    · obtain ⟨outcome, r', hcall, hdata, hdecompressed, hzero, herror⟩ :=
        decompress_new hlib data limit brotliSupported
      rw [← hcontent] at hdecompressed herror
      exact ⟨outcome, r', hcall, hdata, hdecompressed, hzero.trans hcursor, herror⟩
    · by_cases hempty : content = []
      · refine ⟨.error .emptyData, r, ?_, hdata, hdecompressed, hcursor, fun _ _ => hempty⟩
        unfold decompress
        rw [hdecompressed, if_neg (by simp [hempty]), hdata]
      · refine ⟨.ok (), r, ?_, hdata, hdecompressed, hcursor, nofun⟩
        unfold decompress
        rw [hdecompressed, if_pos hempty]
  obtain ⟨outcome, r', hcall, hdata, hdecompressed, hcursor', herror⟩ := hopen
  unfold nextBatch
  rw [hcall]
  cases outcome with
  | error e =>
    have hempty := herror e rfl
    have hrest : rest = [] := by
      rw [hempty] at hsplit
      exact (List.append_eq_nil_iff.mp hsplit.symm).2
    refine Or.inl ⟨?_, r', rfl, hcursor', Or.inr ⟨hdata, hdecompressed⟩⟩
    rw [hrest]
    rfl
  | ok _ =>
    dsimp only
    rw [if_neg (by rw [hdecompressed, hcursor', hsplit]; simp)]
    rcases readBatch_eq decodeBatch (hdecompressed.trans hsplit) hcursor' with
      ⟨hfront, hread⟩ | ⟨batch, after, hfront, hread⟩
    · rw [hread]
      exact Or.inl ⟨hfront, r', rfl, hcursor', Or.inr ⟨hdata, hdecompressed⟩⟩
    · rw [hread]
      refine Or.inr ⟨batch, after, hfront, _, rfl, ?_, Or.inr ⟨hdata, hdecompressed⟩⟩
      rw [hdecompressed]

/-- A call that returns a batch moves the cursor forward, but not behind the content. -/
theorem cursor_advances (hsplit : content = before ++ rest)
    (hfront : front decodeBatch rest = some (batch, after)) :
    before.length < content.length - after.length ∧
      content.length - after.length ≤ content.length := by
  obtain ⟨bytes, hrest, -, -⟩ := front_eq_some hfront
  have hpos := Rlp.length_encodeString_pos bytes
  rw [hsplit, hrest]
  simp only [List.length_append]
  omega

/-- Content as strings that hold batches, and a tail that begins with none. -/
structure Framed (decodeBatch : Bytes → Option B) (content : Bytes) (payloads : List Bytes)
    (batches : List B) (tail : Bytes) : Prop where
  content_eq : content = payloads.flatMap Rlp.encodeString ++ tail
  sizes : ∀ bytes ∈ payloads, bytes.length < 2 ^ 64
  decoded : payloads.map decodeBatch = batches.map some
  stuck : front decodeBatch tail = none

theorem exists_framed (decodeBatch : Bytes → Option B) (content : Bytes) :
    ∃ payloads batches tail, Framed decodeBatch content payloads batches tail := by
  induction hn : content.length using Nat.strongRecOn generalizing content with
  | _ n ih =>
  subst hn
  cases hfront : front decodeBatch content with
  | none => exact ⟨[], [], content, rfl, by simp, rfl, hfront⟩
  | some found =>
    obtain ⟨batch, rest⟩ := found
    obtain ⟨bytes, hcontent, hlt, hbatch⟩ := front_eq_some hfront
    have hpos := Rlp.length_encodeString_pos bytes
    obtain ⟨payloads, batches, tail, hframed⟩ :=
      ih rest.length (by rw [hcontent, List.length_append]; omega) rest rfl
    refine ⟨bytes :: payloads, batch :: batches, tail, ?_, ?_, ?_, hframed.stuck⟩
    · rw [hcontent, hframed.content_eq, List.flatMap_cons, List.append_assoc]
    · intro b hb
      rcases List.mem_cons.mp hb with rfl | hb
      · exact hlt
      · exact hframed.sizes b hb
    · rw [List.map_cons, List.map_cons, hbatch, hframed.decoded]

/-- Calls return the batches one by one, and then nothing. -/
theorem nextBatches_at (hlib : lib.Correct zlibContent brotliContent) (hcontent : content =
      (channelContent zlibContent brotliContent brotliSupported data).take limit) (n : Nat)
    (hsplit : content = before ++ rest) (hframed : Framed decodeBatch rest payloads batches tail)
    (hat : At content (new data limit brotliSupported) before.length r) :
    ∃ r', nextBatches lib decodeBatch n r =
        some ((List.range n).map (batches[·]?), r') ∧
      At content (new data limit brotliSupported)
        (before ++ (payloads.take n).flatMap Rlp.encodeString).length r' := by
  induction n generalizing before rest payloads batches r with
  | zero => exact ⟨r, rfl, by simpa using hat⟩
  | succ n ih =>
    cases payloads with
    | nil =>
      obtain rfl : batches = [] := by simpa using hframed.decoded.symm
      obtain rfl : rest = tail := hframed.content_eq
      have hstep := nextBatch_at hlib decodeBatch hcontent hsplit hat
      rcases hstep with ⟨-, r', hcall, hat'⟩ | ⟨batch, after, hfront, -⟩
      · obtain ⟨r'', hcalls, hat''⟩ := ih hsplit hframed hat'
        refine ⟨r'', ?_, by simpa using hat''⟩
        rw [nextBatches, hcall, Option.bind_some, hcalls, Option.map_some,
          List.range_succ_eq_map, List.map_cons, List.map_map]
        rfl
      · rw [hframed.stuck] at hfront
        cases hfront
    | cons bytes payloads =>
      cases batches with
      | nil => exact absurd hframed.decoded (by simp)
      | cons batch batches =>
        have hdecoded := List.cons.inj hframed.decoded
        have hlt := hframed.sizes bytes (by simp)
        have hrest : rest = Rlp.encodeString bytes ++
            (payloads.flatMap Rlp.encodeString ++ tail) := by
          rw [hframed.content_eq, List.flatMap_cons, List.append_assoc]
        have hstep := nextBatch_at hlib decodeBatch hcontent hsplit hat
        rw [hrest, front_encodeString hlt hdecoded.1] at hstep
        rcases hstep with ⟨hnone, -⟩ | ⟨batch', after, hfront, r', hcall, hat'⟩
        · cases hnone
        · cases hfront
          have hsplit' : content = (before ++ Rlp.encodeString bytes) ++
              (payloads.flatMap Rlp.encodeString ++ tail) := by
            rw [hsplit, hrest, List.append_assoc]
          have hcursor : content.length - (payloads.flatMap Rlp.encodeString ++ tail).length =
              (before ++ Rlp.encodeString bytes).length := by
            rw [hsplit']
            simp only [List.length_append]
            omega
          rw [hcursor] at hat'
          obtain ⟨r'', hcalls, hat''⟩ := ih hsplit'
            ⟨rfl, fun b hb => hframed.sizes b (List.mem_cons_of_mem _ hb), hdecoded.2,
              hframed.stuck⟩ hat'
          refine ⟨r'', ?_, ?_⟩
          · rw [nextBatches, hcall, Option.bind_some, hcalls, Option.map_some,
              List.range_succ_eq_map, List.map_cons, List.map_map]
            rfl
          · rwa [List.take_succ_cons, List.flatMap_cons, ← List.append_assoc]

end Reading

/-- The calls of a channel's reader return exactly the batches before the first element that holds
none, in their order, and then nothing. The cursor stands behind the batches returned, moves
forward with each of them and never passes the end of the content or the limit; what lies beyond
the limit is not part of the content. -/
theorem batches_framed {σ B : Type} {lib : Decompressors σ}
    {zlibContent brotliContent : Bytes → Bytes} (hlib : lib.Correct zlibContent brotliContent)
    (decodeBatch : Bytes → Option B) (data : Bytes) (limit : Nat) (brotliSupported : Bool) :
    let content := (channelContent zlibContent brotliContent brotliSupported data).take limit
    (∃ payloads batches tail, Framed decodeBatch content payloads batches tail) ∧
    ∀ payloads batches tail, Framed decodeBatch content payloads batches tail → ∀ n, ∃ r,
      nextBatches lib decodeBatch n (new data limit brotliSupported) =
        some ((List.range n).map (batches[·]?), r) ∧
      r.cursor = ((payloads.take n).flatMap Rlp.encodeString).length ∧
      r.cursor ≤ content.length ∧ content.length ≤ limit ∧
      ∀ batch r', nextBatch lib decodeBatch r = some (some batch, r') →
        r.cursor < r'.cursor ∧ r'.cursor ≤ content.length := by
  intro content
  refine ⟨exists_framed decodeBatch content, fun payloads batches tail hframed n => ?_⟩
  have hstart : content = [] ++ content := rfl
  obtain ⟨r, hcalls, hat⟩ := nextBatches_at hlib rfl n hstart hframed ⟨rfl, Or.inl rfl⟩
  have hsplit : content = (payloads.take n).flatMap Rlp.encodeString ++
      ((payloads.drop n).flatMap Rlp.encodeString ++ tail) := by
    rw [← List.append_assoc, ← List.flatMap_append, List.take_append_drop]
    exact hframed.content_eq
  have hlimit : content.length ≤ limit := by
    simp only [content, List.length_take]
    omega
  have hend : r.cursor ≤ content.length := by
    rw [hat.1, hsplit]
    simp
  refine ⟨r, hcalls, hat.1, hend, hlimit, fun batch r' hcall => ?_⟩
  rcases nextBatch_at hlib decodeBatch rfl hsplit hat with
    ⟨-, r₁, hnone, -⟩ | ⟨batch₁, after, hfront, r₁, hsome, hat₁⟩
  · rw [hnone] at hcall
    cases hcall
  · rw [hsome] at hcall
    obtain ⟨-, rfl⟩ := Prod.mk.inj (Option.some.inj hcall)
    rw [hat.1, hat₁.1]
    exact cursor_advances hsplit hfront

/-- What a zlib stream of one stored block holds. -/
def zlibStored : Bytes → Bytes
  | 0x78 :: 0x01 :: 0x01 :: lo :: hi :: _ :: _ :: rest => rest.take (lo.toNat + 256 * hi.toNat)
  | _ => []

/-- What a brotli stream of one uncompressed meta-block holds. -/
def brotliStored : Bytes → Bytes
  | lo :: mid :: hi :: rest =>
    let header := lo.toNat + 256 * mid.toNat + 65536 * hi.toNat
    if header % 16 = 0 ∧ header / 2 ^ 20 = 1 then rest.take (header / 16 % 2 ^ 16 + 1) else []
  | _ => []

/-- Libraries for such streams. -/
def stored : Decompressors Bytes where
  decompressToVecZlibWithLimit data limit :=
    if (zlibStored data).length ≤ limit then .ok (zlibStored data)
    else .error ⟨.hasMoreOutput, (zlibStored data).take limit⟩
  brotliState := brotliStored
  brotliDecompressStream left availableOut :=
    if left.length ≤ availableOut then (.success, left, [])
    else (.needsMoreOutput, left.take availableOut, left.drop availableOut)

theorem stored_correct : stored.Correct zlibStored brotliStored where
  zlib_ok data limit out h := by
    dsimp only [stored] at h
    split at h
    · rename_i hle
      rw [← Except.ok.inj h, List.take_of_length_le hle]
    · cases h
  zlib_error data limit e h := by
    dsimp only [stored] at h
    split at h
    · cases h
    · rw [← Except.error.inj h]
  brotli := by
    refine ⟨id, fun _ => rfl, fun state availableOut result bytes state' h => ?_⟩
    dsimp only [stored] at h
    split at h
    · rename_i hle
      obtain ⟨rfl, rfl, rfl⟩ : _ ∧ _ ∧ _ := by simpa using h
      exact ⟨(List.append_nil _).symm, hle, nofun, fun _ => rfl⟩
    · rename_i hlong
      obtain ⟨rfl, rfl, rfl⟩ : _ ∧ _ ∧ _ := by simpa using h
      have hfull : (state.take availableOut).length = availableOut :=
        List.length_take_of_le (by omega)
      exact ⟨(List.take_append_drop _ _).symm, Nat.le_of_eq hfull, fun _ => hfull,
        fun h => absurd rfl h⟩

/-- Two batches of a channel whose third one lies beyond the limit, in either format. -/
theorem batches_framed_cut :
    (∃ r, nextBatches stored (·.head?) 3 (new [0x78, 1, 1, 5, 0, 0xfa, 0xff, 0x82, 7, 8, 5, 6, 2,
      0xd3, 0, 0x9d] 4 true) = some ([some 7, some 5, none], r) ∧ r.cursor = 4) ∧
    ∃ r, nextBatches stored (·.head?) 3 (new [1, 0x40, 0, 0x10, 0x82, 7, 8, 5, 6, 3] 4 true) =
      some ([some 7, some 5, none], r) ∧ r.cursor = 4 := by
  have hframed : Framed (B := UInt8) (·.head?) [0x82, 7, 8, 5] [[7, 8], [5]] [7, 5] [] :=
    ⟨by decide, by decide, by decide, by decide⟩
  constructor
  · obtain ⟨r, hcalls, hcursor, -⟩ := (batches_framed stored_correct (·.head?) [0x78, 1, 1, 5, 0,
      0xfa, 0xff, 0x82, 7, 8, 5, 6, 2, 0xd3, 0, 0x9d] 4 true).2 [[7, 8], [5]] [7, 5] [] hframed 3
    exact ⟨r, hcalls.trans (by simp [List.range_succ]), hcursor⟩
  · obtain ⟨r, hcalls, hcursor, -⟩ := (batches_framed stored_correct (·.head?)
      [1, 0x40, 0, 0x10, 0x82, 7, 8, 5, 6, 3] 4 true).2 [[7, 8], [5]] [7, 5] [] hframed 3
    exact ⟨r, hcalls.trans (by simp [List.range_succ]), hcursor⟩

end BatchReader
end SciChain.Derive
