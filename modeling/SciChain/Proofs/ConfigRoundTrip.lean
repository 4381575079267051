import SciChain.Derive.SystemConfig

namespace SciChain.Derive.Calldata
open Library L1BlockInfoEcotoneBase RollupConfig L1BlockInfoJovian HoloceneExtraData

@[simp] theorem length_bedrockSelector : L1BlockInfoBedrock.l1InfoTxSelector.length = 4 := by
  simp [L1BlockInfoBedrock.l1InfoTxSelector]

@[simp] theorem length_ecotoneSelector : L1BlockInfoEcotone.l1InfoTxSelector.length = 4 := by
  simp [L1BlockInfoEcotone.l1InfoTxSelector]

@[simp] theorem length_isthmusSelector : L1BlockInfoIsthmus.l1InfoTxSelector.length = 4 := by
  simp [L1BlockInfoIsthmus.l1InfoTxSelector]

@[simp] theorem length_jovianSelector : L1BlockInfoJovian.l1InfoTxSelector.length = 4 := by
  simp [l1InfoTxSelector]

theorem L1BlockInfoBedrock.decodeCalldata_encodeCalldata (info : L1BlockInfoBedrock) :
    decodeCalldata info.encodeCalldata = .ok info := by
  have hlen : info.encodeCalldata.length = l1InfoTxLen := by simp [encodeCalldata, l1InfoTxLen]
  rw [decodeCalldata, reject_neg (by simp [hlen]), bind_value]
  simp [encodeCalldata]

namespace L1BlockInfoEcotoneBase

variable (info : L1BlockInfoEcotoneBase) {selector : Bytes} (rest : Bytes)

theorem decodeCalldataBody_encodeCalldataBody (h : selector.length = 4) :
    decodeCalldataBody (selector ++ info.encodeCalldataBody rest) = info := by
  simp [decodeCalldataBody, encodeCalldataBody, h]

theorem length_encodeCalldataBody : (info.encodeCalldataBody rest).length = 160 + rest.length := by
  simp only [encodeCalldataBody, List.length_append, length_beBytes]
  omega

theorem wordAt_rest (h : selector.length = 4) (hlo : 164 ≤ lo) :
    wordAt w (selector ++ info.encodeCalldataBody rest) lo hi =
      wordAt w rest (lo - 164) (hi - 164) := by
  have hsplit : selector ++ info.encodeCalldataBody rest =
      (selector ++ info.encodeCalldataBody []) ++ rest := by
    simp [encodeCalldataBody]
  have hlen : (selector ++ info.encodeCalldataBody []).length = 164 := by
    rw [List.length_append, length_encodeCalldataBody, h, List.length_nil]
  rw [hsplit, wordAt_append (by omega), hlen]

end L1BlockInfoEcotoneBase

theorem L1BlockInfoEcotone.decodeCalldata_encodeCalldata (info : L1BlockInfoEcotone) :
    decodeCalldata info.encodeCalldata = .ok ⟨info.toL1BlockInfoEcotoneBase, false, 0⟩ := by
  have hlen : info.encodeCalldata.length = l1InfoTxLen := by
    simp [encodeCalldata, l1InfoTxLen, length_encodeCalldataBody]
  rw [decodeCalldata, reject_neg (by simp [hlen]), bind_value, encodeCalldata,
    decodeCalldataBody_encodeCalldataBody _ _ length_ecotoneSelector]

theorem L1BlockInfoIsthmus.decodeCalldataBody_encodeCalldataBody (info : L1BlockInfoIsthmus)
    (rest : Bytes) (h : selector.length = 4) :
    decodeCalldataBody (selector ++ info.encodeCalldataBody rest) = info := by
  rw [decodeCalldataBody, encodeCalldataBody,
    L1BlockInfoEcotoneBase.decodeCalldataBody_encodeCalldataBody _ _ h,
    L1BlockInfoEcotoneBase.wordAt_rest _ _ h (by omega),
    L1BlockInfoEcotoneBase.wordAt_rest _ _ h (by omega)]
  simp

theorem L1BlockInfoIsthmus.length_encodeCalldataBody (info : L1BlockInfoIsthmus) (rest : Bytes) :
    (info.encodeCalldataBody rest).length = 172 + rest.length := by
  rw [encodeCalldataBody, L1BlockInfoEcotoneBase.length_encodeCalldataBody]
  simp only [List.length_append, length_beBytes]
  omega

theorem L1BlockInfoIsthmus.decodeCalldata_encodeCalldata (info : L1BlockInfoIsthmus) :
    decodeCalldata info.encodeCalldata = .ok info := by
  have hlen : info.encodeCalldata.length = l1InfoTxLen := by
    simp [encodeCalldata, l1InfoTxLen, length_encodeCalldataBody]
  rw [decodeCalldata, reject_neg (by simp [hlen]), bind_value, encodeCalldata,
    decodeCalldataBody_encodeCalldataBody _ _ length_isthmusSelector]

theorem L1BlockInfoJovian.decodeCalldata_encodeCalldata (info : L1BlockInfoJovian) :
    decodeCalldata info.encodeCalldata =
      .ok ⟨info.toL1BlockInfoIsthmus, footprintOrDefault info.daFootprintGasScalar⟩ := by
  have hlen : info.encodeCalldata.length = l1InfoTxLen := by
    simp [encodeCalldata, l1InfoTxLen, L1BlockInfoIsthmus.length_encodeCalldataBody]
  have hfootprint : wordAt 16 info.encodeCalldata 176 178 = info.daFootprintGasScalar := by
    rw [encodeCalldata, L1BlockInfoIsthmus.encodeCalldataBody,
      wordAt_rest _ _ length_jovianSelector (by omega)]
    simp
  rw [decodeCalldata, reject_neg (by simp [hlen]), bind_value, hfootprint, encodeCalldata,
    L1BlockInfoIsthmus.decodeCalldataBody_encodeCalldataBody _ _ length_jovianSelector]

namespace L1BlockInfoTx

/-- What a decoder reads from the calldata: the fields that are not in it have their
defaults. -/
def normal : L1BlockInfoTx → L1BlockInfoTx
  | bedrock info => .bedrock info
  | ecotone info => .ecotone ⟨info.toL1BlockInfoEcotoneBase, false, 0⟩
  | isthmus info => .isthmus info
  | jovian info => .jovian ⟨info.toL1BlockInfoIsthmus,
      L1BlockInfoJovian.footprintOrDefault info.daFootprintGasScalar⟩

theorem take_selector (h : selector.length = 4) (rest : Bytes) :
    (selector ++ rest).take 4 = selector ∧ ¬(selector ++ rest).length < 4 := by
  refine ⟨List.take_left' h, ?_⟩
  rw [List.length_append]
  omega

theorem decodeCalldata_encodeCalldata (info : L1BlockInfoTx) :
    decodeCalldata info.encodeCalldata = .ok info.normal := by
  cases info with
  | bedrock info =>
    obtain ⟨htake, hlen⟩ : info.encodeCalldata.take 4 = L1BlockInfoBedrock.l1InfoTxSelector ∧
        ¬info.encodeCalldata.length < 4 := take_selector length_bedrockSelector _
    rw [encodeCalldata, decodeCalldata, if_neg hlen, htake, if_pos rfl,
      info.decodeCalldata_encodeCalldata]
    rfl
  | ecotone info =>
    obtain ⟨htake, hlen⟩ : info.encodeCalldata.take 4 = L1BlockInfoEcotone.l1InfoTxSelector ∧
        ¬info.encodeCalldata.length < 4 := take_selector length_ecotoneSelector _
    rw [encodeCalldata, decodeCalldata, if_neg hlen, htake, if_neg (by decide), if_pos rfl,
      info.decodeCalldata_encodeCalldata]
    rfl
  | isthmus info =>
    obtain ⟨htake, hlen⟩ : info.encodeCalldata.take 4 = L1BlockInfoIsthmus.l1InfoTxSelector ∧
        ¬info.encodeCalldata.length < 4 := take_selector length_isthmusSelector _
    rw [encodeCalldata, decodeCalldata, if_neg hlen, htake, if_neg (by decide),
      if_neg (by decide), if_pos rfl, info.decodeCalldata_encodeCalldata]
    rfl
  | jovian info =>
    obtain ⟨htake, hlen⟩ : info.encodeCalldata.take 4 = l1InfoTxSelector ∧
        ¬info.encodeCalldata.length < 4 := take_selector length_jovianSelector _
    rw [encodeCalldata, decodeCalldata, if_neg hlen, htake, if_neg (by decide),
      if_neg (by decide), if_neg (by decide), if_pos rfl, info.decodeCalldata_encodeCalldata]
    rfl

end L1BlockInfoTx

theorem beBytes_encodeScalar (blob base : U32) :
    beBytes 32 (encodeScalar blob base).toNat =
      1 :: (List.replicate 23 0 ++ (beBytes 4 blob.toNat ++ beBytes 4 base.toNat)) := by
  generalize hb : (1 :: (List.replicate 23 0 ++ (beBytes 4 blob.toNat ++ beBytes 4 base.toNat)) :
    Bytes) = bytes
  have hlen : bytes.length = 32 := by simp [← hb]
  have hlt : beValue bytes < 256 ^ bytes.length := beValue_lt bytes
  rw [encodeScalar, hb, BitVec.toNat_ofNat, Nat.mod_eq_of_lt (by rw [hlen] at hlt; simpa using hlt),
    ← hlen]
  exact beBytes_beValue bytes

namespace SystemConfig

theorem scalars_encodeScalar {c : SystemConfig} (h : c.scalar = encodeScalar blob base) :
    c.blobBaseFeeScalar = blob ∧ c.baseFeeScalar = base := by
  have hbytes : beBytes 32 c.scalar.toNat = (1 :: List.replicate 23 0) ++
      (beBytes 4 blob.toNat ++ (beBytes 4 base.toNat ++ [])) := by
    rw [h, beBytes_encodeScalar, List.append_nil]
    rfl
  have hhead : (beBytes 32 c.scalar.toNat).head? = some L1BlockInfoEcotone.l1Scalar := by
    rw [hbytes]
    rfl
  rw [blobBaseFeeScalar, if_pos hhead, baseFeeScalar, hbytes]
  simp

end SystemConfig

section Forks

variable {cfg : RollupConfig} {t t' : U64}

/-- No upgrade that changes the system configuration or its carriers starts at `t`. -/
structure NotFirst (cfg : RollupConfig) (t : U64) : Prop where
  ecotone : cfg.isFirstEcotoneBlock t = false
  holocene : cfg.isFirstHoloceneBlock t = false
  isthmus : cfg.isFirstIsthmusBlock t = false
  jovian : cfg.isFirstJovianBlock t = false

/-- The same of these upgrades are active. -/
structure SameForks (cfg : RollupConfig) (t t' : U64) : Prop where
  ecotone : cfg.isEcotoneActive t' = cfg.isEcotoneActive t
  holocene : cfg.isHoloceneActive t' = cfg.isHoloceneActive t
  isthmus : cfg.isIsthmusActive t' = cfg.isIsthmusActive t
  jovian : cfg.isJovianActive t' = cfg.isJovianActive t

theorem notFirst_mono {active : U64 → Bool} {blockTime : U64}
    (hmono : ∀ {a b}, a ≤ b → active a = true → active b = true) (hle : t ≤ t')
    (hsame : active t' = active t)
    (h : (active t && !active (satSub t blockTime)) = false) :
    (active t' && !active (satSub t' blockTime)) = false := by
  rw [hsame]
  cases hactive : active t with
  | false => rfl
  | true =>
    rw [hactive, Bool.true_and, Bool.not_eq_false'] at h
    rw [Bool.true_and, Bool.not_eq_false']
    refine hmono ?_ h
    rw [BitVec.le_def, toNat_satSub, toNat_satSub]
    rw [BitVec.le_def] at hle
    omega

theorem NotFirst.mono (h : NotFirst cfg t) (hle : t ≤ t') (hsame : SameForks cfg t t') :
    NotFirst cfg t' where
  ecotone := notFirst_mono isEcotoneActive_mono hle hsame.ecotone h.ecotone
  holocene := notFirst_mono isHoloceneActive_mono hle hsame.holocene h.holocene
  isthmus := notFirst_mono isIsthmusActive_mono hle hsame.isthmus h.isthmus
  jovian := notFirst_mono isJovianActive_mono hle hsame.jovian h.jovian

end Forks

open SciChain.Derive.Calldata.L1BlockInfoTx (tryNew bedrockBase ecotoneBase isthmusInfo normal
  configScalar)

section L1Info

variable {cfg : RollupConfig} {schedule : BlobSchedule} {c r : SystemConfig} {seq : U64}
  {header : L1Header} {t t' : U64}

/-- Two configurations give the same L1 info under the upgrades of `t`. -/
structure Agree (cfg : RollupConfig) (t : U64) (c r : SystemConfig) : Prop where
  batcher : r.batcherAddress = c.batcherAddress
  bedrock : cfg.isEcotoneActive t = false → r.overhead = c.overhead ∧ r.scalar = c.scalar
  scalars : cfg.isEcotoneActive t = true →
    r.blobBaseFeeScalar = c.blobBaseFeeScalar ∧ r.baseFeeScalar = c.baseFeeScalar
  operator : cfg.isIsthmusActive t = true →
    r.operatorFeeScalar.getD 0 = c.operatorFeeScalar.getD 0 ∧
      r.operatorFeeConstant.getD 0 = c.operatorFeeConstant.getD 0
  footprint : cfg.isJovianActive t = true →
    L1BlockInfoJovian.footprintOrDefault
        (r.daFootprintGasScalar.getD L1BlockInfoJovian.defaultDaFootprintGasScalar) =
      L1BlockInfoJovian.footprintOrDefault
        (c.daFootprintGasScalar.getD L1BlockInfoJovian.defaultDaFootprintGasScalar)

theorem isIsthmusActive_of_jovian (h : cfg.isJovianActive t = true) :
    cfg.isIsthmusActive t = true := by rw [isIsthmusActive, h, Bool.or_true]

theorem isEcotoneActive_of_isthmus (h : cfg.isIsthmusActive t = true) :
    cfg.isEcotoneActive t = true := by
  simp only [isEcotoneActive, isFjordActive, isGraniteActive,
    isHoloceneActive, h, Bool.or_true]

theorem Agree.tryNew_eq (h : Agree cfg t c r) (hfirst : NotFirst cfg t') (hsame : SameForks cfg t t')
    (seq : U64) (header : L1Header) :
    tryNew cfg schedule r seq header t' =
      tryNew cfg schedule c seq header t' := by
  have hbase : bedrockBase r seq header = bedrockBase c seq header := by
    rw [bedrockBase, bedrockBase, h.batcher]
  simp only [tryNew, hfirst.ecotone, hfirst.isthmus, hfirst.jovian, hsame.ecotone,
    hsame.isthmus, hsame.jovian, hbase]
  cases hecotone : cfg.isEcotoneActive t with
  | false =>
    obtain ⟨hoverhead, hscalar⟩ := h.bedrock hecotone
    simp [hoverhead, hscalar]
  | true =>
    obtain ⟨hblob, hbasefee⟩ := h.scalars hecotone
    have heco : ecotoneBase schedule r seq header =
        ecotoneBase schedule c seq header := by
      rw [ecotoneBase, ecotoneBase, hbase, hblob, hbasefee]
    have histhmus : cfg.isIsthmusActive t = true → isthmusInfo schedule r seq header =
        isthmusInfo schedule c seq header := by
      intro hactive
      obtain ⟨hscalar, hconstant⟩ := h.operator hactive
      rw [isthmusInfo, isthmusInfo, heco, hscalar, hconstant]
    cases hjovian : cfg.isJovianActive t with
    | true => simp [histhmus (isIsthmusActive_of_jovian hjovian), h.footprint hjovian]
    | false =>
      cases hact : cfg.isIsthmusActive t with
      | true => simp [histhmus hact]
      | false => simp [heco]

theorem footprintOrDefault_idem (scalar : U16) :
    L1BlockInfoJovian.footprintOrDefault (L1BlockInfoJovian.footprintOrDefault scalar) =
      L1BlockInfoJovian.footprintOrDefault scalar := by
  unfold footprintOrDefault
  split <;> rfl

end L1Info

section ExtraData

variable {cfg : RollupConfig} {defaults : BaseFeeParams}

/-- The denominator and the elasticity as `eip1559Params` packs them. -/
def packParams (denominator elasticity : U32) : Bytes :=
  beBytes 4 denominator.toNat ++ (beBytes 4 elasticity.toNat ++ [])

theorem wordAt_packParams (d e : U32) :
    wordAt 32 (packParams d e) 0 4 = d ∧ wordAt 32 (packParams d e) 4 8 = e := by
  simp [packParams]

theorem packParams_eq (d e : U32) : packParams d e = beBytes 4 d.toNat ++ beBytes 4 e.toNat := by
  rw [packParams, List.append_nil]

theorem encodeEip1559Params_of_ne_zero (h : (packParams d e).all (· = 0) ≠ true) :
    encodeEip1559Params (packParams d e) defaults = .ok (packParams d e) := by
  rw [encodeEip1559Params, if_neg h, (wordAt_packParams d e).1, (wordAt_packParams d e).2,
    packParams_eq]

/-- Encoding what was encoded gives it again, also where the defaults took the place of zeros. -/
theorem encodeEip1559Params_idem (h : encodeEip1559Params (packParams x y) defaults = .ok encoded) :
    ∃ d e, encoded = packParams d e ∧
      encodeEip1559Params (packParams d e) defaults = .ok encoded := by
  by_cases hzero : (packParams x y).all (· = 0) = true
  · rw [encodeEip1559Params, if_pos hzero] at h
    have hdefaults := h
    obtain ⟨hdenominator, h⟩ := (reject_bind_ok _ _ _ _).mp h
    obtain ⟨helasticity, h⟩ := (reject_bind_ok _ _ _ _).mp h
    have hencoded : encoded = packParams (BitVec.ofNat 32 defaults.maxChangeDenominator.toNat)
        (BitVec.ofNat 32 defaults.elasticityMultiplier.toNat) := by
      rw [packParams_eq, BitVec.toNat_ofNat, BitVec.toNat_ofNat, Nat.mod_eq_of_lt (by omega),
        Nat.mod_eq_of_lt (by omega)]
      exact (Except.ok.inj h).symm
    refine ⟨_, _, hencoded, ?_⟩
    by_cases hagain : (packParams (BitVec.ofNat 32 defaults.maxChangeDenominator.toNat)
        (BitVec.ofNat 32 defaults.elasticityMultiplier.toNat)).all (· = 0) = true
    · rw [encodeEip1559Params, if_pos hagain]
      exact hdefaults
    · rw [encodeEip1559Params_of_ne_zero hagain, hencoded]
  · rw [encodeEip1559Params_of_ne_zero hzero] at h
    cases h
    exact ⟨x, y, rfl, encodeEip1559Params_of_ne_zero hzero⟩

theorem HoloceneExtraData.decode_pack (d e : U32) :
    decode (versionByte :: packParams d e) = .ok (e, d) := by
  have hshape : versionByte :: packParams d e =
      [versionByte] ++ (beBytes 4 d.toNat ++ (beBytes 4 e.toNat ++ [])) := rfl
  have hlen : (versionByte :: packParams d e).length = 9 := by simp [packParams]
  rw [decode, reject_neg (by simp [hlen]), bind_value, reject_neg (by simp), bind_value, hshape]
  simp

theorem JovianExtraData.decode_pack (d e : U32) (m : U64) :
    decode (versionByte :: (packParams d e ++ beBytes 8 m.toNat)) = .ok (e, d, m) := by
  have hshape : versionByte :: (packParams d e ++ beBytes 8 m.toNat) =
      [versionByte] ++ (beBytes 4 d.toNat ++ (beBytes 4 e.toNat ++ (beBytes 8 m.toNat ++ []))) := by
    simp [packParams]
  have hlen : (versionByte :: (packParams d e ++ beBytes 8 m.toNat)).length = 17 := by
    simp [packParams]
  rw [decode, reject_neg (by simp [hlen]), bind_value, reject_neg (by simp), bind_value, hshape]
  simp

end ExtraData

/-- A block that carries the attributes: its first transaction is their L1 info deposit, and
its header has their time, gas limit and extra data. -/
structure Carries (cfg : RollupConfig) (defaults : BaseFeeParams) (attrs : PayloadAttributes)
    (block : ConfigBlock) : Prop where
  first : ∃ encoded rest, block.transactions = .deposit attrs.l1Info encoded :: rest
  timestamp : block.header.timestamp = attrs.timestamp
  gasLimit : block.header.gasLimit = attrs.gasLimit
  extraData : headerExtraData cfg defaults attrs = .ok block.header.extraData

section RoundTrip

variable {cfg : RollupConfig} {schedule : BlobSchedule} {defaults : BaseFeeParams}
  {c : SystemConfig} {seq : U64} {header : L1Header} {p : U64} {block : ConfigBlock}

/-- The parameters of a configuration as they are packed. -/
def SystemConfig.packed (c : SystemConfig) : Bytes :=
  packParams (c.eip1559Denominator.getD 0) (c.eip1559Elasticity.getD 0)

theorem isHoloceneActive_of_jovian (h : cfg.isJovianActive t = true) :
    cfg.isHoloceneActive t = true := by
  rw [isHoloceneActive, isIsthmusActive_of_jovian h, Bool.or_true]

theorem parent_holocene (hp : p.toNat + cfg.blockTime.toNat < 2 ^ 64)
    (hfirst : NotFirst cfg (p + cfg.blockTime))
    (h : cfg.isHoloceneActive (p + cfg.blockTime) = true) : cfg.isHoloceneActive p = true := by
  have hparent : satSub (p + cfg.blockTime) cfg.blockTime = p := by
    apply BitVec.eq_of_toNat_eq
    rw [toNat_satSub, BitVec.toNat_add, Nat.mod_eq_of_lt hp, Nat.add_sub_cancel]
  have hnot := hfirst.holocene
  rwa [isFirstHoloceneBlock, h, hparent, Bool.true_and, Bool.not_eq_false'] at hnot

section

variable (hparent : cfg.isHoloceneActive (p + cfg.blockTime) = true → cfg.isHoloceneActive p = true)
include hparent

theorem headerExtraData_prepare :
    headerExtraData cfg defaults (preparePayloadAttributes cfg schedule c seq header p) =
      if cfg.isJovianActive (p + cfg.blockTime) then
        JovianExtraData.encode c.packed defaults (c.minBaseFee.getD 0)
      else if cfg.isHoloceneActive (p + cfg.blockTime) then
        HoloceneExtraData.encode c.packed defaults
      else .ok [] := by
  have hparams : cfg.isHoloceneActive (p + cfg.blockTime) = true →
      c.eip1559Params cfg p (p + cfg.blockTime) = some c.packed := by
    intro h
    simp [SystemConfig.eip1559Params, h, hparent h, SystemConfig.packed, packParams]
  simp only [headerExtraData, preparePayloadAttributes]
  by_cases hjovian : cfg.isJovianActive (p + cfg.blockTime) = true
  · simp [hjovian, hparams (isHoloceneActive_of_jovian hjovian)]
  · by_cases hholocene : cfg.isHoloceneActive (p + cfg.blockTime) = true
    · simp [hjovian, hholocene, hparams hholocene]
    · simp [hjovian, hholocene]

/-- What the header says about the parameters encodes to the same extra data again. -/
theorem headerParams_of_carries
    (h : Carries cfg defaults (preparePayloadAttributes cfg schedule c seq header p) block) :
    ∃ denominator elasticity minBaseFee,
      headerParams cfg block.header = .ok (denominator, elasticity, minBaseFee) ∧
      (cfg.isHoloceneActive (p + cfg.blockTime) = true →
        encodeEip1559Params (packParams (denominator.getD 0) (elasticity.getD 0)) defaults =
          encodeEip1559Params c.packed defaults) ∧
      (cfg.isJovianActive (p + cfg.blockTime) = true →
        minBaseFee.getD 0 = c.minBaseFee.getD 0) := by
  have htime : block.header.timestamp = p + cfg.blockTime := h.timestamp
  have hextra := h.extraData
  rw [headerExtraData_prepare hparent] at hextra
  rw [headerParams, htime]
  cases hjovian : cfg.isJovianActive (p + cfg.blockTime) with
  | true =>
    rw [hjovian, if_pos rfl, JovianExtraData.encode] at hextra
    obtain ⟨encoded, hencoded, hbytes⟩ := (bind_ok _ _ _).mp hextra
    obtain ⟨d, e, rfl, hagain⟩ := encodeEip1559Params_idem hencoded
    refine ⟨some d, some e, some (c.minBaseFee.getD 0), ?_, fun _ => hagain.trans hencoded.symm,
      fun _ => rfl⟩
    rw [if_pos rfl, ← Except.ok.inj hbytes, JovianExtraData.decode_pack, bind_value]
  | false =>
    rw [hjovian, if_neg (by decide)] at hextra
    rw [if_neg (by decide)]
    cases hholocene : cfg.isHoloceneActive (p + cfg.blockTime) with
    | true =>
      rw [hholocene, if_pos rfl, encode] at hextra
      obtain ⟨encoded, hencoded, hbytes⟩ := (bind_ok _ _ _).mp hextra
      obtain ⟨d, e, rfl, hagain⟩ := encodeEip1559Params_idem hencoded
      refine ⟨some d, some e, none, ?_, fun _ => hagain.trans hencoded.symm, by simp⟩
      rw [if_pos rfl, ← Except.ok.inj hbytes, decode_pack, bind_value]
    | false => exact ⟨none, none, none, if_neg (by decide), by simp, by simp⟩

end

/-- The configuration that is read from a block. -/
def recovered (cfg : RollupConfig) (info : L1BlockInfoTx) (t gasLimit : U64)
    (denominator elasticity : Option U32) (minBaseFee : Option U64) : SystemConfig where
  batcherAddress := info.batcherAddress
  overhead := info.l1FeeOverhead
  scalar := info.configScalar
  gasLimit
  eip1559Denominator := denominator
  eip1559Elasticity := elasticity
  operatorFeeScalar := if cfg.isIsthmusActive t then some info.operatorFeeScalar else none
  operatorFeeConstant := if cfg.isIsthmusActive t then some info.operatorFeeConstant else none
  minBaseFee
  daFootprintGasScalar := info.daFootprint

/-- A configuration read from the L1 info of a block agrees with the one it was built from. -/
theorem agree_recovered (schedule : BlobSchedule) (c : SystemConfig) (seq : U64)
    (header : L1Header) (hfirst : NotFirst cfg t) (gasLimit : U64) (d e : Option U32)
    (m : Option U64) :
    Agree cfg t c (recovered cfg (tryNew cfg schedule c seq header t).normal t gasLimit
      d e m) := by
  cases hecotone : cfg.isEcotoneActive t with
  | false =>
    have histhmus (h : cfg.isIsthmusActive t = true) : False := by
      rw [isEcotoneActive_of_isthmus h] at hecotone
      cases hecotone
    rw [tryNew, if_pos (by simp [hecotone])]
    exact ⟨rfl, fun _ => ⟨rfl, rfl⟩, by simp [hecotone], fun h => (histhmus h).elim,
      fun h => (histhmus (isIsthmusActive_of_jovian h)).elim⟩
  | true =>
    rw [tryNew, if_neg (by simp [hecotone, hfirst.ecotone])]
    cases hjovian : cfg.isJovianActive t with
    | true =>
      have histhmus := isIsthmusActive_of_jovian hjovian
      rw [if_pos ⟨rfl, by simp [hfirst.jovian]⟩]
      simp only [recovered, histhmus, if_true, normal, configScalar,
        isthmusInfo, ecotoneBase]
      refine ⟨rfl, by simp [hecotone], fun _ => SystemConfig.scalars_encodeScalar rfl,
        fun _ => ⟨rfl, rfl⟩, fun _ => ?_⟩
      exact (footprintOrDefault_idem _).trans (footprintOrDefault_idem _)
    | false =>
      rw [if_neg (by simp)]
      cases histhmus : cfg.isIsthmusActive t with
      | true =>
        rw [if_pos ⟨rfl, by simp [hfirst.isthmus]⟩]
        simp only [recovered, histhmus, if_true, normal, configScalar,
          isthmusInfo, ecotoneBase]
        exact ⟨rfl, by simp [hecotone], fun _ => SystemConfig.scalars_encodeScalar rfl,
          fun _ => ⟨rfl, rfl⟩, by simp [hjovian]⟩
      | false =>
        rw [if_neg (by simp)]
        simp only [recovered, normal, configScalar,
          ecotoneBase]
        exact ⟨rfl, by simp [hecotone], fun _ => SystemConfig.scalars_encodeScalar rfl,
          by simp [histhmus], by simp [hjovian]⟩

theorem toSystemConfig_eq_recovered {info : L1BlockInfoTx}
    (hnumber : block.header.number ≠ cfg.genesis.l2.number)
    (htxs : block.transactions = .deposit info.encodeCalldata encoded :: rest)
    (hparams : headerParams cfg block.header = .ok (d, e, m)) :
    toSystemConfig cfg genesisConfig block =
      .ok (recovered cfg info.normal block.header.timestamp block.header.gasLimit d e m) := by
  unfold toSystemConfig
  rw [if_neg hnumber, htxs]
  simp only [L1BlockInfoTx.decodeCalldata_encodeCalldata, mapError_value, bind_value, hparams]
  rfl

/-- The system configuration survives the trip through a block: what the attributes of any
later block under the same upgrades take from the recovered configuration is what they take
from the original. -/
theorem system_config_survives (cfg : RollupConfig) (schedule : BlobSchedule)
    (defaults : BaseFeeParams) (genesisConfig : Option SystemConfig) (c : SystemConfig) (seq : U64)
    (header : L1Header) (p : U64) (block : ConfigBlock)
    (hp : p.toNat + cfg.blockTime.toNat < 2 ^ 64) (hfirst : NotFirst cfg (p + cfg.blockTime))
    (hnumber : block.header.number ≠ cfg.genesis.l2.number)
    (hcarries : Carries cfg defaults (preparePayloadAttributes cfg schedule c seq header p) block) :
    ∃ r, toSystemConfig cfg genesisConfig block = .ok r ∧
      ∀ (seq' : U64) (header' : L1Header) (p' : U64), p ≤ p' →
        p'.toNat + cfg.blockTime.toNat < 2 ^ 64 →
        SameForks cfg (p + cfg.blockTime) (p' + cfg.blockTime) →
        let fromBlock := preparePayloadAttributes cfg schedule r seq' header' p'
        let original := preparePayloadAttributes cfg schedule c seq' header' p'
        fromBlock.l1Info = original.l1Info ∧ fromBlock.gasLimit = original.gasLimit ∧
          headerExtraData cfg defaults fromBlock = headerExtraData cfg defaults original ∧
          fromBlock.minBaseFee = original.minBaseFee := by
  obtain ⟨d, e, m, hparams, hencode, hmin⟩ :=
    headerParams_of_carries (parent_holocene hp hfirst) hcarries
  obtain ⟨encoded, rest, htxs⟩ := hcarries.first
  have htime : block.header.timestamp = p + cfg.blockTime := hcarries.timestamp
  have hgas : block.header.gasLimit = c.gasLimit := hcarries.gasLimit
  refine ⟨_, toSystemConfig_eq_recovered hnumber htxs hparams, ?_⟩
  rw [htime, hgas]
  intro seq' header' p' hle hp' hsame
  have hle' : p + cfg.blockTime ≤ p' + cfg.blockTime := by
    rw [BitVec.le_def, BitVec.toNat_add, BitVec.toNat_add, Nat.mod_eq_of_lt hp,
      Nat.mod_eq_of_lt hp']
    rw [BitVec.le_def] at hle
    omega
  have hfirst' := hfirst.mono hle' hsame
  have hagree := agree_recovered schedule c seq header hfirst c.gasLimit d e m
  refine ⟨?_, rfl, ?_, ?_⟩
  · exact congrArg L1BlockInfoTx.encodeCalldata (hagree.tryNew_eq hfirst' hsame seq' header')
  · rw [headerExtraData_prepare (parent_holocene hp' hfirst'),
      headerExtraData_prepare (parent_holocene hp' hfirst'), hsame.jovian, hsame.holocene]
    by_cases hjovian : cfg.isJovianActive (p + cfg.blockTime) = true
    · rw [if_pos hjovian, if_pos hjovian, JovianExtraData.encode, JovianExtraData.encode,
        ← hencode (isHoloceneActive_of_jovian hjovian), ← hmin hjovian]
      rfl
    · rw [if_neg hjovian, if_neg hjovian]
      by_cases hholocene : cfg.isHoloceneActive (p + cfg.blockTime) = true
      · rw [if_pos hholocene, if_pos hholocene, encode, encode,
          ← hencode hholocene]
        rfl
      · rw [if_neg hholocene, if_neg hholocene]
  · simp only [preparePayloadAttributes, hsame.jovian]
    by_cases hjovian : cfg.isJovianActive (p + cfg.blockTime) = true
    · rw [if_pos hjovian, if_pos hjovian, ← hmin hjovian]
      rfl
    · rw [if_neg hjovian, if_neg hjovian]

end RoundTrip

def jovianRollup : RollupConfig :=
  .withUpgrades ⟨some 0, some 0, some 0, some 0, some 0, some 0, some 0, some 0⟩

def cancunSchedule : BlobSchedule := ⟨fun _ => none, none, none, none⟩

/-- A configuration that leaves everything it can to the defaults. -/
def plainConfig : SystemConfig := ⟨0xba, 0, 5, 30000000, none, none, none, none, none, none⟩

def canyonParams : BaseFeeParams := ⟨250, 6⟩

def l1Header : L1Header := ⟨0xcd, 7, 100, some 9, fun _ => some 1⟩

def plainAttributes : PayloadAttributes :=
  preparePayloadAttributes jovianRollup cancunSchedule plainConfig 0 l1Header 100

def plainBlock : ConfigBlock where
  header := ⟨⟨0xab, 0xaa, 1, 102⟩, 30000000,
    [1, 0, 0, 0, 250, 0, 0, 0, 6, 0, 0, 0, 0, 0, 0, 0, 0]⟩
  transactions := [.deposit plainAttributes.l1Info []]

/-- The block of a configuration without EIP-1559 parameters holds the defaults. -/
theorem plain_config_survives :
    ∃ r, toSystemConfig jovianRollup none plainBlock = .ok r ∧
      (preparePayloadAttributes jovianRollup cancunSchedule r 1 l1Header 102).l1Info =
        (preparePayloadAttributes jovianRollup cancunSchedule plainConfig 1 l1Header 102).l1Info := by
  have hfirst : NotFirst jovianRollup (100 + jovianRollup.blockTime) :=
    ⟨by decide, by decide, by decide, by decide⟩
  have hcarries : Carries jovianRollup canyonParams plainAttributes plainBlock :=
    ⟨⟨_, _, rfl⟩, rfl, rfl, by decide +kernel⟩
  have hsame : SameForks jovianRollup (100 + jovianRollup.blockTime)
      (102 + jovianRollup.blockTime) := ⟨by decide, by decide, by decide, by decide⟩
  obtain ⟨r, hr, hlater⟩ := system_config_survives jovianRollup cancunSchedule canyonParams none
    plainConfig 0 l1Header 100 plainBlock (by decide) hfirst (by decide) hcarries
  exact ⟨r, hr, (hlater 1 l1Header 102 (by decide) (by decide) hsame).1⟩

end SciChain.Derive.Calldata
