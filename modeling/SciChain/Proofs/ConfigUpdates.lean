import SciChain.Derive.SystemConfigUpdate

namespace SciChain.Derive
open Library Calldata

/-- Words of thirty-two bytes, one after the other. -/
def abiWords (vs : List Nat) : Bytes := vs.flatMap (beBytes 32)

theorem abiWord_lt (data : Bytes) (i : Nat) : abiWord data i < 2 ^ 256 := by
  have hlen : ((data.drop (32 * i)).take 32).length ≤ 32 := by simp
  calc abiWord data i < 256 ^ ((data.drop (32 * i)).take 32).length := beValue_lt _
    _ ≤ 256 ^ 32 := Nat.pow_le_pow_right (by decide) hlen
    _ = 2 ^ 256 := by decide

theorem abiWord_zero {v : Nat} (hv : v < 2 ^ 256) (vs : List Nat) :
    abiWord (abiWords (v :: vs)) 0 = v := by
  rw [abiWord, abiWords, List.flatMap_cons, Nat.mul_zero, List.drop_zero,
    List.take_left' (length_beBytes 32 v)]
  exact beValue_beBytes (Nat.lt_of_lt_of_eq hv (by decide))

theorem abiWord_succ (v : Nat) (vs : List Nat) (i : Nat) :
    abiWord (abiWords (v :: vs)) (i + 1) = abiWord (abiWords vs) i := by
  rw [abiWord, abiWord, abiWords, List.flatMap_cons, Nat.mul_succ, Nat.add_comm (32 * i),
    ← List.drop_drop, List.drop_left' (length_beBytes 32 v)]
  rfl

theorem eq_abiWords {data : Bytes} {n : Nat} (h : data.length = 32 * n) :
    data = abiWords ((List.range n).map (abiWord data)) := by
  induction n generalizing data with
  | zero =>
    rw [List.length_eq_zero_iff.mp h]
    rfl
  | succ n ih =>
    have hhead : (data.take 32).length = 32 := by simp; omega
    have htail : (data.drop 32).length = 32 * n := by simp; omega
    have hword : beBytes 32 (abiWord data 0) = data.take 32 := by
      have h := beBytes_beValue (data.take 32)
      rwa [hhead] at h
    have hwords : (abiWord data ∘ Nat.succ) = abiWord (data.drop 32) := by
      funext i
      rw [Function.comp_apply, abiWord, abiWord, List.drop_drop, Nat.mul_succ, Nat.add_comm 32]
    rw [List.range_succ_eq_map, List.map_cons, List.map_map, hwords, abiWords, List.flatMap_cons,
      hword]
    exact ((congrArg (data.take 32 ++ ·) (ih htail).symm).trans
      (List.take_append_drop 32 data)).symm

theorem length_abiWords (vs : List Nat) : (abiWords vs).length = 32 * vs.length := by
  induction vs with
  | nil => rfl
  | cons v vs ih =>
    rw [abiWords, List.flatMap_cons, List.length_append, length_beBytes, List.length_cons]
    rw [abiWords] at ih
    omega

theorem abiDecodeValidate_ok {ε : Type} {bits i : Nat} {data : Bytes} {e : ε} {v : BitVec bits} :
    abiDecodeValidate bits data i e = .ok v ↔ abiWord data i = v.toNat := by
  unfold abiDecodeValidate
  split
  · rename_i hlt
    rw [Except.ok.injEq, ← BitVec.toNat_inj, BitVec.toNat_ofNat, Nat.mod_eq_of_lt hlt]
  · rename_i hlt
    refine ⟨nofun, fun h => absurd ?_ hlt⟩
    rw [h]
    exact v.isLt

theorem validateData_ok {dataLen : Nat} {dataLength : U64} {data : Bytes} {u : Unit} :
    validateData dataLen dataLength data = .ok u ↔
      data.length = dataLen ∧ abiWord data 0 = 32 ∧ abiWord data 1 = dataLength.toNat := by
  simp only [validateData, bind_ok, reject_ok, abiDecodeValidate_ok, ne_eq, not_not]
  constructor
  · rintro ⟨_, hlen, pointer, hpointer, _, rfl, length, hlength, rfl⟩
    exact ⟨hlen, hpointer, hlength⟩
  · rintro ⟨hlen, hpointer, hlength⟩
    exact ⟨(), hlen, 32, hpointer, (), rfl, dataLength, hlength, rfl⟩

theorem oneWord_ok {bits : Nat} (hbits : bits ≤ 256) {data : Bytes} {v : BitVec bits} :
    oneWord bits data = .ok v ↔ data = abiWords [32, 32, v.toNat] := by
  simp only [oneWord, bind_ok, validateData_ok, abiDecodeValidate_ok]
  constructor
  · rintro ⟨_, ⟨hlen, hpointer, hlength⟩, hv⟩
    rw [eq_abiWords (n := 3) hlen]
    simp only [List.range, List.range.loop, List.map_cons, List.map_nil, hpointer, hlength, hv]
    rfl
  · rintro rfl
    have hv : v.toNat < 2 ^ 256 :=
      Nat.lt_of_lt_of_le v.isLt (Nat.pow_le_pow_right (by decide) hbits)
    refine ⟨(), ⟨by rw [length_abiWords]; rfl, abiWord_zero (by decide) _, ?_⟩, ?_⟩
    · rw [abiWord_succ, abiWord_zero (by decide)]
      rfl
    · rw [abiWord_succ, abiWord_succ, abiWord_zero hv]

theorem beValue_beBytes_mod (width v : Nat) : beValue (beBytes width v) = v % 256 ^ width := by
  induction width generalizing v with
  | zero => rw [Nat.pow_zero, Nat.mod_one]; rfl
  | succ width ih =>
    have hmod : v % (256 * 256 ^ width) = v % 256 + 256 * (v / 256 % 256 ^ width) := Nat.mod_mul
    rw [beBytes, beValue_concat, ih, UInt8.toNat_ofNat',
      show 256 ^ (width + 1) = 256 * 256 ^ width from Nat.pow_succ', hmod]
    omega

theorem take_beBytes (m k v : Nat) : (beBytes (m + k) v).take m = beBytes m (v / 256 ^ k) := by
  induction k generalizing v with
  | zero => rw [Nat.pow_zero, Nat.div_one, List.take_of_length_le (by simp)]; rfl
  | succ k ih =>
    rw [← Nat.add_assoc, beBytes, List.take_append_of_le_length (by simp), ih,
      Nat.div_div_eq_div_mul, Nat.pow_succ, Nat.mul_comm 256]

theorem wordAt_abiWords (lo len k v : Nat) (vs : List Nat) (hw : 2 ^ w = 256 ^ len)
    (h : lo + len + k = 32) (hstart : start = 32 * vs.length + lo)
    (hstop : stop = 32 * vs.length + (lo + len)) :
    wordAt w (abiWords (vs ++ [v])) start stop = BitVec.ofNat w (v / 256 ^ k) := by
  have hdrop : (abiWords (vs ++ [v])).drop start = (beBytes 32 v).drop lo := by
    have hwords : abiWords (vs ++ [v]) = abiWords vs ++ beBytes 32 v := by simp [abiWords]
    rw [hstart, ← List.drop_drop, hwords, List.drop_left' (length_abiWords vs)]
  have hfield : ((beBytes 32 v).drop lo).take len = beBytes len (v / 256 ^ k) := by
    rw [← h, List.take_drop, take_beBytes, drop_beBytes]
  have hlen : stop - start = len := by omega
  rw [wordAt, hlen, hdrop, hfield]
  apply BitVec.eq_of_toNat_eq
  rw [BitVec.toNat_ofNat, BitVec.toNat_ofNat, beValue_beBytes_mod, hw, Nat.mod_mod]

namespace SystemConfigUpdate

variable {u : SystemConfigUpdate} {ecotoneActive : Bool} {data : Bytes}

/-- The data that an update stands for. The operator fee leaves the first bytes of
its word free. -/
def Encodes (ecotoneActive : Bool) (data : Bytes) : SystemConfigUpdate → Prop
  | batcher batcherAddress => data = abiWords [32, 32, batcherAddress.toNat]
  | gasConfig scalar overhead => ∃ o s : U256, data = abiWords [32, 64, o.toNat, s.toNat] ∧
      gasConfig scalar overhead = gasConfigOf ecotoneActive o s
  | gasLimit limit => data = abiWords [32, 32, limit.toNat]
  | unsafeBlockSigner signer => data = abiWords [32, 32, signer.toNat]
  | eip1559 denominator elasticity =>
      data = abiWords [32, 32, denominator.toNat * 2 ^ 32 + elasticity.toNat]
  | operatorFee scalar constant => ∃ free < 2 ^ 160,
      data = abiWords [32, 32, (free * 2 ^ 32 + scalar.toNat) * 2 ^ 64 + constant.toNat]
  | minBaseFee fee => data = abiWords [32, 32, fee.toNat]
  | daFootprintGasScalar scalar => data = abiWords [32, 32, scalar.toNat]

theorem map_oneWord_ok (hbits : bits ≤ 256) (hkind : ∀ v, (f v).kind = k)
    (hencodes : ∀ v, (f v).Encodes ecotoneActive data ↔ data = abiWords [32, 32, v.toNat])
    (hall : u.kind = k → ∃ v, f v = u) :
    (oneWord bits data).map f = .ok u ↔ u.kind = k ∧ u.Encodes ecotoneActive data := by
  rw [map_eq_ok]
  constructor
  · rintro ⟨v, hv, rfl⟩
    exact ⟨hkind v, (hencodes v).mpr ((oneWord_ok hbits).mp hv)⟩
  · rintro ⟨hu, hdata⟩
    obtain ⟨v, rfl⟩ := hall hu
    exact ⟨v, (oneWord_ok hbits).mpr ((hencodes v).mp hdata), rfl⟩

theorem gasConfigOf_kind (ecotoneActive : Bool) (overhead scalar : U256) :
    (gasConfigOf ecotoneActive overhead scalar).kind = .gasConfig := by
  unfold gasConfigOf
  split <;> rfl

theorem tryFrom_gasConfig_ok :
    tryFrom .gasConfig ecotoneActive data = .ok u ↔ ∃ o s : U256,
      data = abiWords [32, 64, o.toNat, s.toNat] ∧ u = gasConfigOf ecotoneActive o s := by
  simp only [tryFrom, bind_ok, validateData_ok, abiDecodeValidate_ok, pure_eq, Except.ok.injEq]
  constructor
  · rintro ⟨_, ⟨hlen, hpointer, hlength⟩, o, ho, s, hs, rfl⟩
    refine ⟨o, s, ?_, rfl⟩
    have hwords := eq_abiWords (n := 4) hlen
    simp only [List.range, List.range.loop, List.map_cons, List.map_nil, hpointer, hlength, ho,
      hs] at hwords
    exact hwords
  · rintro ⟨o, s, rfl, rfl⟩
    refine ⟨(), ⟨by rw [length_abiWords]; rfl, abiWord_zero (by decide) _, ?_⟩, o, ?_, s, ?_, rfl⟩
    · rw [abiWord_succ, abiWord_zero (by decide)]
      rfl
    · rw [abiWord_succ, abiWord_succ, abiWord_zero o.isLt]
    · rw [abiWord_succ, abiWord_succ, abiWord_succ, abiWord_zero s.isLt]

theorem tryFrom_operatorFee_ok :
    tryFrom .operatorFee ecotoneActive data = .ok u ↔
      ∃ (scalar : U32) (constant : U64) (free : Nat), free < 2 ^ 160 ∧
      u = operatorFee scalar constant ∧
      data = abiWords [32, 32, (free * 2 ^ 32 + scalar.toNat) * 2 ^ 64 + constant.toNat] := by
  have hfields : ∀ v, tryFrom .operatorFee ecotoneActive (abiWords [32, 32, v]) =
      .ok (operatorFee (BitVec.ofNat 32 (v / 256 ^ 8)) (BitVec.ofNat 64 v)) := by
    intro v
    have hvalid : validateData 96 32 (abiWords [32, 32, v]) = .ok () := by
      refine validateData_ok.mpr ⟨by rw [length_abiWords]; rfl, abiWord_zero (by decide) _, ?_⟩
      rw [abiWord_succ, abiWord_zero (by decide)]
      rfl
    have hscalar : wordAt 32 (abiWords [32, 32, v]) 84 88 = BitVec.ofNat 32 (v / 256 ^ 8) :=
      wordAt_abiWords 20 4 8 v [32, 32] (by decide) rfl rfl rfl
    have hconstant : wordAt 64 (abiWords [32, 32, v]) 88 96 = BitVec.ofNat 64 (v / 256 ^ 0) :=
      wordAt_abiWords 24 8 0 v [32, 32] (by decide) rfl rfl rfl
    rw [Nat.pow_zero, Nat.div_one] at hconstant
    simp only [tryFrom, hvalid, bind_value, pure_eq, hscalar, hconstant]
  constructor
  · intro h
    obtain ⟨_, hvalid, -⟩ := (bind_ok _ _ _).mp h
    obtain ⟨hlen, hpointer, hlength⟩ := validateData_ok.mp hvalid
    have hwords := eq_abiWords (n := 3) hlen
    simp only [List.range, List.range.loop, List.map_cons, List.map_nil, hpointer, hlength]
      at hwords
    have hlt := abiWord_lt data 2
    generalize abiWord data 2 = v at hwords hlt
    have hdata : data = abiWords [32, 32, v] := hwords
    rw [hdata, hfields, Except.ok.injEq] at h
    have hv : v = (v / 2 ^ 96 * 2 ^ 32 + v / 256 ^ 8 % 2 ^ 32) * 2 ^ 64 + v % 2 ^ 64 := by omega
    refine ⟨BitVec.ofNat 32 (v / 256 ^ 8), BitVec.ofNat 64 v, v / 2 ^ 96, by omega, h.symm, ?_⟩
    rw [BitVec.toNat_ofNat, BitVec.toNat_ofNat]
    exact hdata.trans (congrArg (fun x => abiWords [32, 32, x]) hv)
  · rintro ⟨scalar, constant, free, hfree, rfl, rfl⟩
    rw [hfields, Except.ok.injEq, operatorFee.injEq]
    refine ⟨BitVec.eq_of_toNat_eq ?_, BitVec.eq_of_toNat_eq ?_⟩
    · rw [BitVec.toNat_ofNat]
      omega
    · rw [BitVec.toNat_ofNat]
      omega

theorem tryFrom_ok {kind : SystemConfigUpdateKind} :
    tryFrom kind ecotoneActive data = .ok u ↔ u.kind = kind ∧ u.Encodes ecotoneActive data := by
  cases kind with
  | batcher =>
    refine map_oneWord_ok (by decide) (fun _ => rfl) (fun _ => Iff.rfl) fun h => ?_
    cases u <;> first | exact ⟨_, rfl⟩ | cases h
  | gasConfig =>
    rw [tryFrom_gasConfig_ok]
    constructor
    · rintro ⟨o, s, hdata, rfl⟩
      refine ⟨gasConfigOf_kind _ _ _, ?_⟩
      unfold gasConfigOf
      split
      · rename_i hinvalid
        exact ⟨o, s, hdata, (if_pos hinvalid).symm⟩
      · rename_i hvalid
        exact ⟨o, s, hdata, (if_neg hvalid).symm⟩
    · rintro ⟨hkind, hdata⟩
      cases u with
      | gasConfig scalar overhead => exact hdata
      | _ => cases hkind
  | gasLimit =>
    refine map_oneWord_ok (by decide) (fun _ => rfl) (fun _ => Iff.rfl) fun h => ?_
    cases u <;> first | exact ⟨_, rfl⟩ | cases h
  | unsafeBlockSigner =>
    refine map_oneWord_ok (by decide) (fun _ => rfl) (fun _ => Iff.rfl) fun h => ?_
    cases u <;> first | exact ⟨_, rfl⟩ | cases h
  | eip1559 =>
    refine map_oneWord_ok (by decide) (fun _ => rfl) (fun v => ?_) fun h => ?_
    · have hv : v.toNat / 2 ^ 32 % 2 ^ 32 * 2 ^ 32 + v.toNat % 2 ^ 32 = v.toNat := by
        omega
      simp only [Encodes, BitVec.toNat_ofNat, hv]
    · cases u with
      | eip1559 d e =>
        refine ⟨BitVec.ofNat 64 (d.toNat * 2 ^ 32 + e.toNat), ?_⟩
        rw [BitVec.toNat_ofNat, Nat.mod_eq_of_lt (by omega), eip1559.injEq]
        refine ⟨BitVec.eq_of_toNat_eq ?_, BitVec.eq_of_toNat_eq ?_⟩
        · rw [BitVec.toNat_ofNat]
          omega
        · rw [BitVec.toNat_ofNat]
          omega
      | _ => cases h
  | operatorFee =>
    rw [tryFrom_operatorFee_ok]
    constructor
    · rintro ⟨scalar, constant, free, hfree, rfl, hdata⟩
      exact ⟨rfl, free, hfree, hdata⟩
    · rintro ⟨hkind, hdata⟩
      cases u with
      | operatorFee scalar constant =>
        obtain ⟨free, hfree, hdata⟩ := hdata
        exact ⟨scalar, constant, free, hfree, rfl, hdata⟩
      | _ => cases hkind
  | minBaseFee =>
    refine map_oneWord_ok (by decide) (fun _ => rfl) (fun _ => Iff.rfl) fun h => ?_
    cases u <;> first | exact ⟨_, rfl⟩ | cases h
  | daFootprintGasScalar =>
    refine map_oneWord_ok (by decide) (fun _ => rfl) (fun _ => Iff.rfl) fun h => ?_
    cases u <;> first | exact ⟨_, rfl⟩ | cases h

end SystemConfigUpdate

theorem SystemConfigUpdateKind.code_lt (kind : SystemConfigUpdateKind) : kind.code < 8 := by
  cases kind <;> decide

theorem SystemConfigUpdateKind.ofU64_eq_some : ofU64 ty = some kind ↔ ty.toNat = kind.code := by
  constructor
  · intro h
    unfold ofU64 at h
    have hcode := List.find?_some h
    exact (of_decide_eq_true hcode).symm
  · intro h
    cases kind <;> simp [ofU64, h, code]

namespace Log

/-- A log that is an update by its topics and its data. -/
def UpdateOf (ecotoneActive : Bool) (log : Log) (u : SystemConfigUpdate) : Prop :=
  ∃ kind rest, log.topics = SystemConfigUpdate.topic :: SystemConfigUpdate.eventVersion0 ::
    kind :: rest ∧ kind.toNat = u.kind.code ∧ u.Encodes ecotoneActive log.data

/-- What `build` accepts: only the low bytes of the third topic count. -/
theorem build_ok {ecotoneActive : Bool} {log : Log} {u : SystemConfigUpdate} :
    log.build ecotoneActive = .ok u ↔ ∃ kind rest, log.topics = SystemConfigUpdate.topic ::
      SystemConfigUpdate.eventVersion0 :: kind :: rest ∧ kind.toNat % 2 ^ 64 = u.kind.code ∧
        u.Encodes ecotoneActive log.data := by
  simp only [build, bind_ok, mapError_eq_ok, validateTopic, validateVersion, updateType, reject_ok,
    SystemConfigUpdate.tryFrom_ok]
  constructor
  · rintro ⟨_, ⟨_, hlen, htopic⟩, _, hversion, kind, hkind, rfl, hdata⟩
    obtain ⟨first, second, third, rest, htopics⟩ : ∃ first second third rest,
        log.topics = first :: second :: third :: rest := by
      rcases htopics : log.topics with _ | ⟨first, _ | ⟨second, _ | ⟨third, rest⟩⟩⟩
      · simp [htopics] at hlen
      · simp [htopics] at hlen
      · simp [htopics] at hlen
      · exact ⟨first, second, third, rest, rfl⟩
    rw [htopics] at htopic hversion hkind
    rw [ne_eq, not_not] at htopic hversion
    refine ⟨third, rest, ?_, ?_, hdata⟩
    · rw [htopics, Option.some.inj htopic]
      exact congrArg (fun version => SystemConfigUpdate.topic :: version :: third :: rest) hversion
    · split at hkind
      · rename_i found hfound
        cases hkind
        have hcode := SystemConfigUpdateKind.ofU64_eq_some.mp hfound
        rwa [BitVec.toNat_setWidth] at hcode
      · cases hkind
  · rintro ⟨third, rest, htopics, hkind, hdata⟩
    have hkind' : SystemConfigUpdateKind.ofU64 (third.setWidth 64) = some u.kind := by
      rw [SystemConfigUpdateKind.ofU64_eq_some, BitVec.toNat_setWidth]
      exact hkind
    refine ⟨(), ⟨(), ?_, ?_⟩, (), ?_, u.kind, ?_, rfl, hdata⟩
    · simp [htopics]
    · simp [htopics]
    · simp [htopics]
    · rw [htopics]
      simp [hkind']

theorem UpdateOf.build {log : Log} {u : SystemConfigUpdate} (h : log.UpdateOf ecotoneActive u) :
    log.build ecotoneActive = .ok u := by
  obtain ⟨third, rest, htopics, hkind, hdata⟩ := h
  refine build_ok.mpr ⟨third, rest, htopics, ?_, hdata⟩
  rw [hkind, Nat.mod_eq_of_lt (Nat.lt_trans u.kind.code_lt (by decide))]

theorem updateOf_iff_narrow (log : Log) {u : SystemConfigUpdate}
    (h : log.build ecotoneActive = .ok u) :
    log.UpdateOf ecotoneActive u ↔ ∀ third, log.topics[2]? = some third → third.toNat < 2 ^ 64 := by
  obtain ⟨third, rest, htopics, hkind, hdata⟩ := build_ok.mp h
  constructor
  · rintro ⟨third', rest', htopics', hkind', -⟩ other hother
    rw [htopics'] at hother
    cases hother
    rw [hkind']
    exact Nat.lt_trans u.kind.code_lt (by decide)
  · intro hlt
    refine ⟨third, rest, htopics, ?_, hdata⟩
    rwa [Nat.mod_eq_of_lt (hlt third (by rw [htopics]; rfl))] at hkind

end Log

namespace Calldata.SystemConfig

/-- The logs of the receipts that are not marked as failed. -/
def successfulLogs (receipts : List Receipt) : List Log :=
  (receipts.filter fun r => r.status ≠ .eip658 false).flatMap Receipt.logs

/-- The updates among the logs applied one after the other, every other log left out. -/
inductive Applied (address : Address) (ecotoneActive : Bool) :
    SystemConfig → List Log → SystemConfig → Prop
  | done (config : SystemConfig) : Applied address ecotoneActive config [] config
  | update {config config' : SystemConfig} {log : Log} {logs : List Log} {u : SystemConfigUpdate}
      (from_ : log.address = address) (of : log.UpdateOf ecotoneActive u)
      (rest : Applied address ecotoneActive (u.apply config) logs config') :
      Applied address ecotoneActive config (log :: logs) config'
  | other {config config' : SystemConfig} {log : Log} {logs : List Log}
      (not : log.address = address → ∀ u, ¬log.UpdateOf ecotoneActive u)
      (rest : Applied address ecotoneActive config logs config') :
      Applied address ecotoneActive config (log :: logs) config'

/-- If the log is accepted, its third topic is at most eight bytes long. -/
def Narrow (address : Address) (ecotoneActive : Bool) (log : Log) : Prop :=
  log.address = address → ∀ u, log.build ecotoneActive = .ok u →
    ∀ third, log.topics[2]? = some third → third.toNat < 2 ^ 64

theorem updateWithLogs_config (ecotoneActive : Bool) (config : SystemConfig) (logs : List Log) :
    (updateWithLogs ecotoneActive config logs).1 =
      logs.foldl (fun config log => (processConfigUpdateLog ecotoneActive config log).1)
        config := by
  induction logs generalizing config with
  | nil => rfl
  | cons log logs ih =>
    rw [List.foldl_cons]
    unfold updateWithLogs
    dsimp only
    split <;> exact ih _

theorem applied_logs {logs : List Log} (h : ∀ log ∈ logs, Narrow address ecotoneActive log)
    (config : SystemConfig) :
    Applied address ecotoneActive config logs ((logs.filter fun log =>
      log.address = address ∧ log.topics.head? = some SystemConfigUpdate.topic).foldl
        (fun config log => (processConfigUpdateLog ecotoneActive config log).1) config) := by
  induction logs generalizing config with
  | nil => exact .done config
  | cons log logs ih =>
    have hrest := fun config => ih (fun log' hlog' => h log' (List.mem_cons_of_mem _ hlog')) config
    by_cases hcandidate : log.address = address ∧
        log.topics.head? = some SystemConfigUpdate.topic
    · rw [List.filter_cons, if_pos (decide_eq_true hcandidate), List.foldl_cons]
      cases hbuild : log.build ecotoneActive with
      | ok u =>
        have hof := (log.updateOf_iff_narrow hbuild).mpr
          (h log List.mem_cons_self hcandidate.1 u hbuild)
        refine .update hcandidate.1 hof ?_
        simp only [processConfigUpdateLog, hbuild]
        exact hrest _
      | error e =>
        refine .other (fun _ u hof => ?_) ?_
        · rw [hof.build] at hbuild
          cases hbuild
        · simp only [processConfigUpdateLog, hbuild]
          exact hrest _
    · rw [List.filter_cons, if_neg (by simpa using hcandidate)]
      refine .other (fun haddress u hof => hcandidate ⟨haddress, ?_⟩) (hrest config)
      obtain ⟨_, _, htopics, -⟩ := hof
      rw [htopics]
      rfl

/-- The receipts change the configuration as their updates do one after the
other, if no log passes for one by the low bytes of its third topic; and an
invalid scalar changes nothing once Ecotone is active. -/
theorem config_updates_folded (address : Address) (ecotoneActive : Bool) (config : SystemConfig)
    (receipts : List Receipt) :
    (∀ (log : Log) (u : SystemConfigUpdate), log.build ecotoneActive = .ok u →
      (log.UpdateOf ecotoneActive u ↔
        ∀ third, log.topics[2]? = some third → third.toNat < 2 ^ 64)) ∧
    ((∀ log ∈ successfulLogs receipts, Narrow address ecotoneActive log) →
      Applied address ecotoneActive config (successfulLogs receipts)
        (updateWithReceipts config receipts address ecotoneActive).1) ∧
    ∀ (log : Log) (u : SystemConfigUpdate) (overhead scalar : U256), log.build true = .ok u →
      u.kind = .gasConfig → log.data = abiWords [32, 64, overhead.toNat, scalar.toNat] →
      checkEcotoneL1SystemConfigScalar (beBytes 32 scalar.toNat) = false →
      u.apply config = config := by
  refine ⟨fun log u h => log.updateOf_iff_narrow h, fun h => ?_,
    fun log u overhead scalar h hkind hdata hinvalid => ?_⟩
  · rw [updateWithReceipts, updateWithLogs_config]
    exact applied_logs h config
  · obtain ⟨-, -, -, -, hencodes⟩ := Log.build_ok.mp h
    have hu := SystemConfigUpdate.tryFrom_ok.mpr ⟨hkind, hencodes⟩
    have hexpected : SystemConfigUpdate.tryFrom .gasConfig true log.data =
        .ok (SystemConfigUpdate.gasConfigOf true overhead scalar) :=
      SystemConfigUpdate.tryFrom_gasConfig_ok.mpr ⟨overhead, scalar, hdata, rfl⟩
    rw [Except.ok.inj (hu.symm.trans hexpected), SystemConfigUpdate.gasConfigOf,
      if_pos ⟨rfl, hinvalid⟩]
    rfl

def sampleSystemConfig : SystemConfig := ⟨1, 2, 3, 4, none, none, none, none, none, none⟩

/-- An update of the batcher by its data, with a third topic to be chosen. -/
def batcherLog (third : B256) : Log :=
  ⟨9, [SystemConfigUpdate.topic, SystemConfigUpdate.eventVersion0, third], abiWords [32, 32, 7]⟩

theorem updateLogs_batcherLog (third : B256) :
    updateLogs 9 [⟨.eip658 true, [batcherLog third]⟩] = [batcherLog third] := by
  simp [updateLogs, batcherLog]

/-- An unknown version, for which no third topic is read. -/
def refusedLog : Log :=
  ⟨9, [SystemConfigUpdate.topic, 1, 0x10000000000000000], abiWords [32, 32, 7]⟩

/-- Two updates, and between them a log of another version, one of another contract and one of
a failed transaction. -/
def sampleReceipts : List Receipt :=
  [⟨.eip658 true, [batcherLog 0, refusedLog, { batcherLog 0 with address := 8 }]⟩,
    ⟨.eip658 false, [batcherLog 0x10000000000000000]⟩, ⟨.eip658 true, [batcherLog 2]⟩]

theorem config_updates_folded_between :
    Applied 9 false sampleSystemConfig (successfulLogs sampleReceipts)
      { sampleSystemConfig with batcherAddress := 7, gasLimit := 7 } := by
  have hnarrow : ∀ log ∈ successfulLogs sampleReceipts, Narrow 9 false log := by
    intro log hlog haddress u hbuild third hthird
    have hlogs : successfulLogs sampleReceipts =
      [batcherLog 0, refusedLog, { batcherLog 0 with address := 8 }, batcherLog 2] := rfl
    simp only [hlogs, List.mem_cons, List.not_mem_nil, or_false] at hlog
    rcases hlog with rfl | rfl | rfl | rfl
    · cases hthird
      decide
    · obtain ⟨kind, rest, htopics, -⟩ := Log.build_ok.mp hbuild
      exact absurd (List.cons.inj (List.cons.inj htopics).2).1 (by decide)
    · exact absurd haddress (by decide)
    · cases hthird
      decide
  have h := (config_updates_folded 9 false sampleSystemConfig sampleReceipts).2.1 hnarrow
  have heq : (updateWithReceipts sampleSystemConfig sampleReceipts 9 false).1 =
      { sampleSystemConfig with batcherAddress := 7, gasLimit := 7 } := by decide +kernel
  rwa [heq] at h

/-- A third topic that is no update kind passes for one by its low bytes. -/
theorem wide_topic_applied :
    (updateWithReceipts sampleSystemConfig
        [⟨.eip658 true, [batcherLog 0x10000000000000000]⟩] 9 false).1 =
        { sampleSystemConfig with batcherAddress := 7 } ∧
      ∀ u, ¬(batcherLog 0x10000000000000000).UpdateOf false u := by
  have hbuild : (batcherLog 0x10000000000000000).build false = .ok (.batcher 7) :=
    Log.build_ok.mpr ⟨0x10000000000000000, [], rfl, by decide, rfl⟩
  constructor
  · rw [updateWithReceipts, updateLogs_batcherLog, updateWithLogs_config, List.foldl_cons,
      List.foldl_nil, processConfigUpdateLog, hbuild]
    rfl
  · rintro u ⟨third, rest, htopics, hkind, -⟩
    have hthird : (0x10000000000000000 : B256) = third :=
      (List.cons.inj (List.cons.inj (List.cons.inj htopics).2).2).1
    have hlt := u.kind.code_lt
    rw [← hkind, ← hthird] at hlt
    exact absurd hlt (by decide)

end Calldata.SystemConfig
end SciChain.Derive
