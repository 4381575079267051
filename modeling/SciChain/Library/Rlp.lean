import SciChain.Library.BigEndian
import SciChain.Library.Result

namespace SciChain.Library.Rlp

/-! Recursive length prefixes: byte strings and lists behind a header that has their length. -/

inductive RlpError where
  | leadingZero | inputTooShort | nonCanonicalSingleByte | nonCanonicalSize
  | unexpectedString | unexpectedList
  deriving DecidableEq, Repr

structure Header where
  list : Bool
  payloadLength : Nat
  deriving DecidableEq, Repr

/-- The bytes of a number of at most `width` bytes without its leading zeros. -/
def trimmed (width value : Nat) : List UInt8 := (beBytes width value).dropWhile (· == 0)

def encodeHeader (h : Header) : List UInt8 :=
  if h.payloadLength < 56 then
    [UInt8.ofNat ((if h.list then 0xC0 else 0x80) + h.payloadLength)]
  else
    UInt8.ofNat ((if h.list then 0xF7 else 0xB7) + (trimmed 8 h.payloadLength).length) ::
      trimmed 8 h.payloadLength

/-- The header of a string of `n` bytes, at most 55. One low byte has no header. -/
def shortString (n : Nat) : List UInt8 → Except RlpError (Header × List UInt8)
  | [] => if n = 1 then .error .inputTooShort else .ok (⟨false, n⟩, [])
  | next :: rest =>
    if n = 1 ∧ next.toNat < 0x80 then .error .nonCanonicalSingleByte
    else .ok (⟨false, n⟩, next :: rest)

/-- A header whose length stands in `lenOfLen` bytes of its own. -/
def longHeader (list : Bool) (lenOfLen : Nat) (rest : List UInt8) :
    Except RlpError (Header × List UInt8) := do
  reject (rest.length < lenOfLen) .inputTooShort
  reject ((rest.take lenOfLen).head? = some 0) .leadingZero
  reject (beValue (rest.take lenOfLen) < 56) .nonCanonicalSize
  pure (⟨list, beValue (rest.take lenOfLen)⟩, rest.drop lenOfLen)

/-- The header that begins with a byte, and what is behind it. -/
def headerAt (b : UInt8) (rest : List UInt8) : Except RlpError (Header × List UInt8) :=
  if b.toNat < 0x80 then .ok (⟨false, 1⟩, b :: rest)
  else if b.toNat < 0xB8 then shortString (b.toNat - 0x80) rest
  else if b.toNat < 0xC0 then longHeader false (b.toNat - 0xB7) rest
  else if b.toNat < 0xF8 then .ok (⟨true, b.toNat - 0xC0⟩, rest)
  else longHeader true (b.toNat - 0xF7) rest

def decodeHeader : List UInt8 → Except RlpError (Header × List UInt8)
  | [] => .error .inputTooShort
  | b :: rest => (headerAt b rest).bind fun found =>
    if found.2.length < found.1.payloadLength then .error .inputTooShort else .ok found

/-- The payload of a string or of a list, and the bytes behind it. -/
def decodeBytes (buf : List UInt8) (isList : Bool) :
    Except RlpError (List UInt8 × List UInt8) :=
  (decodeHeader buf).bind fun found =>
    if found.1.list ≠ isList then
      .error (if isList then .unexpectedString else .unexpectedList)
    else .ok (found.2.take found.1.payloadLength, found.2.drop found.1.payloadLength)

/-- One byte below 0x80 is its own string. -/
def IsLowByte (payload : List UInt8) : Prop :=
  payload.length = 1 ∧ payload.all (·.toNat < 0x80) = true

instance (payload : List UInt8) : Decidable (IsLowByte payload) :=
  inferInstanceAs (Decidable (_ ∧ _))

def encodeString (payload : List UInt8) : List UInt8 :=
  if IsLowByte payload then payload else encodeHeader ⟨false, payload.length⟩ ++ payload

section Readers

variable {α : Type}

/-- Takes a value from the front of the input. -/
abbrev Reader (α : Type) := List UInt8 → Option (α × List UInt8)

def readString : Reader (List UInt8) := fun buf => (decodeBytes buf false).toOption

/-- A number of at most `width` bytes, without leading zeros. -/
def readUint (width : Nat) : Reader Nat := fun buf => do
  let (payload, rest) ← readString buf
  if payload.length ≤ width ∧ payload.head? ≠ some 0 then some (beValue payload, rest) else none

/-- A number of just `width` bytes. -/
def readFixed (width : Nat) : Reader Nat := fun buf => do
  let (payload, rest) ← readString buf
  if payload.length = width then some (beValue payload, rest) else none

/-- A list that holds nothing but the fields. -/
def readRecord (fields : Reader α) : Reader α := fun buf => do
  let (payload, rest) ← (decodeBytes buf true).toOption
  let (value, left) ← fields payload
  if left = [] then some (value, rest) else none

/-- Items up to the end of the input, at most so many. -/
def readItems (item : Reader α) : Nat → List UInt8 → Option (List α)
  | _, [] => some []
  | 0, _ => none
  | n + 1, buf => do
    let (value, rest) ← item buf
    let values ← readItems item n rest
    some (value :: values)

/-- A list of items, each of which takes a byte at least. -/
def readList (item : Reader α) : Reader (List α) := fun buf => do
  let (payload, rest) ← (decodeBytes buf true).toOption
  let values ← readItems item payload.length payload
  some (values, rest)

end Readers

section Trimmed

variable {width value : Nat} {bytes : List UInt8}

theorem beValue_replicate_zero (k : Nat) (bytes : List UInt8) :
    beValue (List.replicate k 0 ++ bytes) = beValue bytes := by
  induction k with
  | zero => rfl
  | succ k ih => rw [List.replicate_succ, List.cons_append, beValue_zero_cons, ih]

theorem beValue_dropWhile_zero (bytes : List UInt8) :
    beValue (bytes.dropWhile (· == 0)) = beValue bytes := by
  induction bytes with
  | nil => rfl
  | cons b bytes ih =>
    rw [List.dropWhile_cons]
    split
    · rename_i hb
      rw [ih, eq_of_beq hb, beValue_zero_cons]
    · rfl

theorem beValue_trimmed (h : value < 256 ^ width) : beValue (trimmed width value) = value := by
  rw [trimmed, beValue_dropWhile_zero, beValue_beBytes h]

theorem length_trimmed_le (width value : Nat) : (trimmed width value).length ≤ width := by
  have hle := (List.dropWhile_suffix (l := beBytes width value) (· == 0)).length_le
  rwa [length_beBytes] at hle

theorem head_trimmed (width value : Nat) : (trimmed width value).head? ≠ some 0 := by
  intro h
  have hnot := List.head?_dropWhile_not (· == (0 : UInt8)) (beBytes width value)
  rw [trimmed] at h
  rw [h] at hnot
  exact absurd hnot (by decide)

/-- Bytes without a leading zero are those of their value. -/
theorem trimmed_beValue (hlen : bytes.length ≤ width) (hhead : bytes.head? ≠ some 0) :
    trimmed width (beValue bytes) = bytes := by
  have hpad := beBytes_beValue (List.replicate (width - bytes.length) 0 ++ bytes)
  rw [beValue_replicate_zero, List.length_append, List.length_replicate,
    Nat.sub_add_cancel hlen] at hpad
  rw [trimmed, hpad]
  induction width - bytes.length with
  | zero =>
    cases bytes with
    | nil => rfl
    | cons b bytes =>
      have hb : (b == 0) = false := by simpa using hhead
      simp [hb]
  | succ k ih => rwa [List.replicate_succ, List.cons_append, List.dropWhile_cons_of_pos (by rfl)]

/-- A value of 56 and more has bytes. -/
theorem length_trimmed_pos (hlt : value < 256 ^ width) (hpos : 0 < value) :
    0 < (trimmed width value).length := by
  rw [List.length_pos_iff]
  intro h
  have hvalue := beValue_trimmed hlt
  rw [h, beValue_nil] at hvalue
  omega

end Trimmed

section Headers

variable {h : Header} {body buf rest payload : List UInt8}

theorem longHeader_of (list : Bool) (body : List UInt8) (hhead : len.head? ≠ some 0)
    (hsize : 56 ≤ beValue len) :
    longHeader list len.length (len ++ body) = .ok (⟨list, beValue len⟩, body) := by
  have htake : (len ++ body).take len.length = len := List.take_left' rfl
  have hdrop : (len ++ body).drop len.length = body := List.drop_left' rfl
  unfold longHeader
  rw [htake, hdrop, reject_neg (by simp), reject_neg hhead, reject_neg (by omega)]
  rfl

theorem longHeader_ok (hok : longHeader list lenOfLen buf = .ok (h, body)) :
    ∃ len : List UInt8, len.length = lenOfLen ∧ len.head? ≠ some 0 ∧ 56 ≤ beValue len ∧
      h = ⟨list, beValue len⟩ ∧ buf = len ++ body := by
  unfold longHeader at hok
  rw [reject_bind_ok] at hok
  obtain ⟨hlen, hok⟩ := hok
  rw [reject_bind_ok] at hok
  obtain ⟨hhead, hok⟩ := hok
  rw [reject_bind_ok] at hok
  obtain ⟨hsize, hok⟩ := hok
  cases hok
  exact ⟨buf.take lenOfLen, List.length_take_of_le (by omega), hhead, by omega, rfl,
    (List.take_append_drop lenOfLen buf).symm⟩

/-- A string of one byte has a header of its own only if the byte is high. -/
def NeedsHeader (h : Header) (body : List UInt8) : Prop :=
  h = ⟨false, 1⟩ → ∀ b, body.head? = some b → 0x80 ≤ b.toNat

theorem headerAt_short (list : Bool) (hn : n < 56) (hsize : n ≤ body.length)
    (hneeds : NeedsHeader ⟨list, n⟩ body) :
    headerAt (UInt8.ofNat ((if list then 0xC0 else 0x80) + n)) body = .ok (⟨list, n⟩, body) := by
  unfold headerAt
  cases list with
  | true =>
    have hb : (UInt8.ofNat (0xC0 + n)).toNat = 0xC0 + n := by
      rw [UInt8.toNat_ofNat', Nat.mod_eq_of_lt (by omega)]
    rw [if_pos rfl, hb, if_neg (by omega), if_neg (by omega), if_neg (by omega),
      if_pos (by omega), Nat.add_sub_cancel_left]
  | false =>
    have hb : (UInt8.ofNat (0x80 + n)).toNat = 0x80 + n := by
      rw [UInt8.toNat_ofNat', Nat.mod_eq_of_lt (by omega)]
    rw [if_neg Bool.false_ne_true, hb, if_neg (by omega), if_pos (by omega), Nat.add_sub_cancel_left]
    cases body with
    | nil => exact if_neg (by simp at hsize; omega)
    | cons next rest =>
      refine if_neg ?_
      rintro ⟨rfl, hlow⟩
      have hhigh := hneeds rfl next rfl
      omega

theorem headerAt_long (list : Bool) (hn : 56 ≤ n) (hlt : n < 2 ^ 64) :
    headerAt (UInt8.ofNat ((if list then 0xF7 else 0xB7) + (trimmed 8 n).length))
      (trimmed 8 n ++ body) = .ok (⟨list, n⟩, body) := by
  have hvalue : beValue (trimmed 8 n) = n := beValue_trimmed hlt
  have hpos : 0 < (trimmed 8 n).length := length_trimmed_pos hlt (by omega)
  have hle : (trimmed 8 n).length ≤ 8 := length_trimmed_le 8 n
  have hlong := longHeader_of list body (head_trimmed 8 n) (by rw [hvalue]; exact hn)
  rw [hvalue] at hlong
  generalize trimmed 8 n = len at *
  unfold headerAt
  cases list with
  | true =>
    have hb : (UInt8.ofNat (0xF7 + len.length)).toNat = 0xF7 + len.length := by
      rw [UInt8.toNat_ofNat', Nat.mod_eq_of_lt (by omega)]
    rw [if_pos rfl, hb, if_neg (by omega), if_neg (by omega), if_neg (by omega),
      if_neg (by omega), Nat.add_sub_cancel_left, hlong]
  | false =>
    have hb : (UInt8.ofNat (0xB7 + len.length)).toNat = 0xB7 + len.length := by
      rw [UInt8.toNat_ofNat', Nat.mod_eq_of_lt (by omega)]
    rw [if_neg Bool.false_ne_true, hb, if_neg (by omega), if_neg (by omega), if_pos (by omega),
      Nat.add_sub_cancel_left, hlong]

theorem decodeHeader_encodeHeader (hlt : h.payloadLength < 2 ^ 64)
    (hsize : h.payloadLength ≤ body.length) (hneeds : NeedsHeader h body) :
    decodeHeader (encodeHeader h ++ body) = .ok (h, body) := by
  unfold encodeHeader
  split
  · rename_i hshort
    rw [List.singleton_append, decodeHeader, headerAt_short h.list hshort hsize hneeds]
    exact if_neg (by simpa using hsize)
  · rename_i hlong
    rw [List.cons_append, decodeHeader, headerAt_long h.list (by omega) hlt]
    exact if_neg (by simpa using hsize)

/-- An accepted header: the byte that needs none, or the bytes that encode it. -/
inductive HeaderOf (h : Header) (body : List UInt8) (buf : List UInt8) : Prop
  | low (heq : h = ⟨false, 1⟩) (hbuf : buf = body)
      (hlow : ∀ b, body.head? = some b → b.toNat < 0x80)
  | encoded (hbuf : buf = encodeHeader h ++ body) (hneeds : NeedsHeader h body)

theorem shortString_ok (hok : shortString n buf = .ok (h, body)) :
    h = ⟨false, n⟩ ∧ body = buf ∧ NeedsHeader h body := by
  cases buf with
  | nil =>
    rw [shortString] at hok
    split at hok
    · cases hok
    · cases hok
      exact ⟨rfl, rfl, nofun⟩
  | cons next rest =>
    rw [shortString] at hok
    split at hok
    · cases hok
    · rename_i hhigh
      cases hok
      refine ⟨rfl, rfl, fun heq b hb => ?_⟩
      cases hb
      have hn : n = 1 := congrArg Header.payloadLength heq
      omega

theorem encodeHeader_short (list : Bool) (hn : n < 56)
    (hb : b.toNat = (if list then 0xC0 else 0x80) + n) : encodeHeader ⟨list, n⟩ = [b] := by
  unfold encodeHeader
  rw [if_pos hn, ← hb, UInt8.ofNat_toNat]

theorem encodeHeader_long (list : Bool) (hlen : len.length ≤ 8)
    (hhead : len.head? ≠ some 0) (hsize : 56 ≤ beValue len)
    (hb : b.toNat = (if list then 0xF7 else 0xB7) + len.length) :
    encodeHeader ⟨list, beValue len⟩ = b :: len := by
  unfold encodeHeader
  dsimp only
  rw [if_neg (by omega), trimmed_beValue hlen hhead, ← hb, UInt8.ofNat_toNat]

theorem headerAt_ok (hok : headerAt b rest = .ok (h, body)) :
    HeaderOf h body (b :: rest) ∧ h.payloadLength < 2 ^ 64 := by
  have hb := b.toNat_lt
  -- a header with a length of its own, of either kind
  have hlong : ∀ (list : Bool) (lenOfLen : Nat), lenOfLen ≤ 8 →
      b.toNat = (if list then 0xF7 else 0xB7) + lenOfLen →
      longHeader list lenOfLen rest = .ok (h, body) →
      HeaderOf h body (b :: rest) ∧ h.payloadLength < 2 ^ 64 := by
    intro list lenOfLen hle hcode hok
    obtain ⟨len, rfl, hhead, hsize, rfl, rfl⟩ := longHeader_ok hok
    have hlt := Nat.lt_of_lt_of_le (beValue_lt len) (Nat.pow_le_pow_right (by decide) hle)
    refine ⟨.encoded ?_ ?_, hlt⟩
    · rw [encodeHeader_long list hle hhead hsize hcode, List.cons_append]
    · intro heq
      have hone : beValue len = 1 := congrArg Header.payloadLength heq
      omega
  unfold headerAt at hok
  split at hok
  · rename_i hlow
    cases hok
    refine ⟨.low rfl rfl fun c hc => ?_, by decide⟩
    cases hc
    exact hlow
  · split at hok
    · obtain ⟨rfl, rfl, hneeds⟩ := shortString_ok hok
      refine ⟨.encoded ?_ hneeds, ?_⟩
      · rw [encodeHeader_short (b := b) false (by omega) (by rw [if_neg Bool.false_ne_true]; omega)]
        rfl
      · dsimp only
        omega
    · split at hok
      · exact hlong false _ (by omega) (by rw [if_neg Bool.false_ne_true]; omega) hok
      · split at hok
        · cases hok
          refine ⟨.encoded ?_ fun heq => ?_, ?_⟩
          · rw [encodeHeader_short (b := b) true (by omega) (by rw [if_pos rfl]; omega)]
            rfl
          · exact absurd (show true = false from congrArg Header.list heq) (by decide)
          · dsimp only
            omega
        · exact hlong true _ (by omega) (by rw [if_pos rfl]; omega) hok

theorem decodeHeader_ok (hok : decodeHeader buf = .ok (h, body)) :
    HeaderOf h body buf ∧ h.payloadLength < 2 ^ 64 ∧ h.payloadLength ≤ body.length := by
  cases buf with
  | nil => cases hok
  | cons b rest =>
    rw [decodeHeader] at hok
    cases hat : headerAt b rest with
    | error e =>
      rw [hat] at hok
      cases hok
    | ok found =>
      rw [hat] at hok
      change (if _ then _ else _) = _ at hok
      split at hok
      · cases hok
      · rename_i hsize
        cases hok
        obtain ⟨hof, hlt⟩ := headerAt_ok hat
        exact ⟨hof, hlt, Nat.not_lt.mp hsize⟩

end Headers

section Strings

variable {buf rest payload : List UInt8}

theorem decodeBytes_encodeString (hlt : payload.length < 2 ^ 64) :
    decodeBytes (encodeString payload ++ rest) false = .ok (payload, rest) := by
  unfold encodeString
  split
  · rename_i hlow
    obtain ⟨b, rfl⟩ := List.length_eq_one_iff.mp hlow.1
    have hb : b.toNat < 0x80 := by simpa using hlow.2
    rw [List.singleton_append, decodeBytes, decodeHeader, headerAt, if_pos hb]
    rfl
  · rename_i hhigh
    have hneeds : NeedsHeader ⟨false, payload.length⟩ (payload ++ rest) := by
      intro heq b hb
      have hone : payload.length = 1 := congrArg Header.payloadLength heq
      obtain ⟨c, rfl⟩ := List.length_eq_one_iff.mp hone
      cases hb
      by_contra hlow
      exact hhigh ⟨rfl, by simpa using hlow⟩
    rw [List.append_assoc, decodeBytes,
      decodeHeader_encodeHeader hlt (by simp) hneeds]
    simp [Except.bind]

/-- What is accepted as a string is the encoding of its payload. -/
theorem eq_encodeString (hok : decodeBytes buf false = .ok (payload, rest)) :
    buf = encodeString payload ++ rest ∧ payload.length < 2 ^ 64 := by
  unfold decodeBytes at hok
  cases hheader : decodeHeader buf with
  | error e =>
    rw [hheader] at hok
    cases hok
  | ok found =>
    obtain ⟨⟨list, n⟩, body⟩ := found
    obtain ⟨hof, hlt, hsize⟩ := decodeHeader_ok hheader
    rw [hheader] at hok
    change (if _ then _ else _) = _ at hok
    split at hok
    · cases hok
    · rename_i hlist
      cases hok
      have hlist : list = false := by simpa using hlist
      subst hlist
      have hlength : (body.take n).length = n := List.length_take_of_le hsize
      refine ⟨?_, by rwa [hlength]⟩
      cases hof with
      | low heq hbuf hlow =>
        obtain rfl : n = 1 := congrArg Header.payloadLength heq
        obtain ⟨b, rest, rfl⟩ := List.length_pos_iff_exists_cons.mp hsize
        have hb := hlow b rfl
        have hone : IsLowByte ((b :: rest).take 1) := ⟨rfl, by simpa using hb⟩
        rw [encodeString, if_pos hone, hbuf, List.take_append_drop]
      | encoded hbuf hneeds =>
        have hhigh : ¬IsLowByte (body.take n) := by
          rintro ⟨hone, hlow⟩
          obtain rfl : n = 1 := hlength.symm.trans hone
          obtain ⟨b, rest, rfl⟩ := List.length_pos_iff_exists_cons.mp hsize
          have hb := hneeds rfl b rfl
          have hb' : b.toNat < 0x80 := by simpa using hlow
          omega
        rw [encodeString, if_neg hhigh, hlength, List.append_assoc, List.take_append_drop, hbuf]

theorem length_encodeString_pos (payload : List UInt8) : 0 < (encodeString payload).length := by
  unfold encodeString
  split
  · rename_i hlow
    rw [hlow.1]
    decide
  · unfold encodeHeader
    split
    · simp
    · simp

end Strings
end SciChain.Library.Rlp
