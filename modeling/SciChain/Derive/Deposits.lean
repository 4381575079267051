import SciChain.Derive.SystemConfigUpdate

namespace SciChain.Derive
open Library

/-- A deposit as derivation builds it. -/
structure TxDeposit where
  sourceHash : B256
  sender : Address
  kind : TxKind
  mint : U128
  value : U256
  gasLimit : U64
  isSystemTransaction : Bool
  input : Bytes
  deriving DecidableEq, Repr

inductive DepositDecodeError where
  | unexpectedTopicsLen (len : Nat)
  | invalidSelector (expected actual : B256)
  | incompleteOpaqueData (len : Nat)
  | unalignedData (len : Nat)
  | fromDecode (topic : B256)
  | toDecode (topic : B256)
  | invalidOpaqueDataOffset (offset : Bytes)
  | invalidOpaqueDataLength (expected actual : Nat)
  | invalidOpaqueDataPadding (padding : Bytes)
  | opaqueContentOverflow (length : Bytes)
  | opaqueDataPaddingOverflow
  | invalidVersion (version : B256)
  | unexpectedOpaqueDataLen (len : Nat)
  deriving DecidableEq, Repr

/-- The bytes from `lo` to `hi`, if there are that many. -/
def sliceAt (data : Bytes) (lo hi : Nat) : Option Bytes :=
  if lo ≤ hi ∧ hi ≤ data.length then some ((data.drop lo).take (hi - lo)) else none

namespace Deposits

def eventAbiHash : B256 := 0xb3813568d9991fc951961fcb4c784893574240a28925604d09fc577c55bb7c32

/-- `UserDepositSource::source_hash`. The domain of user deposits is zero. -/
def sourceHash (keccak256 : Bytes → B256) (l1BlockHash : B256) (logIndex : U64) : B256 :=
  keccak256 (beBytes 32 0 ++ beBytes 32 (keccak256 (beBytes 32 l1BlockHash.toNat ++
    beBytes 32 logIndex.toNat)).toNat)

/-- `none` is an index out of bounds. -/
def unmarshalV0 (tx : TxDeposit) (target : Address) (data : Bytes) :
    Option (Except DepositDecodeError TxDeposit) :=
  if data.length < 32 + 32 + 8 + 1 then some (.error (.unexpectedOpaqueDataLen data.length)) else do
    let rawMint ← sliceAt data 16 32
    let rawValue ← sliceAt data 32 64
    let rawGas ← sliceAt data 64 72
    let isCreation : UInt8 ← data[72]?
    let input ← sliceAt data 73 data.length
    some (.ok { tx with
      mint := BitVec.ofNat 128 (beValue rawMint)
      value := BitVec.ofNat 256 (beValue rawValue)
      gasLimit := BitVec.ofNat 64 (beValue rawGas)
      kind := if isCreation = 0 then .call target else .create
      input })

/-- The opaque data behind its length, after the checks of the padding. -/
def paddedContent (data : Bytes) (len paddingEnd : U64) :
    Option (Except DepositDecodeError Bytes) :=
  (Overflow.panics.add 64 len).bind fun stop =>
    match sliceAt data 64 stop.toNat with
    | none => some (.error (.invalidOpaqueDataLength len.toNat (data.length - 64)))
    | some opaqueData =>
      if len.toNat % 32 = 0 ∨ (sliceAt data stop.toNat paddingEnd.toNat).any
          (fun padding => padding.all (· == 0)) = true then
        some (.ok opaqueData)
      else (sliceAt data stop.toNat data.length).map fun rest =>
        .error (.invalidOpaqueDataPadding rest)

/-- The offset and the length of the opaque data, and the data itself. -/
def opaqueContent (data : Bytes) : Option (Except DepositDecodeError Bytes) :=
  (sliceAt data 0 32).bind fun offset =>
    if beValue offset ≠ 32 then some (.error (.invalidOpaqueDataOffset offset)) else
    (sliceAt data 32 64).bind fun length =>
      if 2 ^ 64 ≤ beValue length then some (.error (.opaqueContentOverflow length)) else
      let len : U64 := BitVec.ofNat 64 (beValue length)
      let ceil32 : U64 := satMul (satAdd len 31 / 32) 32
      -- `checked_add`
      match Overflow.panics.add 64 ceil32 with
      | none => some (.error .opaqueDataPaddingOverflow)
      | some paddingEnd => paddedContent data len paddingEnd

/-- The checks of the topics and of the size of the data: sender, target and version. -/
def checkTopics (log : Log) : Except DepositDecodeError (Address × Address × B256) :=
  match log.topics with
  | [selector, sender, target, version] => do
    reject (selector ≠ eventAbiHash) (.invalidSelector eventAbiHash selector)
    reject (log.data.length < 64) (.incompleteOpaqueData log.data.length)
    reject (log.data.length % 32 ≠ 0) (.unalignedData log.data.length)
    reject (2 ^ 160 ≤ sender.toNat) (.fromDecode sender)
    reject (2 ^ 160 ≤ target.toNat) (.toDecode target)
    pure (sender.setWidth 160, target.setWidth 160, version)
  | topics => .error (.unexpectedTopicsLen topics.length)

/-- The deposit of a log. `none` is a panic. -/
def decodeTx (keccak256 : Bytes → B256) (blockHash : B256) (index : U64) (log : Log) :
    Option (Except DepositDecodeError TxDeposit) :=
  match checkTopics log with
  | .error e => some (.error e)
  | .ok (sender, target, version) => (opaqueContent log.data).bind fun content =>
    match content with
    | .error e => some (.error e)
    | .ok opaqueData =>
      if version ≠ 0 then some (.error (.invalidVersion version)) else
      unmarshalV0 { sourceHash := sourceHash keccak256 blockHash index, sender, kind := .create,
                    mint := 0, value := 0, gasLimit := 0, isSystemTransaction := false,
                    input := [] } target opaqueData

/-- The deposit as the bytes of its transaction, which other code encodes. -/
def decode (keccak256 : Bytes → B256) (encode2718 : TxDeposit → Bytes) (blockHash : B256)
    (index : U64) (log : Log) : Option (Except DepositDecodeError Bytes) :=
  (decodeTx keccak256 blockHash index log).map (·.map encode2718)

end Deposits
end SciChain.Derive
