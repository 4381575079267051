import SciChain.Library.Rlp
import SciChain.Derive.SpanBatch

namespace SciChain.Derive
open Library

def TxType.ofByte? : UInt8 → Option TxType
  | 0 => some .legacy
  | 1 => some .eip2930
  | 2 => some .eip1559
  | 3 => some .eip4844
  | 4 => some .eip7702
  | _ => none

structure AccessListItem where
  address : Address
  storageKeys : List B256
  deriving DecidableEq, Repr

structure SignedAuthorization where
  chainId : U256
  address : Address
  nonce : U64
  yParity : U8
  r : U256
  s : U256
  deriving DecidableEq, Repr

/-! ### Signed transactions -/

structure TxLegacy where
  chainId : Option U64
  nonce : U64
  gasPrice : U128
  gasLimit : U64
  recipient : TxKind
  value : U256
  input : Bytes
  deriving DecidableEq, Repr

structure TxEip2930 where
  chainId : U64
  nonce : U64
  gasPrice : U128
  gasLimit : U64
  recipient : TxKind
  value : U256
  accessList : List AccessListItem
  input : Bytes
  deriving DecidableEq, Repr

structure TxEip1559 where
  chainId : U64
  nonce : U64
  gasLimit : U64
  maxFeePerGas : U128
  maxPriorityFeePerGas : U128
  recipient : TxKind
  value : U256
  accessList : List AccessListItem
  input : Bytes
  deriving DecidableEq, Repr

structure TxEip7702 where
  chainId : U64
  nonce : U64
  gasLimit : U64
  maxFeePerGas : U128
  maxPriorityFeePerGas : U128
  recipient : Address
  value : U256
  accessList : List AccessListItem
  authorizationList : List SignedAuthorization
  input : Bytes
  deriving DecidableEq, Repr

/-- The signed transactions that a span batch can hold. -/
inductive TxEnvelope where
  | legacy (tx : TxLegacy) (signature : Signature)
  | eip2930 (tx : TxEip2930) (signature : Signature)
  | eip1559 (tx : TxEip1559) (signature : Signature)
  | eip7702 (tx : TxEip7702) (signature : Signature)
  deriving DecidableEq, Repr

/-! ### What a span batch stores of a transaction outside the columns -/

structure SpanBatchLegacyTransactionData where
  value : U256
  gasPrice : U256
  data : Bytes
  deriving DecidableEq, Repr

structure SpanBatchEip2930TransactionData where
  value : U256
  gasPrice : U256
  data : Bytes
  accessList : List AccessListItem
  deriving DecidableEq, Repr

structure SpanBatchEip1559TransactionData where
  value : U256
  maxPriorityFeePerGas : U256
  maxFeePerGas : U256
  data : Bytes
  accessList : List AccessListItem
  deriving DecidableEq, Repr

structure SpanBatchEip7702TransactionData where
  value : U256
  maxPriorityFeePerGas : U256
  maxFeePerGas : U256
  data : Bytes
  accessList : List AccessListItem
  authorizationList : List SignedAuthorization
  deriving DecidableEq, Repr

inductive SpanBatchTransactionData where
  | legacy (data : SpanBatchLegacyTransactionData)
  | eip2930 (data : SpanBatchEip2930TransactionData)
  | eip1559 (data : SpanBatchEip1559TransactionData)
  | eip7702 (data : SpanBatchEip7702TransactionData)
  deriving DecidableEq, Repr

section Fields

/-- A word of `8 * width` bits. -/
def readWord (width : Nat) : Rlp.Reader (BitVec (8 * width)) := fun buf =>
  (Rlp.readUint width buf).map fun (value, rest) => (BitVec.ofNat _ value, rest)

def readHash (width : Nat) : Rlp.Reader (BitVec (8 * width)) := fun buf =>
  (Rlp.readFixed width buf).map fun (value, rest) => (BitVec.ofNat _ value, rest)

def AccessListItem.decode : Rlp.Reader AccessListItem := Rlp.readRecord fun buf => do
  let (address, buf) ← readHash 20 buf
  let (storageKeys, buf) ← Rlp.readList (readHash 32) buf
  some (⟨address, storageKeys⟩, buf)

def SignedAuthorization.decode : Rlp.Reader SignedAuthorization := Rlp.readRecord fun buf => do
  let (chainId, buf) ← readWord 32 buf
  let (address, buf) ← readHash 20 buf
  let (nonce, buf) ← readWord 8 buf
  let (yParity, buf) ← readWord 1 buf
  let (r, buf) ← readWord 32 buf
  let (s, buf) ← readWord 32 buf
  some (⟨chainId, address, nonce, yParity, r, s⟩, buf)

def SpanBatchLegacyTransactionData.decode : Rlp.Reader SpanBatchLegacyTransactionData :=
  Rlp.readRecord fun buf => do
    let (value, buf) ← readWord 32 buf
    let (gasPrice, buf) ← readWord 32 buf
    let (data, buf) ← Rlp.readString buf
    some (⟨value, gasPrice, data⟩, buf)

def SpanBatchEip2930TransactionData.decode : Rlp.Reader SpanBatchEip2930TransactionData :=
  Rlp.readRecord fun buf => do
    let (value, buf) ← readWord 32 buf
    let (gasPrice, buf) ← readWord 32 buf
    let (data, buf) ← Rlp.readString buf
    let (accessList, buf) ← Rlp.readList AccessListItem.decode buf
    some (⟨value, gasPrice, data, accessList⟩, buf)

def SpanBatchEip1559TransactionData.decode : Rlp.Reader SpanBatchEip1559TransactionData :=
  Rlp.readRecord fun buf => do
    let (value, buf) ← readWord 32 buf
    let (maxPriorityFeePerGas, buf) ← readWord 32 buf
    let (maxFeePerGas, buf) ← readWord 32 buf
    let (data, buf) ← Rlp.readString buf
    let (accessList, buf) ← Rlp.readList AccessListItem.decode buf
    some (⟨value, maxPriorityFeePerGas, maxFeePerGas, data, accessList⟩, buf)

def SpanBatchEip7702TransactionData.decode : Rlp.Reader SpanBatchEip7702TransactionData :=
  Rlp.readRecord fun buf => do
    let (value, buf) ← readWord 32 buf
    let (maxPriorityFeePerGas, buf) ← readWord 32 buf
    let (maxFeePerGas, buf) ← readWord 32 buf
    let (data, buf) ← Rlp.readString buf
    let (accessList, buf) ← Rlp.readList AccessListItem.decode buf
    let (authorizations, buf) ← Rlp.readList SignedAuthorization.decode buf
    some (⟨value, maxPriorityFeePerGas, maxFeePerGas, data, accessList, authorizations⟩, buf)

end Fields

namespace SpanBatchTransactionData

def txType : SpanBatchTransactionData → TxType
  | .legacy _ => .legacy
  | .eip2930 _ => .eip2930
  | .eip1559 _ => .eip1559
  | .eip7702 _ => .eip7702

def decodeTyped : Bytes → Option SpanBatchTransactionData
  | [] => none
  | [_] => none
  | b :: rest =>
    match TxType.ofByte? b with
    | some .eip2930 => (SpanBatchEip2930TransactionData.decode rest).map (.eip2930 ·.1)
    | some .eip1559 => (SpanBatchEip1559TransactionData.decode rest).map (.eip1559 ·.1)
    | some .eip7702 => (SpanBatchEip7702TransactionData.decode rest).map (.eip7702 ·.1)
    | _ => none

/-- Bytes after the data are left unread. -/
def decode (buf : Bytes) : Option SpanBatchTransactionData :=
  if buf.head?.any (0x7f < ·.toNat) then
    (SpanBatchLegacyTransactionData.decode buf).map (.legacy ·.1)
  else decodeTyped buf

/-- `map_or(TxKind::Create, TxKind::Call)` -/
def kindOf : Option Address → TxKind
  | none => .create
  | some address => .call address

/-- The prices are the low sixteen bytes of their stored words. -/
def toSignedTx (d : SpanBatchTransactionData) (nonce gas : U64) (recipient : Option Address)
    (chainId : U64) (signature : Signature) (isProtected : Bool) :
    Except SpanBatchError TxEnvelope :=
  match d with
  | .legacy data => .ok (.legacy
      { chainId := if isProtected then some chainId else none, nonce
        gasPrice := data.gasPrice.setWidth 128, gasLimit := gas, recipient := kindOf recipient
        value := data.value, input := data.data } signature)
  | .eip2930 data => .ok (.eip2930
      { chainId, nonce, gasPrice := data.gasPrice.setWidth 128, gasLimit := gas
        recipient := kindOf recipient, value := data.value, accessList := data.accessList
        input := data.data } signature)
  | .eip1559 data => .ok (.eip1559
      { chainId, nonce, gasLimit := gas, maxFeePerGas := data.maxFeePerGas.setWidth 128
        maxPriorityFeePerGas := data.maxPriorityFeePerGas.setWidth 128
        recipient := kindOf recipient, value := data.value, accessList := data.accessList
        input := data.data } signature)
  | .eip7702 data =>
    match recipient with
    | none => .error (.decoding .invalidTransactionData)
    | some address => .ok (.eip7702
        { chainId, nonce, gasLimit := gas, maxFeePerGas := data.maxFeePerGas.setWidth 128
          maxPriorityFeePerGas := data.maxPriorityFeePerGas.setWidth 128, recipient := address
          value := data.value, accessList := data.accessList
          authorizationList := data.authorizationList, input := data.data } signature)

end SpanBatchTransactionData
end SciChain.Derive
