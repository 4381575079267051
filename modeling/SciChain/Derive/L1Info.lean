import SciChain.Derive.Block

namespace SciChain.Derive.Calldata
open Library

/-- The fields of every L1 info transaction. -/
structure L1BlockInfoBedrockBase where
  number : U64
  time : U64
  baseFee : U64
  blockHash : B256
  sequenceNumber : U64
  batcherAddress : Address
  deriving DecidableEq, Repr

structure L1BlockInfoBedrock extends L1BlockInfoBedrockBase where
  l1FeeOverhead : U256
  l1FeeScalar : U256
  deriving DecidableEq, Repr

/-- The fields of every L1 info transaction from Ecotone on. -/
structure L1BlockInfoEcotoneBase extends L1BlockInfoBedrockBase where
  blobBaseFee : U128
  blobBaseFeeScalar : U32
  baseFeeScalar : U32
  deriving DecidableEq, Repr

/-- The last two fields are not part of the calldata. -/
structure L1BlockInfoEcotone extends L1BlockInfoEcotoneBase where
  emptyScalars : Bool
  l1FeeOverhead : U256
  deriving DecidableEq, Repr

structure L1BlockInfoIsthmus extends L1BlockInfoEcotoneBase where
  operatorFeeScalar : U32
  operatorFeeConstant : U64
  deriving DecidableEq, Repr

structure L1BlockInfoJovian extends L1BlockInfoIsthmus where
  daFootprintGasScalar : U16
  deriving DecidableEq, Repr

inductive DecodeError where
  | missingSelector
  | invalidSelector
  | invalidBedrockLength (expected actual : Nat)
  | invalidEcotoneLength (expected actual : Nat)
  | invalidIsthmusLength (expected actual : Nat)
  | invalidJovianLength (expected actual : Nat)
  deriving DecidableEq, Repr

namespace L1BlockInfoBedrock

def l1InfoTxLen : Nat := 4 + 32 * 8
def l1InfoTxSelector : Bytes := [0x01, 0x5d, 0x8e, 0xb9]

def encodeCalldata (info : L1BlockInfoBedrock) : Bytes :=
  l1InfoTxSelector ++ (beBytes 32 info.number.toNat ++ (beBytes 32 info.time.toNat ++
    (beBytes 32 info.baseFee.toNat ++ (beBytes 32 info.blockHash.toNat ++
    (beBytes 32 info.sequenceNumber.toNat ++ (beBytes 32 info.batcherAddress.toNat ++
    (beBytes 32 info.l1FeeOverhead.toNat ++ (beBytes 32 info.l1FeeScalar.toNat ++ []))))))))

def decodeCalldata (r : Bytes) : Except DecodeError L1BlockInfoBedrock := do
  reject (r.length ≠ l1InfoTxLen) (.invalidBedrockLength l1InfoTxLen r.length)
  .ok { number := wordAt 64 r 28 36
        time := wordAt 64 r 60 68
        baseFee := wordAt 64 r 92 100
        blockHash := wordAt 256 r 100 132
        sequenceNumber := wordAt 64 r 156 164
        batcherAddress := wordAt 160 r 176 196
        l1FeeOverhead := wordAt 256 r 196 228
        l1FeeScalar := wordAt 256 r 228 260 }

end L1BlockInfoBedrock

namespace L1BlockInfoEcotoneBase

/-- The body in front of the fields of later upgrades. -/
def encodeCalldataBody (info : L1BlockInfoEcotoneBase) (rest : Bytes) : Bytes :=
  beBytes 4 info.baseFeeScalar.toNat ++ (beBytes 4 info.blobBaseFeeScalar.toNat ++
    (beBytes 8 info.sequenceNumber.toNat ++ (beBytes 8 info.time.toNat ++
    (beBytes 8 info.number.toNat ++ (beBytes 32 info.baseFee.toNat ++
    (beBytes 32 info.blobBaseFee.toNat ++ (beBytes 32 info.blockHash.toNat ++
    (beBytes 32 info.batcherAddress.toNat ++ rest))))))))

/-- The caller has checked the length; the offsets count the selector. -/
def decodeCalldataBody (r : Bytes) : L1BlockInfoEcotoneBase where
  baseFeeScalar := wordAt 32 r 4 8
  blobBaseFeeScalar := wordAt 32 r 8 12
  sequenceNumber := wordAt 64 r 12 20
  time := wordAt 64 r 20 28
  number := wordAt 64 r 28 36
  baseFee := wordAt 64 r 60 68
  blobBaseFee := wordAt 128 r 84 100
  blockHash := wordAt 256 r 100 132
  batcherAddress := wordAt 160 r 144 164

end L1BlockInfoEcotoneBase

namespace L1BlockInfoEcotone

/-- First byte of a scalar that holds both fee scalars. -/
def l1Scalar : UInt8 := 1
def l1InfoTxLen : Nat := 4 + 32 * 5
def l1InfoTxSelector : Bytes := [0x44, 0x0a, 0x5e, 0x20]

def encodeCalldata (info : L1BlockInfoEcotone) : Bytes :=
  l1InfoTxSelector ++ info.encodeCalldataBody []

def decodeCalldata (r : Bytes) : Except DecodeError L1BlockInfoEcotone := do
  reject (r.length ≠ l1InfoTxLen) (.invalidEcotoneLength l1InfoTxLen r.length)
  .ok ⟨.decodeCalldataBody r, false, 0⟩

end L1BlockInfoEcotone

namespace L1BlockInfoIsthmus

def l1InfoTxLen : Nat := 4 + 32 * 5 + 4 + 8
def l1InfoTxSelector : Bytes := [0x09, 0x89, 0x99, 0xbe]

def encodeCalldataBody (info : L1BlockInfoIsthmus) (rest : Bytes) : Bytes :=
  info.toL1BlockInfoEcotoneBase.encodeCalldataBody
    (beBytes 4 info.operatorFeeScalar.toNat ++ (beBytes 8 info.operatorFeeConstant.toNat ++ rest))

def encodeCalldata (info : L1BlockInfoIsthmus) : Bytes :=
  l1InfoTxSelector ++ info.encodeCalldataBody []

def decodeCalldataBody (r : Bytes) : L1BlockInfoIsthmus :=
  ⟨.decodeCalldataBody r, wordAt 32 r 164 168, wordAt 64 r 168 176⟩

def decodeCalldata (r : Bytes) : Except DecodeError L1BlockInfoIsthmus := do
  reject (r.length ≠ l1InfoTxLen) (.invalidIsthmusLength l1InfoTxLen r.length)
  .ok (decodeCalldataBody r)

end L1BlockInfoIsthmus

namespace L1BlockInfoJovian

def defaultDaFootprintGasScalar : U16 := 400
def l1InfoTxLen : Nat := 4 + 32 * 5 + 4 + 8 + 2
def l1InfoTxSelector : Bytes := [0x3d, 0xb6, 0xbe, 0x2b]

def encodeCalldata (info : L1BlockInfoJovian) : Bytes :=
  l1InfoTxSelector ++ info.toL1BlockInfoIsthmus.encodeCalldataBody
    (beBytes 2 info.daFootprintGasScalar.toNat ++ [])

/-- A footprint of zero stands for the default, where it is written and where it is read. -/
def footprintOrDefault (scalar : U16) : U16 :=
  if scalar = 0 then defaultDaFootprintGasScalar else scalar

def decodeCalldata (r : Bytes) : Except DecodeError L1BlockInfoJovian := do
  reject (r.length ≠ l1InfoTxLen) (.invalidJovianLength l1InfoTxLen r.length)
  .ok ⟨.decodeCalldataBody r, footprintOrDefault (wordAt 16 r 176 178)⟩

end L1BlockInfoJovian

inductive L1BlockInfoTx where
  | bedrock (info : L1BlockInfoBedrock)
  | ecotone (info : L1BlockInfoEcotone)
  | isthmus (info : L1BlockInfoIsthmus)
  | jovian (info : L1BlockInfoJovian)
  deriving DecidableEq, Repr

namespace L1BlockInfoTx

def encodeCalldata : L1BlockInfoTx → Bytes
  | bedrock info => info.encodeCalldata
  | ecotone info => info.encodeCalldata
  | isthmus info => info.encodeCalldata
  | jovian info => info.encodeCalldata

def decodeCalldata (r : Bytes) : Except DecodeError L1BlockInfoTx :=
  if r.length < 4 then .error .missingSelector
  else if r.take 4 = L1BlockInfoBedrock.l1InfoTxSelector then
    (L1BlockInfoBedrock.decodeCalldata r).map bedrock
  else if r.take 4 = L1BlockInfoEcotone.l1InfoTxSelector then
    (L1BlockInfoEcotone.decodeCalldata r).map ecotone
  else if r.take 4 = L1BlockInfoIsthmus.l1InfoTxSelector then
    (L1BlockInfoIsthmus.decodeCalldata r).map isthmus
  else if r.take 4 = L1BlockInfoJovian.l1InfoTxSelector then
    (L1BlockInfoJovian.decodeCalldata r).map jovian
  else .error .invalidSelector

def base : L1BlockInfoTx → L1BlockInfoBedrockBase
  | bedrock info => info.toL1BlockInfoBedrockBase
  | ecotone info => info.toL1BlockInfoBedrockBase
  | isthmus info => info.toL1BlockInfoBedrockBase
  | jovian info => info.toL1BlockInfoBedrockBase

def batcherAddress (info : L1BlockInfoTx) : Address := info.base.batcherAddress

def l1FeeOverhead : L1BlockInfoTx → U256
  | bedrock info => info.l1FeeOverhead
  | ecotone info => info.l1FeeOverhead
  | isthmus _ => 0
  | jovian _ => 0

def operatorFeeScalar : L1BlockInfoTx → U32
  | jovian info => info.operatorFeeScalar
  | isthmus info => info.operatorFeeScalar
  | _ => 0

def operatorFeeConstant : L1BlockInfoTx → U64
  | jovian info => info.operatorFeeConstant
  | isthmus info => info.operatorFeeConstant
  | _ => 0

def daFootprint : L1BlockInfoTx → Option U16
  | jovian info => some info.daFootprintGasScalar
  | _ => none

end L1BlockInfoTx
end SciChain.Derive.Calldata
