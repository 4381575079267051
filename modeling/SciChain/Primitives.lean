import SciChain.Library.BigEndian

namespace SciChain

abbrev U8 := BitVec 8
abbrev U16 := BitVec 16
abbrev U32 := BitVec 32
abbrev U64 := BitVec 64
abbrev U128 := BitVec 128
abbrev U256 := BitVec 256
abbrev Address := BitVec 160
abbrev Selector := BitVec 32
abbrev B256 := BitVec 256
abbrev Bytes := List UInt8

/-- Destination of a transaction or of one call of a batch. -/
inductive TxKind where
  | create
  | call (target : Address)
  deriving DecidableEq, Repr

def TxKind.isCall : TxKind → Bool
  | .call _ => true
  | .create => false

/-- The first four bytes of the calldata. -/
def selectorOf (input : Bytes) : Selector := BitVec.ofNat 32 (beValue (input.take 4))

/-- `Address::from_slice`. -/
def addressFromSlice (bytes : Bytes) : Address := BitVec.ofNat 160 (beValue bytes)

/-- Feature ladder of the ported precompiles. -/
inductive TempoHardfork where
  | Genesis | T0 | T1 | T1A | T1B | T1C | T2 | T3 | T4 | T5 | T6
  deriving DecidableEq, Repr

namespace TempoHardfork

def level : TempoHardfork → Nat
  | Genesis => 0 | T0 => 1 | T1 => 2 | T1A => 3 | T1B => 4 | T1C => 5
  | T2 => 6 | T3 => 7 | T4 => 8 | T5 => 9 | T6 => 10

def isT0 (spec : TempoHardfork) : Bool := T0.level ≤ spec.level
def isT1 (spec : TempoHardfork) : Bool := T1.level ≤ spec.level
def isT2 (spec : TempoHardfork) : Bool := T2.level ≤ spec.level
def isT3 (spec : TempoHardfork) : Bool := T3.level ≤ spec.level
def isT4 (spec : TempoHardfork) : Bool := T4.level ≤ spec.level
def isT5 (spec : TempoHardfork) : Bool := T5.level ≤ spec.level

end TempoHardfork

/-- `SCI_LAUNCH_HARDFORK`: the level both the precompiles and the hook run at. -/
def sciLaunchHardfork : TempoHardfork := .T5

end SciChain
