import SciChain.History.Window
import SciChain.Library.DupTable

namespace SciChain.History
open Library

/-- A table of entries with their history: for each key the blocks that changed it, with
the value that the block left, or `none` where it deleted the entry. -/
abbrev HistoryTable (κ ν : Type) [LinearOrder κ] := DupTable κ Nat (Option ν)

abbrev Version (κ ν : Type) := Row κ Nat (Option ν)

variable {κ ν : Type} [LinearOrder κ]

/-- A cursor that sees the latest version of each key up to a block. -/
structure VersionedCursor (κ ν : Type) [LinearOrder κ] where
  table : HistoryTable κ ν
  maxBlockNumber : Nat
  position : Option (Version κ ν)

namespace VersionedCursor

def new (table : HistoryTable κ ν) (maxBlockNumber : Nat) : VersionedCursor κ ν :=
  ⟨table, maxBlockNumber, none⟩

variable (c : VersionedCursor κ ν)

def moveTo (row : Version κ ν) : VersionedCursor κ ν := { c with position := some row }

/-- The latest version of the key up to the block: the one of the block itself, the one
before the first later one, or the last one of the key. -/
def latestVersionForKey (key : κ) : Option (Version κ ν) × VersionedCursor κ ν :=
  match c.table.seekByKeySubkey key c.maxBlockNumber with
  | some vv =>
    if c.maxBlockNumber < vv.subkey then
      match c.table.prevDup vv with
      | some row => (some row, c.moveTo row)
      | none => (none, c.moveTo vv)
    else (some vv, c.moveTo vv)
  | none =>
    match c.table.seekExact key with
    | none => (none, c)
    | some first =>
      match c.table.lastDup first with
      | some row => (some row, c.moveTo row)
      | none => (none, c.moveTo first)

/-- The entry of the key, if its latest version is not a deletion. -/
def seekExact (key : κ) : Option (κ × ν) × VersionedCursor κ ν :=
  match c.latestVersionForKey key with
  | (some ⟨latestKey, _, some value⟩, c) => (some (latestKey, value), c)
  | (_, c) => (none, c)

/-- The first row of the next key. -/
def nextNoDup : Option (Version κ ν) × VersionedCursor κ ν :=
  let next :=
    match c.position with
    | some row => c.table.nextNoDup row
    | none => c.table.rows.head?
  (next, { c with position := next })

/-- The first entry from a key of the table on that is not deleted. -/
def nextLiveFrom : Nat → VersionedCursor κ ν → κ → Option (κ × ν) × VersionedCursor κ ν
  | 0, c, _ => (none, c)
  | fuel + 1, c, firstKey =>
    match c.seekExact firstKey with
    | (some entry, c) => (some entry, c)
    | (none, c) =>
      match c.nextNoDup with
      | (some next, c) => nextLiveFrom fuel c next.key
      | (none, c) => (none, c)

/-- A bound on the keys that are passed. -/
def fuel : Nat := c.table.rows.length

def seek (startKey : κ) : Option (κ × ν) × VersionedCursor κ ν :=
  match c.table.seek startKey with
  | some first => nextLiveFrom c.fuel (c.moveTo first) first.key
  | none => (none, { c with position := none })

/-- The entry after the current key, or the first one of the table. -/
def next (default : κ) : Option (κ × ν) × VersionedCursor κ ν :=
  match c.position with
  | none => c.seek default
  | some _ =>
    match c.nextNoDup with
    | (some next, c) => nextLiveFrom c.fuel c next.key
    | (none, c) => (none, c)

end VersionedCursor

/-- All that a cursor returns until it returns nothing. -/
def drain {γ ε : Type} (next : γ → Option ε × γ) : Nat → γ → List ε
  | 0, _ => []
  | fuel + 1, c =>
    match next c with
    | (some entry, c) => entry :: drain next fuel c
    | (none, _) => []

/-- All that a cursor returns from a move on. -/
def entriesFrom {γ ε : Type} (next : γ → Option ε × γ) (fuel : Nat) : Option ε × γ → List ε
  | (some entry, c) => entry :: drain next fuel c
  | (none, _) => []

/-- A cursor on the entries of one address. -/
structure BoundCursor (κ ν : Type) [LinearOrder κ] where
  inner : VersionedCursor (StorageKey κ) ν
  hashedAddress : HashKey

namespace BoundCursor

def new (table : HistoryTable (StorageKey κ) ν) (maxBlockNumber : Nat) (hashedAddress : HashKey) :
    BoundCursor κ ν :=
  ⟨.new table maxBlockNumber, hashedAddress⟩

variable (c : BoundCursor κ ν)

/-- An entry of another address ends the entries of this one. -/
def own (result : Option (StorageKey κ × ν) × VersionedCursor (StorageKey κ) ν) :
    Option (κ × ν) × BoundCursor κ ν :=
  (match result.1 with
    | some (key, value) =>
      if key.hashedAddress = c.hashedAddress then some (key.sub, value) else none
    | none => none,
    { c with inner := result.2 })

def seekExact (key : κ) : Option (κ × ν) × BoundCursor κ ν :=
  c.own (c.inner.seekExact ⟨c.hashedAddress, key⟩)

def seek (key : κ) : Option (κ × ν) × BoundCursor κ ν := c.own (c.inner.seek ⟨c.hashedAddress, key⟩)

def next (default : κ) : Option (κ × ν) × BoundCursor κ ν :=
  match c.inner.position with
  | none => c.seek default
  | some _ => c.own (c.inner.next ⟨c.hashedAddress, default⟩)

variable (isZero : ν → Bool)

/-- The next entry with a value that is not zero. -/
def nextNonZero (default : κ) : Nat → BoundCursor κ ν → Option (κ × ν) × BoundCursor κ ν
  | 0, c => (none, c)
  | fuel + 1, c =>
    match c.own (c.inner.next ⟨c.hashedAddress, default⟩) with
    | (some entry, c) => if isZero entry.2 then nextNonZero default fuel c else (some entry, c)
    | (none, c) => (none, c)

/-- The same for the storage slots, where a zero is no entry. -/
def seekSlot (default key : κ) : Option (κ × ν) × BoundCursor κ ν :=
  match c.seek key with
  | (some entry, c) =>
    if isZero entry.2 then nextNonZero isZero default c.inner.fuel c else (some entry, c)
  | (none, c) => (none, c)

def nextSlot (default : κ) : Option (κ × ν) × BoundCursor κ ν :=
  match c.inner.position with
  | none => c.seekSlot isZero default default
  | some _ => nextNonZero isZero default c.inner.fuel c

end BoundCursor
end SciChain.History
