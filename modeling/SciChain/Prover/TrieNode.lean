import SciChain.Library.BigEndian
import SciChain.Primitives

namespace SciChain.Prover
open Library

abbrev Nibbles := List Nat

/-- The two halves of every byte, the higher one first. -/
def unpack (bytes : Bytes) : Nibbles := bytes.flatMap fun b => [b.toNat / 16, b.toNat % 16]

def emptyRootHash : B256 := 0x56e81f171bcc55a6ff8345e692c0f86e5b48e01b996cadc001622fb5e363b421

inductive TrieNodeError where
  | pathTooShort
  | keyNotFound
  | provider
  deriving DecidableEq, Repr

/-- A node of a Merkle Patricia trie. The first nibbles of a path are its `front`. -/
inductive TrieNode where
  | empty
  | blinded (commitment : B256)
  | leaf (front : Nibbles) (value : Bytes)
  | extension (front : Nibbles) (node : TrieNode)
  | branch (stack : List TrieNode)

namespace TrieNode

variable {ε : Type} (fetcher : B256 → Except ε TrieNode)

def unblind : TrieNode → Except TrieNodeError TrieNode
  | blinded commitment =>
    if commitment = emptyRootHash then .ok empty
    else (fetcher commitment).mapError fun _ => .provider
  | node => .ok node

/-- The calls of `open`; `none` is a call too many, or a slice beyond the path, which panics. -/
def openPath : Nat → TrieNode → Nibbles → Option (Except TrieNodeError (Option Bytes))
  | 0, _, _ => none
  | calls + 1, branch stack, path =>
    match path with
    | [] => some (.error .pathTooShort)
    | nibble :: rest =>
      match stack[nibble]? with
      | some node => openPath calls node rest
      | none => some (.ok none)
  | _ + 1, leaf front value, path => some (.ok (if path = front then some value else none))
  | calls + 1, extension front node, path =>
    if path.length < front.length then none
    else if path.take front.length = front then
      match node.unblind fetcher with
      | .ok node => openPath calls node (path.drop front.length)
      | .error e => some (.error e)
    else some (.ok none)
  | calls + 1, blinded commitment, path =>
    match (blinded commitment).unblind fetcher with
    | .ok node => openPath calls node path
    | .error e => some (.error e)
  | _ + 1, empty, _ => some (.ok none)

end TrieNode
end SciChain.Prover
