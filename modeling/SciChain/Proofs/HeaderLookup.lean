import SciChain.Prover.HeaderLookup

namespace SciChain.Prover
open Derive Library

/-- The slots of the history contract behind a block: every block from `first` on has written the
hash of its parent. The slots that none has written are zero. -/
def historySlots (first : Nat) (chain : Nat → L2Header) : Nat → Nat → B256
  | 0, _ => 0
  | k + 1, slot =>
    if first ≤ k + 1 ∧ slot = k % 8191 then (chain k).hash else historySlots first chain k slot

/-- A trie stores words without their leading zeros. -/
def slotValue (word : B256) : Bytes := Rlp.encodeString (Rlp.trimmed 32 word.toNat)

section Tries

variable {ε : Type} {fetcher : B256 → Except ε TrieNode}

def TrieNode.isBlinded : TrieNode → Bool
  | .blinded _ => true
  | _ => false

/-- The values under a node are such, and its paths have `n` nibbles. A node behind a hash may be
missing. -/
inductive Within (fetcher : B256 → Except ε TrieNode) :
    Nat → TrieNode → (Nibbles → Bytes → Prop) → Prop
  | empty : Within fetcher n .empty values
  | leaf (holds : values front value) : Within fetcher n (.leaf front value) values
  | extension (nonempty : 0 < front.length)
      (child : Within fetcher n node fun rest => values (front ++ rest)) :
      Within fetcher (front.length + n) (.extension front node) values
  | branch (children : ∀ (nibble : Nat) node, stack[nibble]? = some node →
      Within fetcher n node fun rest => values (nibble :: rest)) :
      Within fetcher (n + 1) (.branch stack) values
  | blinded (opened : ∀ node, fetcher commitment = .ok node → node.isBlinded = false)
      (fetched : ∀ node, fetcher commitment = .ok node → Within fetcher n node values) :
      Within fetcher n (.blinded commitment) values

theorem TrieNode.blinded_or (node : TrieNode) :
    (∃ commitment, node = .blinded commitment) ∨
      (node.isBlinded = false ∧ node.unblind fetcher = .ok node) := by
  cases node with
  | blinded commitment => exact .inl ⟨commitment, rfl⟩
  | _ => exact .inr ⟨rfl, rfl⟩

/-- The walk ends: a hash costs one call, and every other call takes a nibble at least. -/
theorem Within.openPath (h : Within fetcher n node values) (hlen : path.length = n)
    (hcalls : 2 * n + (if node.isBlinded then 1 else 0) ≤ calls) :
    ∃ r, node.openPath fetcher (calls + 1) path = some r ∧
      ∀ value, r = .ok (some value) → values path value := by
  induction h generalizing path calls with
  | empty => exact ⟨_, rfl, fun _ h => by cases h⟩
  | leaf holds =>
    refine ⟨_, rfl, fun value hvalue => ?_⟩
    split at hvalue
    · rename_i heq
      cases hvalue
      exact heq ▸ holds
    · cases hvalue
  | @extension n node values front nonempty child ih =>
    obtain ⟨calls, rfl⟩ : ∃ c, calls = c + 1 := ⟨calls - 1, by omega⟩
    rw [TrieNode.openPath, if_neg (by omega)]
    split
    · rename_i hfront
      have hsplit : front ++ path.drop front.length = path := by
        conv_rhs => rw [← List.take_append_drop front.length path, hfront]
      have hrest : (path.drop front.length).length = n := by
        rw [List.length_drop]
        omega
      rw [← hsplit, List.drop_left]
      rcases node.blinded_or with ⟨commitment, rfl⟩ | ⟨hopened, hsame⟩
      · exact ih hrest (show 2 * n + 1 ≤ calls + 1 by omega)
      · rw [hsame]
        exact ih hrest (by rw [hopened, if_neg Bool.false_ne_true]; omega)
    · exact ⟨_, rfl, fun _ h => by cases h⟩
  | branch children ih =>
    obtain ⟨calls, rfl⟩ : ∃ c, calls = c + 1 := ⟨calls - 1, by omega⟩
    obtain ⟨nibble, rest, rfl⟩ := List.exists_cons_of_length_eq_add_one hlen
    rw [TrieNode.openPath]
    split
    · rename_i node hnode
      exact ih nibble node hnode (Nat.succ.inj hlen) (by split <;> omega)
    · exact ⟨_, rfl, fun _ h => by cases h⟩
  | @blinded commitment n values opened fetched ih =>
    simp only [TrieNode.isBlinded, if_true] at hcalls
    obtain ⟨calls, rfl⟩ : ∃ c, calls = c + 1 := ⟨calls - 1, by omega⟩
    rw [TrieNode.openPath, TrieNode.unblind]
    split_ifs with hroot
    · exact ⟨_, rfl, fun _ h => by cases h⟩
    · cases hnode : fetcher commitment with
      | error e => exact ⟨_, rfl, fun _ h => by cases h⟩
      | ok node =>
        exact ih node hnode hlen (by rw [opened node hnode, if_neg Bool.false_ne_true]; omega)

theorem Within.of_fetched (hfetch : fetcher commitment = .ok node)
    (hopened : node.isBlinded = false) (h : Within fetcher n node values) :
    Within fetcher n (.blinded commitment) values := by
  refine .blinded (fun node' hnode => ?_) (fun node' hnode => ?_) <;>
    cases hfetch.symm.trans hnode
  · exact hopened
  · exact h

theorem openTrie_of_within {oracle : Oracle}
    (h : Within oracle.trieNodeByHash 64 (.blinded root) values) (key : B256) :
    ∃ r, openTrie oracle root key = some r ∧
      ∀ value, r = .ok value → values (nibblesOf key) value := by
  have hlen : (nibblesOf key).length = 64 := by
    simp [nibblesOf, unpack, List.length_flatMap]
  obtain ⟨r, hr, hfound⟩ := h.openPath hlen (Nat.le_refl 129)
  refine ⟨keyFound r, by rw [openTrie, hr]; rfl, fun value hvalue => hfound value ?_⟩
  cases r with
  | error e => cases hvalue
  | ok found =>
    cases found with
    | none => cases hvalue
    | some found =>
      cases hvalue
      rfl

end Tries

/-- A value at the path of a slot is what the history contract has written there. -/
def Recorded (oracle : Oracle) (first : Nat) (chain : Nat → L2Header) (k : Nat) (path : Nibbles)
    (value : Bytes) : Prop :=
  ∀ slot < 8191, path = nibblesOf (oracle.keccak256 (beBytes 32 slot)) →
    historySlots first chain k slot ≠ 0 ∧ value = slotValue (historySlots first chain k slot)

/-- An oracle that has the headers of a chain up to its head. The nodes it has of the state of a
block are those of tries, and under the history contract they have what it has written. -/
structure Serves (oracle : Oracle) (chain : Nat → L2Header) (first head : Nat) : Prop where
  number : ∀ k ≤ head, (chain k).number.toNat = k
  parent : ∀ k < head, (chain (k + 1)).parentHash = (chain k).hash
  header : ∀ k ≤ head, oracle.headerByHash (chain k).hash = .ok (chain k)
  history : ∀ k ≤ head, Within oracle.trieNodeByHash 64 (.blinded (chain k).stateRoot)
    fun path rawAccount => path = nibblesOf hashedHistoryStorageAddress →
      ∀ storageRoot, oracle.storageRoot rawAccount = .ok storageRoot →
        Within oracle.trieNodeByHash 64 (.blinded storageRoot) (Recorded oracle first chain k)

section Ring

/-- A written slot has the hash of one of the last 8191 blocks. -/
theorem historySlots_cases (h : historySlots first chain k slot ≠ 0) :
    ∃ m, historySlots first chain k slot = (chain m).hash ∧ first ≤ m + 1 ∧ m % 8191 = slot ∧
      m < k ∧ k ≤ m + 8191 := by
  induction k with
  | zero => exact absurd rfl h
  | succ k ih =>
    rw [historySlots] at h ⊢
    split
    · rename_i hwrite
      exact ⟨k, rfl, hwrite.1, hwrite.2.symm, by omega, by omega⟩
    · rename_i hkept
      rw [if_neg hkept] at h
      obtain ⟨m, heq, hfirst, hslot, hlt, hle⟩ := ih h
      -- The block 8191 behind `m` has written the slot of `m` again.
      exact ⟨m, heq, hfirst, hslot, by omega, by omega⟩

theorem historySlot_toNat (number blockNumber : U64) :
    (historySlot number blockNumber).toNat =
      (if number.toNat - blockNumber.toNat ≤ 8191 then blockNumber.toNat else number.toNat) %
        8191 := by
  have hle : satSub number blockNumber ≤ historyServeWindow ↔
      number.toNat - blockNumber.toNat ≤ 8191 := by
    rw [BitVec.le_def, toNat_satSub]
    rfl
  rw [historySlot, BitVec.toNat_umod]
  simp only [hle]
  split <;> rfl

/-- The entry of the slot that is asked for is not below the number. -/
theorem le_of_historySlot (hlt : blockNumber.toNat < number.toNat)
    (hslot : m % 8191 = (historySlot number blockNumber).toNat) (hm : m < number.toNat)
    (hring : number.toNat ≤ m + 8191) : blockNumber.toNat ≤ m := by
  rw [historySlot_toNat] at hslot
  split at hslot <;> omega

theorem decodeB256_slotValue (h : decodeB256 (slotValue word) = .ok blockHash) :
    blockHash = word := by
  have hlt : word.toNat < 256 ^ 32 := word.isLt
  have hlen := Rlp.length_trimmed_le 32 word.toNat
  have hdecode : Rlp.decodeBytes (slotValue word ++ []) false =
      .ok (Rlp.trimmed 32 word.toNat, []) := Rlp.decodeBytes_encodeString (by omega)
  rw [List.append_nil] at hdecode
  rw [decodeB256, hdecode] at h
  dsimp only at h
  split at h
  · rw [← Except.ok.inj h, Rlp.beValue_trimmed hlt, BitVec.ofNat_toNat, BitVec.setWidth_eq]
  · cases h

end Ring

section Lookup

variable {oracle : Oracle} {chain : Nat → L2Header} {first head : Nat}

/-- A jump lands on a block that is not below the number and still in the ring. -/
theorem Serves.lookup (h : Serves oracle chain first head) (hk : k ≤ head)
    (hlt : blockNumber.toNat < k) :
    ∃ r, eip2935HistoryLookup oracle (chain k) blockNumber = some r ∧
      ∀ blockHash, r = .ok blockHash → ∃ m, blockHash = (chain m).hash ∧ blockNumber.toNat ≤ m ∧
        m < k ∧ historySlots first chain k (m % 8191) = (chain m).hash := by
  have hnumber := h.number k hk
  unfold eip2935HistoryLookup
  dsimp only
  split
  · exact ⟨_, rfl, nofun⟩
  · obtain ⟨account, haccount, hfound⟩ :=
      openTrie_of_within (h.history k hk) hashedHistoryStorageAddress
    rw [haccount, Option.bind_eq_bind, Option.bind_some]
    split
    · exact ⟨_, rfl, nofun⟩
    · rename_i storageRoot hroot
      obtain ⟨rawAccount, rfl, hstorage⟩ := (bind_ok _ _ _).mp hroot
      obtain ⟨r, hopen, hvalue⟩ := openTrie_of_within (hfound rawAccount rfl rfl _ hstorage)
        (oracle.keccak256 (beBytes 32 (historySlot (chain k).number blockNumber).toNat))
      rw [hopen]
      refine ⟨r >>= decodeB256, rfl, fun blockHash hok => ?_⟩
      obtain ⟨value, rfl, hdecode⟩ := (bind_ok _ _ _).mp hok
      have hslot : (historySlot (chain k).number blockNumber).toNat < 8191 := by
        rw [historySlot_toNat]
        exact Nat.mod_lt _ (by decide)
      have hstored := hvalue value rfl _ hslot rfl
      obtain ⟨m, hhash, _, hm, hmk, hring⟩ := historySlots_cases hstored.1
      rw [hstored.2] at hdecode
      rw [decodeB256_slotValue hdecode]
      refine ⟨m, hhash, ?_, hmk, hm ▸ hhash⟩
      exact le_of_historySlot (by omega) hm (by omega) (by omega)

theorem Serves.walkBack {p : OracleL2ChainProvider} (h : Serves p.oracle chain first head)
    (hle : blockNumber.toNat ≤ k) (hk : k ≤ head)
    (hfuel : k - blockNumber.toNat + (if linear then 1 else 2) ≤ fuel) :
    p.walkBack blockNumber fuel (chain k) linear = some (.ok (chain blockNumber.toNat)) := by
  induction fuel generalizing k linear with
  | zero => split at hfuel <;> omega
  | succ fuel ih =>
    have hnumber : (chain k).number ≤ blockNumber ↔ k ≤ blockNumber.toNat := by
      rw [BitVec.le_def, h.number k hk]
    rw [OracleL2ChainProvider.walkBack]
    simp only [hnumber]
    split
    · rename_i hend
      rw [Nat.le_antisymm hle hend]
    · rename_i hmore
      split
      · rename_i hjump
        rw [Bool.and_eq_true, Bool.not_eq_true'] at hjump
        obtain rfl := hjump.2
        obtain ⟨r, hlookup, hjumped⟩ := h.lookup hk (Nat.lt_of_not_le hmore)
        rw [hlookup]
        cases r with
        | error e => exact ih hle hk (by simpa using hfuel)
        | ok blockHash =>
          obtain ⟨m, rfl, hm, hmk, _⟩ := hjumped blockHash rfl
          simp only [h.header m (by omega)]
          refine ih hm (by omega) ?_
          simp only [Bool.false_eq_true, if_false] at hfuel ⊢
          omega
      · obtain ⟨k, rfl⟩ : ∃ j, k = j + 1 := ⟨k - 1, by omega⟩
        simp only [h.parent k (by omega), h.header k (by omega)]
        exact ih (by omega) (by omega) (by omega)

/-- The header of the ancestor of a safe head with a number. -/
theorem header_by_number (p : OracleL2ChainProvider) (chain : Nat → L2Header) (first head : Nat)
    (h : Serves p.oracle chain first head) (hhead : p.l2SafeHead = (chain head).hash)
    (blockNumber : U64) :
    (blockNumber.toNat ≤ head → ∀ fuel, head - blockNumber.toNat + 2 ≤ fuel →
      p.headerByNumber fuel blockNumber = some (.ok (chain blockNumber.toNat))) ∧
    (head < blockNumber.toNat → ∀ fuel, p.headerByNumber fuel blockNumber =
      some (.error (.blockNumberPastHead blockNumber (chain head).number))) ∧
    ∀ k ≤ head, blockNumber.toNat < k → ∃ r,
      eip2935HistoryLookup p.oracle (chain k) blockNumber = some r ∧
        ∀ blockHash, r = .ok blockHash → ∃ m, blockHash = (chain m).hash ∧
          blockNumber.toNat ≤ m ∧ m < k ∧
          historySlots first chain k (m % 8191) = (chain m).hash := by
  have hnumber := h.number head (Nat.le_refl head)
  have hlt : (chain head).number < blockNumber ↔ head < blockNumber.toNat := by
    rw [BitVec.lt_def, hnumber]
  refine ⟨fun hle fuel hfuel => ?_, fun hpast fuel => ?_,
    fun k hk hbelow => h.lookup hk hbelow⟩
  · rw [OracleL2ChainProvider.headerByNumber, hhead, h.header head (Nat.le_refl head)]
    simp only [hlt, Nat.not_lt.mpr hle, if_false]
    exact h.walkBack hle (Nat.le_refl head) hfuel
  · rw [OracleL2ChainProvider.headerByNumber, hhead, h.header head (Nat.le_refl head)]
    simp [hlt, hpast]

end Lookup

section Recorded

def recordedChain (k : Nat) : L2Header where
  hash := BitVec.ofNat 256 (2 ^ 255 + k)
  parentHash := BitVec.ofNat 256 (2 ^ 255 + k - 1)
  number := BitVec.ofNat 64 k
  timestamp := BitVec.ofNat 64 k
  stateRoot := BitVec.ofNat 256 k

/-- The states are tries of one leaf, the account of the history contract. Its storage is empty
before block 3, which writes the hash of block 2. -/
def recordedNode (hash : B256) : TrieNode :=
  if hash.toNat ≤ 3 then .leaf (nibblesOf hashedHistoryStorageAddress) (beBytes 32 (hash.toNat + 4))
  else if hash = 7 then .leaf (nibblesOf 2) (slotValue (recordedChain 2).hash)
  else .empty

/-- Only the key of slot 2 has a hash of its own. -/
def recordedOracle : Oracle where
  keccak256 bytes := if bytes = beBytes 32 2 then 2 else 0
  headerByHash blockHash := .ok (recordedChain (blockHash.toNat - 2 ^ 255))
  hintStorageProof _ _ _ := .ok ()
  trieNodeByHash hash := .ok (recordedNode hash)
  storageRoot rawAccount := .ok (BitVec.ofNat 256 (beValue rawAccount))

def recordedProvider : OracleL2ChainProvider where
  l2Head := (recordedChain 3).hash
  rollupConfig := .withUpgrades ⟨none, none, none, none, none, none, some 0, none⟩
  oracle := recordedOracle
  cursor := none

theorem recordedStorage (hk : k ≤ 3) : Within recordedOracle.trieNodeByHash 64
    (.blinded (BitVec.ofNat 256 (k + 4))) (Recorded recordedOracle 3 recordedChain k) := by
  rcases Nat.eq_or_lt_of_le hk with rfl | hlt
  · refine .of_fetched rfl rfl (.leaf fun slot hslot hpath => ?_)
    have hkey : slot = 2 := by
      by_contra hne
      have hother : beBytes 32 slot ≠ beBytes 32 2 := by
        intro heq
        have := congrArg beValue heq
        rw [beValue_beBytes (by omega), beValue_beBytes (by omega)] at this
        exact hne this
      simp only [recordedOracle, if_neg hother] at hpath
      revert hpath
      decide +kernel
    rw [hkey]
    decide +kernel
  · have hnode : recordedOracle.trieNodeByHash (BitVec.ofNat 256 (k + 4)) = .ok .empty := by
      obtain rfl | rfl | rfl : k = 0 ∨ k = 1 ∨ k = 2 := by omega
      all_goals rfl
    exact .of_fetched hnode rfl .empty

theorem recordedOracle_serves : Serves recordedOracle recordedChain 3 3 where
  number k hk := Nat.mod_eq_of_lt (by omega)
  parent k hk := rfl
  header k hk := by
    have hhash : (recordedChain k).hash.toNat = 2 ^ 255 + k := Nat.mod_eq_of_lt (by omega)
    simp [recordedOracle, hhash]
  history k hk := by
    have hroot : (recordedChain k).stateRoot.toNat = k := Nat.mod_eq_of_lt (by omega)
    have hnode : recordedOracle.trieNodeByHash (recordedChain k).stateRoot =
        .ok (.leaf (nibblesOf hashedHistoryStorageAddress) (beBytes 32 (k + 4))) := by
      simp only [recordedOracle, recordedNode, hroot, if_pos hk]
    refine .of_fetched hnode rfl (.leaf fun _ storageRoot hstorage => ?_)
    simp only [recordedOracle, beValue_beBytes (show k + 4 < 256 ^ 32 by omega)] at hstorage
    cases hstorage
    exact recordedStorage hk

/-- Block 2 is reached by a jump, block 0 by its children. -/
theorem header_by_number_recorded :
    recordedProvider.headerByNumber 5 2 = some (.ok (recordedChain 2)) ∧
      recordedProvider.headerByNumber 5 0 = some (.ok (recordedChain 0)) :=
  ⟨(header_by_number recordedProvider recordedChain 3 3 recordedOracle_serves rfl 2).1
      (by decide) 5 (by decide),
    (header_by_number recordedProvider recordedChain 3 3 recordedOracle_serves rfl 0).1
      (by decide) 5 (by decide)⟩

end Recorded
end SciChain.Prover
