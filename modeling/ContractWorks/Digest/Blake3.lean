import ContractWorks.Text.Hex

namespace ContractWorks.Digest.Blake3

/-- These eight words start every chain. -/
def startWords : Vector UInt32 8 :=
  #v[0x6A09E667, 0xBB67AE85, 0x3C6EF372, 0xA54FF53A, 0x510E527F, 0x9B05688C, 0x1F83D9AB, 0x5BE0CD19]

/-- This flag marks the first block of a chunk. -/
def chunkStart : UInt32 := 1

/-- This flag marks the last block of a chunk. -/
def chunkEnd : UInt32 := 2

/-- This flag marks a node above chunks. -/
def parentFlag : UInt32 := 4

/-- This flag marks the top of the tree. -/
def rootFlag : UInt32 := 8

/-- This function rotates a word to the right. -/
def rotate (word count : UInt32) : UInt32 :=
  (word >>> count) ||| (word <<< (32 - count))

/-- This function mixes two message words into one column or diagonal of the state. -/
def mix (state : Vector UInt32 16) (a b c d : Fin 16) (first second : UInt32) : Vector UInt32 16 :=
  let wordA := state[a] + state[b] + first
  let wordD := rotate (state[d] ^^^ wordA) 16
  let wordC := state[c] + wordD
  let wordB := rotate (state[b] ^^^ wordC) 12
  let lastA := wordA + wordB + second
  let lastD := rotate (wordD ^^^ lastA) 8
  let lastC := wordC + lastD
  let lastB := rotate (wordB ^^^ lastC) 7
  (((state.set a lastA).set b lastB).set c lastC).set d lastD

/-- This function mixes a whole message block into the state once. -/
def round (state message : Vector UInt32 16) : Vector UInt32 16 :=
  let state := mix state 0 4 8 12 message[0] message[1]
  let state := mix state 1 5 9 13 message[2] message[3]
  let state := mix state 2 6 10 14 message[4] message[5]
  let state := mix state 3 7 11 15 message[6] message[7]
  let state := mix state 0 5 10 15 message[8] message[9]
  let state := mix state 1 6 11 12 message[10] message[11]
  let state := mix state 2 7 8 13 message[12] message[13]
  mix state 3 4 9 14 message[14] message[15]

/-- This function reorders the message words between rounds. -/
def permute (message : Vector UInt32 16) : Vector UInt32 16 :=
  #v[message[2], message[6], message[3], message[10], message[7], message[0], message[4],
    message[13], message[1], message[11], message[12], message[5], message[9], message[14],
    message[15], message[8]]

/-- This function runs a number of rounds. -/
def rounds : Nat → Vector UInt32 16 → Vector UInt32 16 → Vector UInt32 16
  | 0, state, _ => state
  | count + 1, state, message => rounds count (round state message) (permute message)

/-- A node holds everything that one compression needs. -/
structure Node where
  chain : Vector UInt32 8
  message : Vector UInt32 16
  counter : Nat
  length : Nat
  flags : UInt32

/-- This function compresses a node to its eight chaining words; `extra` flags are added. -/
def Node.compress (node : Node) (extra : UInt32) : Vector UInt32 8 :=
  let chain := node.chain
  let state : Vector UInt32 16 :=
    #v[chain[0], chain[1], chain[2], chain[3], chain[4], chain[5], chain[6], chain[7],
      startWords[0], startWords[1], startWords[2], startWords[3],
      UInt32.ofNat node.counter, UInt32.ofNat (node.counter / 0x100000000),
      UInt32.ofNat node.length, node.flags ||| extra]
  let mixed := rounds 7 state node.message
  #v[mixed[0] ^^^ mixed[8], mixed[1] ^^^ mixed[9], mixed[2] ^^^ mixed[10], mixed[3] ^^^ mixed[11],
    mixed[4] ^^^ mixed[12], mixed[5] ^^^ mixed[13], mixed[6] ^^^ mixed[14], mixed[7] ^^^ mixed[15]]

/-- This function reads four octets as a word, lowest first; octets that are missing count as zero. -/
def word (bytes : List UInt8) (index : Nat) : UInt32 :=
  let octet (offset : Nat) : UInt32 := (bytes.getD (4 * index + offset) 0).toUInt32
  octet 0 ||| (octet 1 <<< 8) ||| (octet 2 <<< 16) ||| (octet 3 <<< 24)

/-- This function reads a block of at most 64 octets as message words. -/
def messageWords (bytes : List UInt8) : Vector UInt32 16 :=
  Vector.ofFn fun index : Fin 16 => word bytes index.val

/-- This function compresses the blocks of a chunk in order and leaves the last one as a node. -/
def chunkBlocks (counter : Nat) : Nat → Vector UInt32 8 → UInt32 → List UInt8 → Node
  | 0, chain, start, bytes =>
    ⟨chain, messageWords bytes, counter, bytes.length, start ||| chunkEnd⟩
  | steps + 1, chain, start, bytes =>
    if bytes.length ≤ 64 then
      ⟨chain, messageWords bytes, counter, bytes.length, start ||| chunkEnd⟩
    else
      let node : Node := ⟨chain, messageWords (bytes.take 64), counter, 64, start⟩
      chunkBlocks counter steps (node.compress 0) 0 (bytes.drop 64)

/-- This function gives the node of the chunk with a given number. -/
def chunkNode (counter : Nat) (bytes : List UInt8) : Node :=
  chunkBlocks counter 16 startWords chunkStart bytes

/-- This function gives the node above two subtrees. -/
def parentNode (left right : Vector UInt32 8) : Node :=
  ⟨startWords,
    #v[left[0], left[1], left[2], left[3], left[4], left[5], left[6], left[7],
      right[0], right[1], right[2], right[3], right[4], right[5], right[6], right[7]],
    0, 64, parentFlag⟩

/-- This function cuts octets into chunks of 1024, at least one of them. -/
def chunks : Nat → List UInt8 → List (List UInt8)
  | 0, bytes => [bytes]
  | steps + 1, bytes =>
    let rest := bytes.drop 1024
    if rest.isEmpty then [bytes] else bytes.take 1024 :: chunks steps rest

/-- This function gives the node above numbered chunks; the left part is the largest power of two below
their number. -/
def tree : Nat → Nat → List (List UInt8) → Node
  | 0, counter, leaves => chunkNode counter leaves.flatten
  | steps + 1, counter, leaves =>
    match leaves with
    | [] => chunkNode counter []
    | [leaf] => chunkNode counter leaf
    | _ =>
      let leftCount := Nat.pow 2 (Nat.log2 (leaves.length - 1))
      let left := tree steps counter (leaves.take leftCount)
      let right := tree steps (counter + leftCount) (leaves.drop leftCount)
      parentNode (left.compress 0) (right.compress 0)

/-- This function writes a word as four octets, lowest first. -/
def wordOctets (value : UInt32) : List UInt8 :=
  [value.toUInt8, (value >>> 8).toUInt8, (value >>> 16).toUInt8, (value >>> 24).toUInt8]

/-- This function gives the 32 octets of the digest. -/
def digest (bytes : List UInt8) : List UInt8 :=
  let leaves := chunks (bytes.length / 1024) bytes
  ((tree leaves.length 0 leaves).compress rootFlag).toList.flatMap wordOctets

end ContractWorks.Digest.Blake3

namespace ContractWorks.Digest

/-- This function gives the digest of octets as hexadecimal digits. -/
def hexOf (bytes : List UInt8) : String :=
  Text.Hex.encode (Blake3.digest bytes)

/-- This function gives the digest of a text as hexadecimal digits. -/
def ofText (text : String) : String :=
  hexOf text.toUTF8.toList

end ContractWorks.Digest
