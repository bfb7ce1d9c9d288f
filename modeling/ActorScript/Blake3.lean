import ActorScript.Bytes

/-!
# The BLAKE3 hash

The input is cut into chunks of 1024 bytes, each absorbed in blocks of 64
bytes, and the chunks are the leaves of a binary tree whose nodes are joined
pairwise, level by level.  The digest of an input is the first 32 bytes that
the root of its tree gives.  Nothing in this library relies on more than their
number, which is `length_digest`.
-/

namespace ActorScript.Blake3

/-- A chaining value. -/
abbrev Chain := Vector UInt32 8

/-- The words of a block, or of the state that a block is mixed into. -/
abbrev Block := Vector UInt32 16

/-- The chaining value that every chunk and every joint starts from. -/
def initial : Chain :=
  #v[0x6A09E667, 0xBB67AE85, 0x3C6EF372, 0xA54FF53A,
     0x510E527F, 0x9B05688C, 0x1F83D9AB, 0x5BE0CD19]

/-- Where each message word of a round comes from in the round before. -/
def permutation : Vector (Fin 16) 16 :=
  #v[2, 6, 3, 10, 7, 0, 4, 13, 1, 11, 12, 5, 9, 14, 15, 8]

/-- The first block of a chunk. -/
def chunkStart : UInt32 := 1

/-- The last block of a chunk. -/
def chunkEnd : UInt32 := 2

/-- A joint of two nodes. -/
def parent : UInt32 := 4

/-- The root of the tree. -/
def root : UInt32 := 8

/-- The bits of a word, moved right around its end. -/
def rotateRight (value amount : UInt32) : UInt32 :=
  (value >>> amount) ||| (value <<< (32 - amount))

/-- Mixes two message words into four words of the state. -/
def mix (state : Block) (a b c d : Fin 16) (first second : UInt32) : Block :=
  let wordA := state[a] + state[b] + first
  let wordD := rotateRight (state[d] ^^^ wordA) 16
  let wordC := state[c] + wordD
  let wordB := rotateRight (state[b] ^^^ wordC) 12
  let wordA := wordA + wordB + second
  let wordD := rotateRight (wordD ^^^ wordA) 8
  let wordC := wordC + wordD
  let wordB := rotateRight (wordB ^^^ wordC) 7
  (((state.set a wordA).set b wordB).set c wordC).set d wordD

/-- One round: the columns of the state and then its diagonals. -/
def round (state message : Block) : Block :=
  let state := mix state 0 4 8 12 message[0] message[1]
  let state := mix state 1 5 9 13 message[2] message[3]
  let state := mix state 2 6 10 14 message[4] message[5]
  let state := mix state 3 7 11 15 message[6] message[7]
  let state := mix state 0 5 10 15 message[8] message[9]
  let state := mix state 1 6 11 12 message[10] message[11]
  let state := mix state 2 7 8 13 message[12] message[13]
  mix state 3 4 9 14 message[14] message[15]

/-- The message words in the order of the next round. -/
def permute (message : Block) : Block :=
  permutation.map fun index => message[index]

/-- The given number of rounds, the message permuted between them. -/
def rounds : Nat → Block → Block → Block
  | 0, state, _ => state
  | count + 1, state, message => rounds count (round state message) (permute message)

/-- Absorbs a block into a chaining value. -/
def compress (chain : Chain) (block : Block) (counter : UInt64) (length flags : UInt32) : Chain :=
  let state : Block :=
    #v[chain[0], chain[1], chain[2], chain[3], chain[4], chain[5], chain[6], chain[7],
       initial[0], initial[1], initial[2], initial[3],
       counter.toUInt32, (counter >>> 32).toUInt32, length, flags]
  let mixed := rounds 7 state block
  #v[mixed[0] ^^^ mixed[8], mixed[1] ^^^ mixed[9], mixed[2] ^^^ mixed[10],
     mixed[3] ^^^ mixed[11], mixed[4] ^^^ mixed[12], mixed[5] ^^^ mixed[13],
     mixed[6] ^^^ mixed[14], mixed[7] ^^^ mixed[15]]

/-- A node of the tree, up to its last compression. -/
structure Node where
  chain : Chain
  block : Block
  counter : UInt64
  length : UInt32
  flags : UInt32

/-- The chaining value of a node below the root. -/
def Node.value (node : Node) : Chain :=
  compress node.chain node.block node.counter node.length node.flags

/-- The node that joins two others. -/
def Node.join (left right : Node) : Node :=
  ⟨initial, left.value ++ right.value, 0, 64, parent⟩

/-- The words of up to 64 bytes, padded with zeros. -/
def blockOf (bytes : List UInt8) : Block :=
  let array := bytes.toArray
  let byte := fun index => (array[index]?.getD 0).toUInt32
  Vector.ofFn fun index =>
    let start := 4 * index.val
    byte start ||| (byte (start + 1) <<< 8) ||| (byte (start + 2) <<< 16) |||
      (byte (start + 3) <<< 24)

/-- Cuts a list into pieces of the given length, the last of which may be
shorter.  There is always a first piece, even of the empty list. -/
def pieces (size : Nat) (positive : 0 < size) (input : List UInt8) : List (List UInt8) :=
  match _rest : input.drop size with
  | [] => [input]
  | next :: rest => input.take size :: pieces size positive (next :: rest)
termination_by input.length
decreasing_by
  rw [← _rest, List.length_drop]
  have shorter : (input.drop size).length = rest.length + 1 := by simp [_rest]
  rw [List.length_drop] at shorter
  omega

/-- Absorbs the blocks of a chunk, all but the last of which are full. -/
def absorb (counter : UInt64) (chain : Chain) (flags : UInt32) (block : List UInt8) :
    List (List UInt8) → Node
  | [] => ⟨chain, blockOf block, counter, UInt32.ofNat block.length, flags ||| chunkEnd⟩
  | next :: rest =>
      absorb counter (compress chain (blockOf block) counter 64 flags) 0 next rest

/-- The leaf of a chunk. -/
def leaf (chunk : List UInt8) (counter : Nat) : Node :=
  match pieces 64 (by decide) chunk with
  | [] => absorb (UInt64.ofNat counter) initial chunkStart [] []
  | block :: rest => absorb (UInt64.ofNat counter) initial chunkStart block rest

/-- Joins neighbours; a last node without a neighbour moves up unchanged. -/
def joinNeighbours : List Node → List Node
  | left :: right :: rest => left.join right :: joinNeighbours rest
  | nodes => nodes

theorem length_joinNeighbours_le (nodes : List Node) :
    (joinNeighbours nodes).length ≤ nodes.length := by
  fun_induction joinNeighbours nodes with
  | case1 left right rest ih => simp; omega
  | case2 => simp

/-- Joins neighbours, level by level, until one node is left. -/
def tree (first : Node) (others : List Node) : Node :=
  match others with
  | [] => first
  | second :: rest => tree (first.join second) (joinNeighbours rest)
termination_by others.length
decreasing_by
  have := length_joinNeighbours_le rest
  simp
  omega

/-- The root of the tree over an input. -/
def rootOf (input : List UInt8) : Node :=
  match (pieces 1024 (by decide) input).zipIdx.map fun (chunk, counter) => leaf chunk counter with
  | [] => leaf [] 0
  | first :: others => tree first others

/-- The digest of an input. -/
def digest (input : List UInt8) : List UInt8 :=
  let node := rootOf input
  let words := compress node.chain node.block node.counter node.length (node.flags ||| root)
  words.toList.flatMap fun word => Bytes.ofNat 4 word.toNat

/-- A digest has 32 bytes. -/
@[simp]
theorem length_digest (input : List UInt8) : (digest input).length = 32 := by
  simp [digest, List.length_flatMap, List.map_const']

end ActorScript.Blake3
