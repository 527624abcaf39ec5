import ModuleBundler.Text.Hex

/-!
# Digests

BLAKE3 of a byte string. The input is cut into chunks of 1024 bytes, and a chunk into blocks of 64
bytes; the chunks are the leaves of a binary tree, in which the left branch of a node holds the largest
power of two of chunks that leaves something for the right branch. The digest is taken from the root.
-/

namespace ModuleBundler.Digest

/-! ### Constants -/

/-- The eight words that every chunk begins with. -/
def startWords : List UInt32 :=
  [0x6A09E667, 0xBB67AE85, 0x3C6EF372, 0xA54FF53A, 0x510E527F, 0x9B05688C, 0x1F83D9AB, 0x5BE0CD19]

/-- Where each word of a block goes for the next round. -/
def wordOrder : List Nat := [2, 6, 3, 10, 7, 0, 4, 13, 1, 11, 12, 5, 9, 14, 15, 8]

/-- The mark of a block that begins a chunk. -/
def chunkStart : UInt32 := 1

/-- The mark of a block that ends a chunk. -/
def chunkEnd : UInt32 := 2

/-- The mark of a node that joins two branches. -/
def joins : UInt32 := 4

/-- The mark of the root. -/
def isRoot : UInt32 := 8

/-- The number of bytes in a block. -/
def blockSize : Nat := 64

/-- The number of bytes in a chunk. -/
def chunkSize : Nat := 1024

/-! ### Mixing a block into a state -/

/-- The bits of a word turned to the right by `n` places, for `n` from 1 to 31. -/
def rotate (w : UInt32) (n : UInt32) : UInt32 := (w >>> n) ||| (w <<< (32 - n))

/-- The word at a place of a state. -/
def word (s : Array UInt32) (i : Nat) : UInt32 := s.getD i 0

/-- Mixes two words of a block into four words of the state. -/
def mix (s : Array UInt32) (ia ib ic id : Nat) (x y : UInt32) : Array UInt32 :=
  let a := word s ia + word s ib + x
  let d := rotate (word s id ^^^ a) 16
  let c := word s ic + d
  let b := rotate (word s ib ^^^ c) 12
  let a := a + b + y
  let d := rotate (d ^^^ a) 8
  let c := c + d
  let b := rotate (b ^^^ c) 7
  (((s.setIfInBounds ia a).setIfInBounds ib b).setIfInBounds ic c).setIfInBounds id d

/-- Mixes a block into the state, along its columns and then along its diagonals. -/
def mixBlock (s m : Array UInt32) : Array UInt32 :=
  let s := mix s 0 4 8 12 (word m 0) (word m 1)
  let s := mix s 1 5 9 13 (word m 2) (word m 3)
  let s := mix s 2 6 10 14 (word m 4) (word m 5)
  let s := mix s 3 7 11 15 (word m 6) (word m 7)
  let s := mix s 0 5 10 15 (word m 8) (word m 9)
  let s := mix s 1 6 11 12 (word m 10) (word m 11)
  let s := mix s 2 7 8 13 (word m 12) (word m 13)
  mix s 3 4 9 14 (word m 14) (word m 15)

/-- Mixes a block into the state `rounds` times, its words in a new order each time. -/
def mixRounds : Nat → Array UInt32 → Array UInt32 → Array UInt32
  | 0, s, _ => s
  | rounds + 1, s, m => mixRounds rounds (mixBlock s m) (wordOrder.map (word m)).toArray

/-! ### Chunks -/

/-- What is compressed at a node of the tree. -/
structure Node where
  /-- The eight words carried over from what came before. -/
  carried : List UInt32
  /-- The sixteen words of the block. -/
  block : List UInt32
  /-- The number of the chunk. -/
  counter : Nat
  /-- The number of bytes in the block. -/
  size : Nat
  marks : UInt32

/-- The eight words that a node hands on, with `marks` besides its own. -/
def Node.words (node : Node) (marks : UInt32) : List UInt32 :=
  let s := node.carried ++ startWords.take 4 ++
    [UInt32.ofNat node.counter, UInt32.ofNat (node.counter >>> 32), UInt32.ofNat node.size,
      node.marks ||| marks]
  let s := mixRounds 7 s.toArray node.block.toArray
  (List.range 8).map fun i => word s i ^^^ word s (i + 8)

/-- The words of a byte string, the lowest byte of a word first, filled up with zeros. -/
def wordsOfBytes : Nat → List UInt8 → List UInt32
  | 0, _ => []
  | n + 1, bytes =>
    let byte (i : Nat) : UInt32 := (bytes.getD i 0).toUInt32
    (byte 0 ||| byte 1 <<< 8 ||| byte 2 <<< 16 ||| byte 3 <<< 24) :: wordsOfBytes n (bytes.drop 4)

/-- The bytes of words, the lowest byte of a word first. -/
def bytesOfWords (ws : List UInt32) : List UInt8 :=
  ws.flatMap fun (w : UInt32) => [w.toUInt8, (w >>> 8).toUInt8, (w >>> 16).toUInt8, (w >>> 24).toUInt8]

/-- The last block of a chunk as a node, after `carried` and with `marks` for the next block. -/
def chunkFrom (counter : Nat) (carried : List UInt32) (marks : UInt32) (bytes : List UInt8) : Node :=
  let node (marks : UInt32) : Node :=
    { carried, block := wordsOfBytes 16 (bytes.take blockSize), counter
      size := min bytes.length blockSize, marks }
  if bytes.length ≤ blockSize then node (marks ||| chunkEnd)
  else chunkFrom counter ((node marks).words 0) 0 (bytes.drop blockSize)
termination_by bytes.length
decreasing_by
  rw [List.length_drop]
  simp only [blockSize] at *
  omega

/-- A chunk as a node. -/
def chunk (counter : Nat) (bytes : List UInt8) : Node := chunkFrom counter startWords chunkStart bytes

/-! ### The tree -/

/-- How many of `n` bytes go into the left branch. -/
def leftSize (n : Nat) : Nat := chunkSize <<< ((n - 1) / chunkSize).log2

theorem leftSize_pos (n : Nat) : 0 < leftSize n := by
  rw [leftSize, Nat.shiftLeft_eq]
  exact Nat.mul_pos (by decide) (Nat.pow_pos (by decide))

/-- Something is left for the right branch. -/
theorem leftSize_lt {n : Nat} (h : chunkSize < n) : leftSize n < n := by
  have h0 : (n - 1) / chunkSize ≠ 0 := by
    have := Nat.div_pos (a := n - 1) (b := chunkSize) (by omega) (by decide)
    omega
  have h1 := Nat.log2_self_le h0
  have h2 := Nat.mul_le_mul_left chunkSize h1
  have h3 := Nat.mul_div_le (n - 1) chunkSize
  rw [leftSize, Nat.shiftLeft_eq]
  omega

/-- The tree over a byte string, whose first chunk has the number `counter`. -/
def tree (counter : Nat) (bytes : List UInt8) : Node :=
  if _h : chunkSize < bytes.length then
    let n := leftSize bytes.length
    let left := tree counter (bytes.take n)
    let right := tree (counter + n / chunkSize) (bytes.drop n)
    { carried := startWords, block := left.words 0 ++ right.words 0, counter := 0
      size := blockSize, marks := joins }
  else chunk counter bytes
termination_by bytes.length
decreasing_by
  · have := leftSize_lt _h
    rw [List.length_take]
    omega
  · have := leftSize_pos bytes.length
    rw [List.length_drop]
    omega

/-! ### The digest -/

/-- The 32 bytes of the digest of a byte string. -/
def bytes (input : List UInt8) : List UInt8 := bytesOfWords ((tree 0 input).words isRoot)

/-- Bytes in lower-case hexadecimal digits. -/
def hex (bs : List UInt8) : String := String.ofList (Text.hexOfBytes bs)

/-- The bytes of a text in UTF-8. -/
def utf8 (s : String) : List UInt8 := s.toList.flatMap String.utf8EncodeChar

end ModuleBundler.Digest
