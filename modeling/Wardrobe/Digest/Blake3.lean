/-!
# The BLAKE3 hash

The hash of a byte sequence: chunks of 1024 bytes, each a chain of 64-byte blocks, combined by a
binary tree whose left subtrees are full. Combining neighbours level by level, with an odd node at
the end carried up, gives the same tree.
-/

namespace Wardrobe.Blake3

/-- Eight words that stand for a chunk or a subtree. -/
abbrev ChainingValue := Vector UInt32 8

/-- Sixteen words. -/
abbrev Block := Vector UInt32 16

/-- The initial chaining value. -/
def iv : ChainingValue :=
  #v[0x6A09E667, 0xBB67AE85, 0x3C6EF372, 0xA54FF53A,
    0x510E527F, 0x9B05688C, 0x1F83D9AB, 0x5BE0CD19]

/-- The flag of the first block of a chunk. -/
def chunkStart : UInt32 := 1

/-- The flag of the last block of a chunk. -/
def chunkEnd : UInt32 := 2

/-- The flag of an inner node of the tree. -/
def parent : UInt32 := 4

/-- The flag of the last compression. -/
def root : UInt32 := 8

/-- Rotates a word to the right. -/
def rotate (x : UInt32) (n : UInt32) : UInt32 :=
  (x >>> n) ||| (x <<< (32 - n))

/-- Mixes two message words into one column or diagonal of the state. -/
def mix (s : Block) (a b c d : Fin 16) (x y : UInt32) : Block :=
  let a₁ := s[a] + s[b] + x
  let d₁ := rotate (s[d] ^^^ a₁) 16
  let c₁ := s[c] + d₁
  let b₁ := rotate (s[b] ^^^ c₁) 12
  let a₂ := a₁ + b₁ + y
  let d₂ := rotate (d₁ ^^^ a₂) 8
  let c₂ := c₁ + d₂
  let b₂ := rotate (b₁ ^^^ c₂) 7
  (((s.set a a₂).set b b₂).set c c₂).set d d₂

/-- One round: the columns, then the diagonals. -/
def round (s m : Block) : Block :=
  let s := mix s 0 4 8 12 m[0] m[1]
  let s := mix s 1 5 9 13 m[2] m[3]
  let s := mix s 2 6 10 14 m[4] m[5]
  let s := mix s 3 7 11 15 m[6] m[7]
  let s := mix s 0 5 10 15 m[8] m[9]
  let s := mix s 1 6 11 12 m[10] m[11]
  let s := mix s 2 7 8 13 m[12] m[13]
  mix s 3 4 9 14 m[14] m[15]

/-- The order of the message words in the next round. -/
def permute (m : Block) : Block :=
  #v[m[2], m[6], m[3], m[10], m[7], m[0], m[4], m[13],
    m[1], m[11], m[12], m[5], m[9], m[14], m[15], m[8]]

/-- `count` rounds, each with the message permuted once more. -/
def rounds : Nat → Block → Block → Block
  | 0, s, _ => s
  | count + 1, s, m => rounds count (round s m) (permute m)

/-- The compression function, of which only the chaining value is kept. -/
def compress (cv : ChainingValue) (m : Block) (counter : UInt64) (length flags : UInt32) :
    ChainingValue :=
  let s : Block :=
    #v[cv[0], cv[1], cv[2], cv[3], cv[4], cv[5], cv[6], cv[7], iv[0], iv[1], iv[2], iv[3],
      counter.toUInt32, (counter >>> 32).toUInt32, length, flags]
  let s := rounds 7 s m
  Vector.ofFn fun i : Fin 8 => s[i.val] ^^^ s[i.val + 8]

/-- The first pieces of `size` bytes, `count` of them. -/
def firstPieces (size : Nat) : Nat → List UInt8 → List (List UInt8)
  | 0, _ => []
  | count + 1, bytes => bytes.take size :: firstPieces size count (bytes.drop size)

/-- The bytes of a list in pieces of `size`; one empty piece for no bytes. -/
def pieces (size : Nat) (bytes : List UInt8) : List (List UInt8) :=
  firstPieces size (max 1 ((bytes.length + size - 1) / size)) bytes

/-- The word at a place of a block, least byte first; missing bytes are zero. -/
def wordAt (bytes : List UInt8) (i : Nat) : UInt32 :=
  let byte (j : Nat) : UInt32 := (bytes.getD (4 * i + j) 0).toUInt32
  byte 0 ||| (byte 1 <<< 8) ||| (byte 2 <<< 16) ||| (byte 3 <<< 24)

/-- The words of a block of at most 64 bytes. -/
def blockOfBytes (bytes : List UInt8) : Block :=
  Vector.ofFn fun i : Fin 16 => wordAt bytes i.val

/-- The words of two children. -/
def blockOfChildren (left right : ChainingValue) : Block :=
  left ++ right

/-- Compresses the blocks of a chunk in a chain. `flags` go with the block at hand, `last` only
with the last one. -/
def chain (counter : UInt64) (last : UInt32) :
    ChainingValue → UInt32 → List (List UInt8) → ChainingValue
  | cv, _, [] => cv
  | cv, flags, [block] =>
    compress cv (blockOfBytes block) counter block.length.toUInt32 (flags ||| chunkEnd ||| last)
  | cv, flags, block :: rest =>
    chain counter last
      (compress cv (blockOfBytes block) counter block.length.toUInt32 flags) 0 rest

/-- The chaining value of a chunk; `last` is `root` for a message of one chunk. -/
def chunk (counter : Nat) (last : UInt32) (bytes : List UInt8) : ChainingValue :=
  chain counter.toUInt64 last iv chunkStart (pieces 64 bytes)

/-- The chaining value of an inner node. -/
def join (last : UInt32) (left right : ChainingValue) : ChainingValue :=
  compress iv (blockOfChildren left right) 0 64 (parent ||| last)

/-- One level of the tree: neighbours are joined, an odd node at the end stays. -/
def joinNeighbours : List ChainingValue → List ChainingValue
  | left :: right :: rest => join 0 left right :: joinNeighbours rest
  | rest => rest

/-- The root of the tree over some chunks; as many levels as there are chunks are more than
enough. -/
def treeRoot : Nat → List ChainingValue → ChainingValue
  | _, [] => iv
  | _, [node] => node
  | _, [left, right] => join root left right
  | 0, node :: _ => node
  | levels + 1, nodes => treeRoot levels (joinNeighbours nodes)

/-- The first eight words of the hash. -/
def hash (bytes : List UInt8) : ChainingValue :=
  match pieces 1024 bytes with
  | [only] => chunk 0 root only
  | chunks =>
    treeRoot chunks.length (chunks.zipIdx.map fun (bytes, i) => chunk i 0 bytes)

end Wardrobe.Blake3
