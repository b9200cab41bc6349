/-!
# The BLAKE3 hash

The hash of a byte string by the tree of its chunks: 1024 bytes make a chunk, the blocks of a chunk are
compressed one into the next, and two subtrees are compressed into their parent. The left subtree is
the largest complete one that leaves something for the right.
-/

namespace CodeContext.Blake3

/-- The eight words of a chaining value. -/
abbrev Chain := Vector UInt32 8

/-- The sixteen words of a block or of the compression's state. -/
abbrev Block := Vector UInt32 16

def initial : Chain :=
  #v[0x6A09E667, 0xBB67AE85, 0x3C6EF372, 0xA54FF53A, 0x510E527F, 0x9B05688C, 0x1F83D9AB, 0x5BE0CD19]

def chunkStart : UInt32 := 1

def chunkEnd : UInt32 := 2

def parentNode : UInt32 := 4

def rootNode : UInt32 := 8

def rotateRight (x n : UInt32) : UInt32 :=
  (x >>> n) ||| (x <<< (32 - n))

/-- Mixes two message words into four words of the state. -/
def mix (v : Block) (a b c d : Fin 16) (x y : UInt32) : Block :=
  let v := v.set a (v[a] + v[b] + x)
  let v := v.set d (rotateRight (v[d] ^^^ v[a]) 16)
  let v := v.set c (v[c] + v[d])
  let v := v.set b (rotateRight (v[b] ^^^ v[c]) 12)
  let v := v.set a (v[a] + v[b] + y)
  let v := v.set d (rotateRight (v[d] ^^^ v[a]) 8)
  let v := v.set c (v[c] + v[d])
  v.set b (rotateRight (v[b] ^^^ v[c]) 7)

/-- Mixes a message into the columns of the state and then into its diagonals. -/
def round (v m : Block) : Block :=
  let v := mix v 0 4 8 12 m[0] m[1]
  let v := mix v 1 5 9 13 m[2] m[3]
  let v := mix v 2 6 10 14 m[4] m[5]
  let v := mix v 3 7 11 15 m[6] m[7]
  let v := mix v 0 5 10 15 m[8] m[9]
  let v := mix v 1 6 11 12 m[10] m[11]
  let v := mix v 2 7 8 13 m[12] m[13]
  mix v 3 4 9 14 m[14] m[15]

/-- The order of the message words in the next round. -/
def permute (m : Block) : Block :=
  #v[m[2], m[6], m[3], m[10], m[7], m[0], m[4], m[13], m[1], m[11], m[12], m[5], m[9], m[14], m[15], m[8]]

def rounds : Nat → Block → Block → Block
  | 0, v, _ => v
  | n + 1, v, m => rounds n (round v m) (permute m)

/-- Compresses a block into a chaining value. -/
def compress (chain : Chain) (block : Block) (counter length : Nat) (flags : UInt32) : Chain :=
  let h := initial
  let v : Block := #v[chain[0], chain[1], chain[2], chain[3], chain[4], chain[5], chain[6], chain[7],
    h[0], h[1], h[2], h[3], UInt32.ofNat counter, UInt32.ofNat (counter / Nat.pow 2 32), UInt32.ofNat length,
    flags]
  let v := rounds 7 v block
  #v[v[0] ^^^ v[8], v[1] ^^^ v[9], v[2] ^^^ v[10], v[3] ^^^ v[11], v[4] ^^^ v[12], v[5] ^^^ v[13],
    v[6] ^^^ v[14], v[7] ^^^ v[15]]

/-- The word at a place of a block, its first byte the lowest; bytes past the end are zero. -/
def wordAt (bytes : List UInt8) (i : Nat) : UInt32 :=
  let byte (j : Nat) : UInt32 := (bytes.getD (4 * i + j) 0).toUInt32
  byte 0 ||| (byte 1 <<< 8) ||| (byte 2 <<< 16) ||| (byte 3 <<< 24)

def blockOf (bytes : List UInt8) : Block :=
  Vector.ofFn fun i => wordAt bytes i

/-- Compresses the blocks of a chunk, the first of which is marked by `mark`, and the last by the end
of the chunk and `final`. -/
def chunkFrom (counter : Nat) (final mark : UInt32) (chain : Chain) (bytes : List UInt8) : Chain :=
  if bytes.length ≤ 64 then
    compress chain (blockOf bytes) counter bytes.length (mark ||| chunkEnd ||| final)
  else
    let next := compress chain (blockOf (bytes.take 64)) counter 64 mark
    chunkFrom counter final 0 next (bytes.drop 64)
termination_by bytes.length
decreasing_by simp; omega

/-- The chaining value of a parent. -/
def parent (final : UInt32) (left right : Chain) : Chain :=
  compress initial (left ++ right) 0 64 (parentNode ||| final)

/-- The bytes under the left subtree of a tree over more than one chunk. -/
def leftSize (size : Nat) : Nat :=
  1024 * Nat.pow 2 ((size - 1) / 1024).log2

theorem leftSize_pos (size : Nat) : 0 < leftSize size :=
  Nat.mul_pos (by decide) (Nat.two_pow_pos _)

theorem leftSize_lt {size : Nat} (h : 1024 < size) : leftSize size < size := by
  have hne : (size - 1) / 1024 ≠ 0 := by omega
  have : Nat.pow 2 ((size - 1) / 1024).log2 ≤ (size - 1) / 1024 := Nat.log2_self_le hne
  unfold leftSize
  omega

/-- The chaining value of the subtree over some bytes, the first of which are in the chunk with number
`counter`. -/
def subtree (final : UInt32) (counter : Nat) (bytes : List UInt8) : Chain :=
  if h : bytes.length ≤ 1024 then chunkFrom counter final chunkStart initial bytes
  else
    let size := leftSize bytes.length
    parent final (subtree 0 counter (bytes.take size))
      (subtree 0 (counter + size / 1024) (bytes.drop size))
termination_by bytes.length
decreasing_by
  · have := leftSize_lt (Nat.lt_of_not_le h)
    simp; omega
  · have := leftSize_pos bytes.length
    simp; omega

/-- The first eight words of the hash. -/
def hash (bytes : List UInt8) : Chain :=
  subtree rootNode 0 bytes

/-- The first eight bytes of the hash as a number, the first byte the lowest. -/
def leadingWord (bytes : List UInt8) : Nat :=
  let h := hash bytes
  h[0].toNat + h[1].toNat * Nat.pow 2 32

end CodeContext.Blake3
