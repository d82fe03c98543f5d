import ScriptSplit.Hash.Word

/-!
# BLAKE3

The hash of 256 bits. The text is cut into chunks of 1024 bytes, which are the leaves of a binary
tree; the left part of each tree holds the greatest power of two of chunks that leaves one over.

* `Blake3.digest`: the 32 bytes of the hash.
* `Blake3.hex`: the hash as hexadecimal digits.
-/

namespace ScriptSplit.Hash.Blake3

/-- The initial chaining value. -/
def start : Array UInt32 :=
  #[0x6a09e667, 0xbb67ae85, 0x3c6ef372, 0xa54ff53a, 0x510e527f, 0x9b05688c, 0x1f83d9ab, 0x5be0cd19]

/-- The order in which a round takes the words of the one before. -/
def permutation : Array Nat := #[2, 6, 3, 10, 7, 0, 4, 13, 1, 11, 12, 5, 9, 14, 15, 8]

def chunkStart : UInt32 := 1
def chunkEnd : UInt32 := 2
def parentFlag : UInt32 := 4
def rootFlag : UInt32 := 8

/-- Rotation to the right. -/
def rotate (w : UInt32) (n : UInt32) : UInt32 := (w >>> n) ||| (w <<< (32 - n))

/-- Mixes two message words into four words of the state. -/
def mix (s : Array UInt32) (a b c d : Nat) (x y : UInt32) : Array UInt32 :=
  let va := s.getD a 0 + s.getD b 0 + x
  let vd := rotate (s.getD d 0 ^^^ va) 16
  let vc := s.getD c 0 + vd
  let vb := rotate (s.getD b 0 ^^^ vc) 12
  let va := va + vb + y
  let vd := rotate (vd ^^^ va) 8
  let vc := vc + vd
  let vb := rotate (vb ^^^ vc) 7
  (((s.setIfInBounds a va).setIfInBounds b vb).setIfInBounds c vc).setIfInBounds d vd

/-- One round over columns and diagonals. -/
def round (s m : Array UInt32) : Array UInt32 :=
  let w := fun i => m.getD i 0
  let s := mix s 0 4 8 12 (w 0) (w 1)
  let s := mix s 1 5 9 13 (w 2) (w 3)
  let s := mix s 2 6 10 14 (w 4) (w 5)
  let s := mix s 3 7 11 15 (w 6) (w 7)
  let s := mix s 0 5 10 15 (w 8) (w 9)
  let s := mix s 1 6 11 12 (w 10) (w 11)
  let s := mix s 2 7 8 13 (w 12) (w 13)
  mix s 3 4 9 14 (w 14) (w 15)

/-- Some rounds, with the message words permuted between them. -/
def rounds : Nat → Array UInt32 → Array UInt32 → Array UInt32
  | 0, s, _ => s
  | n + 1, s, m => rounds n (round s m) (permutation.map fun i => m.getD i 0)

/-- What the compression function takes. -/
structure Node where
  chaining : Array UInt32
  block : Array UInt32
  counter : Nat
  length : Nat
  flags : UInt32

/-- The eight words that compression gives. -/
def Node.compress (n : Node) (flags : UInt32) : Array UInt32 :=
  let state := n.chaining ++ #[0x6a09e667, 0xbb67ae85, 0x3c6ef372, 0xa54ff53a, UInt32.ofNat n.counter,
    UInt32.ofNat (n.counter / 4294967296), UInt32.ofNat n.length, n.flags ||| flags]
  let s := rounds 7 state n.block
  (Array.range 8).map fun i => s.getD i 0 ^^^ s.getD (i + 8) 0

/-- The sixteen words of a block, filled up with zeros. -/
def blockWords (bytes : Bytes) : Array UInt32 :=
  let words := (pieces 4 bytes).map fun p => UInt32.ofNat (littleEndian p)
  (words ++ List.replicate (16 - words.length) 0).toArray

/-- Chains the blocks of a chunk; the last one is left for the tree. -/
def chunkNode (counter : Nat) : (flags : UInt32) → (chaining : Array UInt32) → List Bytes → Node
  | flags, chaining, [] => ⟨chaining, blockWords [], counter, 0, flags ||| chunkEnd⟩
  | flags, chaining, [b] => ⟨chaining, blockWords b, counter, b.length, flags ||| chunkEnd⟩
  | flags, chaining, b :: rest =>
    let node : Node := ⟨chaining, blockWords b, counter, b.length, flags⟩
    chunkNode counter 0 (node.compress 0) rest

/-- The parent of two nodes. -/
def parent (l r : Node) : Node :=
  ⟨start, l.compress 0 ++ r.compress 0, 0, 64, parentFlag⟩

/-- The tree over a list of nodes. -/
def tree : (fuel : Nat) → Node → List Node → Node
  | 0, first, _ => first
  | _, first, [] => first
  | fuel + 1, first, rest =>
    let k := Nat.pow 2 (Nat.log2 rest.length)
    match rest.drop (k - 1) with
    | [] => first
    | n :: more => parent (tree fuel first (rest.take (k - 1))) (tree fuel n more)

/-- The leaves of a text. An empty text has one. -/
def leaves (t : Bytes) : List Node :=
  (pieces 1024 t).zipIdx.map fun (chunk, i) => chunkNode i chunkStart start (pieces 64 chunk)

/-- The 32 bytes of the hash. -/
def digest (t : Bytes) : Bytes :=
  let root := match leaves t with
    | [] => chunkNode 0 chunkStart start []
    | n :: rest => tree (rest.length + 1) n rest
  (root.compress rootFlag).toList.flatMap fun w => toLittleEndian 4 w.toNat

/-- The hash as hexadecimal digits. -/
def hex (t : Bytes) : String := hexOfBytes (digest t)

end ScriptSplit.Hash.Blake3
