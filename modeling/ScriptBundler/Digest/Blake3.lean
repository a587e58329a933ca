/-!
# BLAKE3 — a hash over a tree of chunks

The input is cut into chunks of 1024 bytes, and a chunk into blocks of 64. Each block is compressed
into the chaining value of the blocks before it in its chunk. The values of the chunks are then
joined in pairs, level by level, until one is left; the compression that gives this last one carries
a flag of its own, and its words are the hash.
-/

namespace ScriptBundler.Digest

/-- Words that are worked on together. -/
abbrev Words (count : Nat) := Vector UInt32 count

/-- The value that chaining starts with. -/
def initial : Words 8 :=
  #v[0x6A09E667, 0xBB67AE85, 0x3C6EF372, 0xA54FF53A, 0x510E527F, 0x9B05688C, 0x1F83D9AB, 0x5BE0CD19]

/-- Where each word of a block comes from in the next round. -/
def permutation : Vector (Fin 16) 16 :=
  #v[2, 6, 3, 10, 7, 0, 4, 13, 1, 11, 12, 5, 9, 14, 15, 8]

/-- Marks the first block of a chunk. -/
def chunkStart : UInt32 := 1

/-- Marks the last block of a chunk. -/
def chunkEnd : UInt32 := 2

/-- Marks the joining of two values. -/
def parent : UInt32 := 4

/-- Marks the last compression. -/
def root : UInt32 := 8

/-- A word turned to the right. -/
def rotate (word count : UInt32) : UInt32 :=
  word >>> count ||| word <<< (32 - count)

/-- Mixes two words of a block into four words of the state. -/
def mix (v : Words 16) (a b c d : Fin 16) (x y : UInt32) : Words 16 :=
  let va := v[a] + v[b] + x
  let vd := rotate (v[d] ^^^ va) 16
  let vc := v[c] + vd
  let vb := rotate (v[b] ^^^ vc) 12
  let va := va + vb + y
  let vd := rotate (vd ^^^ va) 8
  let vc := vc + vd
  let vb := rotate (vb ^^^ vc) 7
  (((v.set a va).set b vb).set c vc).set d vd

/-- One round: the columns of the state, then its diagonals. -/
def round (v m : Words 16) : Words 16 :=
  let v := mix v 0 4 8 12 m[0] m[1]
  let v := mix v 1 5 9 13 m[2] m[3]
  let v := mix v 2 6 10 14 m[4] m[5]
  let v := mix v 3 7 11 15 m[6] m[7]
  let v := mix v 0 5 10 15 m[8] m[9]
  let v := mix v 1 6 11 12 m[10] m[11]
  let v := mix v 2 7 8 13 m[12] m[13]
  mix v 3 4 9 14 m[14] m[15]

/-- The words of a block in the order of the next round. -/
def permute (m : Words 16) : Words 16 :=
  permutation.map fun i => m[i]

/-- Several rounds. -/
def rounds : Nat → Words 16 → Words 16 → Words 16
  | 0, v, _ => v
  | count + 1, v, m => rounds count (round v m) (permute m)

/-- A compression that has not been carried out yet. -/
structure Node where
  /-- The value of what comes before. -/
  chaining : Words 8
  /-- The block. -/
  block : Words 16
  /-- The number of the chunk. -/
  counter : Nat
  /-- How many bytes of the block count. -/
  length : Nat
  /-- The marks. -/
  flags : UInt32

/-- Carries a compression out, with further marks. -/
def Node.compress (node : Node) (flags : UInt32) : Words 8 :=
  let cv := node.chaining
  let v := rounds 7
    #v[cv[0], cv[1], cv[2], cv[3], cv[4], cv[5], cv[6], cv[7],
      initial[0], initial[1], initial[2], initial[3],
      node.counter.toUInt32, (node.counter / Nat.pow 2 32).toUInt32, node.length.toUInt32,
      node.flags ||| flags] node.block
  #v[v[0] ^^^ v[8], v[1] ^^^ v[9], v[2] ^^^ v[10], v[3] ^^^ v[11],
    v[4] ^^^ v[12], v[5] ^^^ v[13], v[6] ^^^ v[14], v[7] ^^^ v[15]]

/-- The value of a node within the tree. -/
def Node.value (node : Node) : Words 8 :=
  node.compress 0

/-- A byte of the input; beyond its end there are zeros. -/
def byteAt (input : ByteArray) (i : Nat) : UInt32 :=
  if h : i < input.size then input[i].toUInt32 else 0

/-- Four bytes as a word, the lowest first. -/
def wordAt (input : ByteArray) (i : Nat) : UInt32 :=
  byteAt input i ||| byteAt input (i + 1) <<< 8 ||| byteAt input (i + 2) <<< 16 |||
    byteAt input (i + 3) <<< 24

/-- The block that starts at an offset of a chunk. -/
def blockAt (chunk : ByteArray) (offset : Nat) : Words 16 :=
  Vector.ofFn fun i => wordAt chunk (offset + 4 * i)

/-- How many parts of a size it takes to hold something, at least one. -/
def partCount (size part : Nat) : Nat :=
  max 1 ((size + part - 1) / part)

/-- The last compression of a chunk, those before it carried out. -/
def chunkNode (counter : Nat) (chunk : ByteArray) : Node :=
  let count := partCount chunk.size 64
  let node (chaining : Words 8) (i : Nat) : Node :=
    { chaining
      block := blockAt chunk (64 * i)
      counter
      length := min 64 (chunk.size - 64 * i)
      flags := (if i = 0 then chunkStart else 0) ||| if i + 1 = count then chunkEnd else 0 }
  let chaining := (List.range (count - 1)).foldl (fun cv i => (node cv i).value) initial
  node chaining (count - 1)

/-- The node that joins two. -/
def join (left right : Node) : Node where
  chaining := initial
  block := (left.value ++ right.value).cast rfl
  counter := 0
  length := 64
  flags := parent

/-- Joins the nodes of one level in pairs; an odd one is carried on. -/
def level : List Node → List Node
  | left :: right :: nodes => join left right :: level nodes
  | nodes => nodes

theorem length_level_le (nodes : List Node) : (level nodes).length ≤ nodes.length := by
  fun_induction level nodes with
  | case1 left right nodes ih => simp only [List.length_cons]; omega
  | case2 => exact Nat.le_refl _

/-- The node above all others, if there are any. -/
def top? : List Node → Option Node
  | [] => none
  | [node] => some node
  | left :: right :: nodes => top? (join left right :: level nodes)
termination_by nodes => nodes.length
decreasing_by
  have := length_level_le nodes
  simp only [List.length_cons]
  omega

/-- The nodes of an input's chunks. -/
def chunkNodes (input : ByteArray) : List Node :=
  (List.range (partCount input.size 1024)).map fun i =>
    chunkNode i (input.extract (1024 * i) (1024 * (i + 1)))

/-- A byte as two hexadecimal digits. -/
def hexByte (byte : Nat) : List Char :=
  [Nat.digitChar (byte / 16 % 16), Nat.digitChar (byte % 16)]

/-- A word as hexadecimal digits, its lowest byte first. -/
def hexWord (word : UInt32) : List Char :=
  let n := word.toNat
  hexByte n ++ hexByte (n / Nat.pow 2 8) ++ hexByte (n / Nat.pow 2 16) ++
    hexByte (n / Nat.pow 2 24)

/-- The hash of bytes, in hexadecimal digits. -/
def blake3 (input : ByteArray) : String :=
  match top? (chunkNodes input) with
  | some node => String.ofList ((node.compress root).toList.flatMap hexWord)
  | none => ""

end ScriptBundler.Digest
