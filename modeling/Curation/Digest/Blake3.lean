/-
**The BLAKE3 digest.** A text is cut into chunks of 1024 bytes and each chunk into blocks of 64. The
blocks of a chunk are compressed one after the other; the chunks are the leaves of a tree whose left
half is always the largest full one.
-/

import Curation.Audit
import Curation.Bytes.LittleEndian
import Curation.Bytes.Utf8

namespace Curation.Blake3

open Curation.Bytes

/-- The eight words with which the first block of a chunk is compressed. -/
def initial : Vector UInt32 8 :=
  #v[0x6A09E667, 0xBB67AE85, 0x3C6EF372, 0xA54FF53A, 0x510E527F, 0x9B05688C, 0x1F83D9AB, 0x5BE0CD19]

/-- Marks the first block of a chunk. -/
def chunkStart : UInt32 := 1

/-- Marks the last block of a chunk. -/
def chunkEnd : UInt32 := 2

/-- Marks a block made of two digests. -/
def parent : UInt32 := 4

/-- Marks the last block of all. -/
def root : UInt32 := 8

/-- A word turned to the right by a number of bits below 32. -/
def rotate (word amount : UInt32) : UInt32 := word >>> amount ||| word <<< (32 - amount)

/-- Mixes two words of the block into four words of the state. -/
def mix (state : Vector UInt32 16) (a b c d : Fin 16) (first second : UInt32) :
    Vector UInt32 16 :=
  let wordA := state[a] + state[b] + first
  let wordD := rotate (state[d] ^^^ wordA) 16
  let wordC := state[c] + wordD
  let wordB := rotate (state[b] ^^^ wordC) 12
  let wordA := wordA + wordB + second
  let wordD := rotate (wordD ^^^ wordA) 8
  let wordC := wordC + wordD
  let wordB := rotate (wordB ^^^ wordC) 7
  (((state.set a wordA).set b wordB).set c wordC).set d wordD

/-- Mixes a whole block into the state, first by columns and then by diagonals. -/
def round (state block : Vector UInt32 16) : Vector UInt32 16 :=
  let state := mix state 0 4 8 12 block[0] block[1]
  let state := mix state 1 5 9 13 block[2] block[3]
  let state := mix state 2 6 10 14 block[4] block[5]
  let state := mix state 3 7 11 15 block[6] block[7]
  let state := mix state 0 5 10 15 block[8] block[9]
  let state := mix state 1 6 11 12 block[10] block[11]
  let state := mix state 2 7 8 13 block[12] block[13]
  mix state 3 4 9 14 block[14] block[15]

/-- The words of a block in the order of the next round. -/
def permute (block : Vector UInt32 16) : Vector UInt32 16 :=
  #v[block[2], block[6], block[3], block[10], block[7], block[0], block[4], block[13], block[1],
    block[11], block[12], block[5], block[9], block[14], block[15], block[8]]

/-- A number of rounds, each with the words of the block in another order. -/
def rounds : Nat → Vector UInt32 16 → Vector UInt32 16 → Vector UInt32 16
  | 0, state, _ => state
  | count + 1, state, block => rounds count (round state block) (permute block)

/-- A block that is ready to be compressed. -/
structure Node where
  chaining : Vector UInt32 8
  block : Vector UInt32 16
  counter : UInt64
  length : UInt32
  flags : UInt32

/-- Compresses a block to eight words. -/
def Node.compress (node : Node) : Vector UInt32 8 :=
  let chaining := node.chaining
  let state := rounds 7
    #v[chaining[0], chaining[1], chaining[2], chaining[3], chaining[4], chaining[5], chaining[6],
      chaining[7], initial[0], initial[1], initial[2], initial[3], node.counter.toUInt32,
      (node.counter >>> 32).toUInt32, node.length, node.flags]
    node.block
  #v[state[0] ^^^ state[8], state[1] ^^^ state[9], state[2] ^^^ state[10], state[3] ^^^ state[11],
    state[4] ^^^ state[12], state[5] ^^^ state[13], state[6] ^^^ state[14], state[7] ^^^ state[15]]

/-- The words of at most 64 bytes, filled up with zeros. -/
def blockOf (bytes : List UInt8) : Vector UInt32 16 :=
  let words := LittleEndian.decode (bytes ++ List.replicate (64 - bytes.length) 0)
  Vector.ofFn fun index => words.getD index.val 0

/-- The last block of a chunk, after the blocks before it have been compressed. -/
def chunkNode (counter : UInt64) : Nat → Vector UInt32 8 → UInt32 → List UInt8 → Node
  | 0, chaining, flags, bytes =>
    ⟨chaining, blockOf bytes, counter, UInt32.ofNat bytes.length, flags ||| chunkEnd⟩
  | more + 1, chaining, flags, bytes =>
    if bytes.length ≤ 64 then chunkNode counter 0 chaining flags bytes
    else
      let first : Node := ⟨chaining, blockOf (bytes.take 64), counter, 64, flags⟩
      chunkNode counter more first.compress 0 (bytes.drop 64)

/-- The block made of two digests. -/
def parentNode (left right : Vector UInt32 8) : Node :=
  ⟨initial, left ++ right, 0, 64, parent⟩

/-- The number of bytes in the largest full left half of a longer text. -/
def leftLength (length : Nat) : Nat := 1024 <<< Nat.log2 ((length - 1) / 1024)

/-- The last block of a tree whose first chunk has a given number. -/
def treeNode : Nat → UInt64 → List UInt8 → Node
  | 0, counter, bytes => chunkNode counter 15 initial chunkStart bytes
  | depth + 1, counter, bytes =>
    if bytes.length ≤ 1024 then chunkNode counter 15 initial chunkStart bytes
    else
      let split := leftLength bytes.length
      let left := treeNode depth counter (bytes.take split)
      let right := treeNode depth (counter + UInt64.ofNat (split / 1024)) (bytes.drop split)
      parentNode left.compress right.compress

/-- The digest of some bytes. -/
def hash (bytes : List UInt8) : Digest :=
  let last := treeNode bytes.length 0 bytes
  let words := ({ last with flags := last.flags ||| root }).compress
  ⟨words.toList.flatMap LittleEndian.encode⟩

end Curation.Blake3
