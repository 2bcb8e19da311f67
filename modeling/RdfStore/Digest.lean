/-!
# Content digests

The 256-bit BLAKE3 digest of a text. The text's UTF-8 bytes are cut into chunks of 1024 bytes and
each chunk into blocks of 64. A block is mixed into an eight-word chaining value by the
compression function, the chunks' results are joined pairwise level by level, and the last join
(or the only chunk) is compressed with the root flag.

The sixteen words of the compression state are kept as four rows, so that one step mixes its four
columns at once; the diagonal half of a round is the same step on rotated rows.
-/

namespace RdfStore

namespace Digest

/-- Four words of the compression state. -/
structure Row where
  w0 : UInt32
  w1 : UInt32
  w2 : UInt32
  w3 : UInt32
  deriving DecidableEq, Inhabited

namespace Row

/-- One operation on each word. -/
def map (f : UInt32 → UInt32) (r : Row) : Row := ⟨f r.w0, f r.w1, f r.w2, f r.w3⟩

/-- One operation on each pair of words. -/
def zip (f : UInt32 → UInt32 → UInt32) (r s : Row) : Row :=
  ⟨f r.w0 s.w0, f r.w1 s.w1, f r.w2 s.w2, f r.w3 s.w3⟩

instance : Add Row := ⟨zip (· + ·)⟩

instance : XorOp Row := ⟨zip (· ^^^ ·)⟩

/-- The row turned by one word to the left. -/
def turn (r : Row) : Row := ⟨r.w1, r.w2, r.w3, r.w0⟩

/-- Every word rotated right by a number of bits. -/
def rotateRight (n : UInt32) : Row → Row := map fun w => (w >>> n) ||| (w <<< (32 - n))

/-- The words in order. -/
def toList (r : Row) : List UInt32 := [r.w0, r.w1, r.w2, r.w3]

end Row

/-! ## Compression -/

/-- The sixteen words that one compression works on. -/
structure State where
  a : Row
  b : Row
  c : Row
  d : Row

/-- One mixing step on all four columns, with two message words for each column. -/
def State.mix (s : State) (x y : Row) : State :=
  let a := s.a + s.b + x
  let d := (s.d ^^^ a).rotateRight 16
  let c := s.c + d
  let b := (s.b ^^^ c).rotateRight 12
  let a := a + b + y
  let d := (d ^^^ a).rotateRight 8
  let c := c + d
  let b := (b ^^^ c).rotateRight 7
  ⟨a, b, c, d⟩

/-- The rows turned so that the diagonals become columns. -/
def State.toDiagonal (s : State) : State := ⟨s.a, s.b.turn, s.c.turn.turn, s.d.turn.turn.turn⟩

/-- The rows turned back. -/
def State.ofDiagonal (s : State) : State := ⟨s.a, s.b.turn.turn.turn, s.c.turn.turn, s.d.turn⟩

/-- The sixteen message words of a block. -/
abbrev Block := Vector UInt32 16

/-- The order in which the next round takes the message words. -/
def permute (m : Block) : Block :=
  #v[m[2], m[6], m[3], m[10], m[7], m[0], m[4], m[13],
    m[1], m[11], m[12], m[5], m[9], m[14], m[15], m[8]]

/-- One round: the columns, then the diagonals. -/
def State.round (s : State) (m : Block) : State :=
  let columns := s.mix ⟨m[0], m[2], m[4], m[6]⟩ ⟨m[1], m[3], m[5], m[7]⟩
  let diagonals := columns.toDiagonal.mix ⟨m[8], m[10], m[12], m[14]⟩ ⟨m[9], m[11], m[13], m[15]⟩
  diagonals.ofDiagonal

/-- A number of rounds, the message permuted after each. -/
def State.rounds : Nat → State → Block → State
  | 0, s, _ => s
  | n + 1, s, m => State.rounds n (s.round m) (permute m)

end Digest

open Digest in
/-- A digest, and also the chaining value between two compressions: eight words. -/
structure Digest where
  front : Row
  back : Row
  deriving DecidableEq, Inhabited

namespace Digest

/-- The chaining value that every chunk starts from. -/
def initial : Digest :=
  ⟨⟨0x6A09E667, 0xBB67AE85, 0x3C6EF372, 0xA54FF53A⟩, ⟨0x510E527F, 0x9B05688C, 0x1F83D9AB, 0x5BE0CD19⟩⟩

/-- The flag of the first block of a chunk. -/
def chunkStart : UInt32 := 1

/-- The flag of the last block of a chunk. -/
def chunkEnd : UInt32 := 2

/-- The flag of a join of two subtrees. -/
def parent : UInt32 := 4

/-- The flag of the compression that gives the digest of the whole text. -/
def root : UInt32 := 8

/-- A compression that is ready to run: what goes in, short of the root flag. -/
structure Pending where
  chaining : Digest
  block : Block
  counter : UInt64
  length : UInt32
  flags : UInt32

/-- Run a compression with further flags. -/
def Pending.run (p : Pending) (extra : UInt32) : Digest :=
  let start : State :=
    ⟨p.chaining.front, p.chaining.back, initial.front,
      ⟨p.counter.toUInt32, (p.counter >>> 32).toUInt32, p.length, p.flags ||| extra⟩⟩
  let s := start.rounds 7 p.block
  ⟨s.a ^^^ s.c, s.b ^^^ s.d⟩

/-- The chaining value that a compression below the root hands on. -/
def Pending.chain (p : Pending) : Digest := p.run 0

/-- The digest that a compression at the root yields. -/
def Pending.digest (p : Pending) : Digest := p.run root

/-! ## Chunks and their tree -/

/-- A list cut into pieces of `size + 1`, the last one possibly shorter. The second argument
bounds the number of pieces. -/
def pieces {α : Type} (size : Nat) : Nat → List α → List (List α)
  | 0, _ => []
  | _ + 1, [] => []
  | n + 1, x :: xs => (x :: xs.take size) :: pieces size n (xs.drop size)

/-- The word with the given bytes, lowest first. -/
def word (b0 b1 b2 b3 : UInt8) : UInt32 :=
  b0.toUInt32 ||| (b1.toUInt32 <<< 8) ||| (b2.toUInt32 <<< 16) ||| (b3.toUInt32 <<< 24)

/-- The words of a list of bytes; missing bytes of the last word are zero. -/
def words : List UInt8 → List UInt32
  | [] => []
  | [b0] => [word b0 0 0 0]
  | [b0, b1] => [word b0 b1 0 0]
  | [b0, b1, b2] => [word b0 b1 b2 0]
  | b0 :: b1 :: b2 :: b3 :: rest => word b0 b1 b2 b3 :: words rest

/-- The message words of at most sixty-four bytes, filled up with zeros. -/
def blockOf (bytes : List UInt8) : Block :=
  let ws := (words bytes).toArray
  Vector.ofFn fun i => ws[i.val]?.getD 0

/-- The last compression of a chunk whose remaining blocks are given. -/
def chunkFrom (counter : UInt64) : UInt32 → Digest → List UInt8 → List (List UInt8) → Pending
  | flags, chaining, block, [] =>
    ⟨chaining, blockOf block, counter, block.length.toUInt32, flags ||| chunkEnd⟩
  | flags, chaining, block, next :: rest =>
    chunkFrom counter 0 (Pending.mk chaining (blockOf block) counter 64 flags).chain next rest

/-- The last compression of a chunk. -/
def chunk (counter : UInt64) (bytes : List UInt8) : Pending :=
  match pieces 63 16 bytes with
  | [] => chunkFrom counter chunkStart initial [] []
  | block :: rest => chunkFrom counter chunkStart initial block rest

/-- The chunks of a list of bytes; no bytes at all are one empty chunk. -/
def chunksFrom (counter : UInt64) : List (List UInt8) → List Pending
  | [] => []
  | bytes :: rest => chunk counter bytes :: chunksFrom (counter + 1) rest

/-- The join of two subtrees. -/
def join (left right : Pending) : Pending :=
  let l := left.chain
  let r := right.chain
  let block : Block :=
    #v[l.front.w0, l.front.w1, l.front.w2, l.front.w3, l.back.w0, l.back.w1, l.back.w2, l.back.w3,
      r.front.w0, r.front.w1, r.front.w2, r.front.w3, r.back.w0, r.back.w1, r.back.w2, r.back.w3]
  ⟨initial, block, 0, 64, parent⟩

/-- One level of joins; a subtree without a partner moves up as it is. -/
def level : List Pending → List Pending
  | left :: right :: rest => join left right :: level rest
  | rest => rest

/-- The top of the tree over a row of subtrees. The first argument bounds the number of levels. -/
def top : Nat → Pending → List Pending → Pending
  | 0, first, _ => first
  | _ + 1, first, [] => first
  | n + 1, first, second :: rest => top n (join first second) (level rest)

/-- The digest of a list of bytes. -/
def ofBytes (bytes : List UInt8) : Digest :=
  let chunks := chunksFrom 0 (pieces 1023 (bytes.length / 1024 + 1) bytes)
  match chunks with
  | [] => (chunk 0 []).digest
  | first :: rest => (top rest.length first rest).digest

/-- The digest of a text. -/
def ofText (text : String) : Digest := ofBytes (text.toList.flatMap String.utf8EncodeChar)

/-! ## Written form -/

/-- The words in order. -/
def toWords (d : Digest) : List UInt32 := d.front.toList ++ d.back.toList

/-- The thirty-two bytes, lowest byte of each word first. -/
def bytes (d : Digest) : List UInt8 :=
  d.toWords.flatMap fun (w : UInt32) => [w.toUInt8, (w >>> 8).toUInt8, (w >>> 16).toUInt8, (w >>> 24).toUInt8]

/-- The lower-case hexadecimal digit of a number below sixteen. -/
def hexDigit (n : Nat) : Char := "0123456789abcdef".toList.getD n '0'

/-- Sixty-four lower-case hexadecimal digits. -/
def hex (d : Digest) : String :=
  String.ofList (d.bytes.flatMap fun b => [hexDigit (b.toNat / 16), hexDigit (b.toNat % 16)])

end Digest

end RdfStore
