import WsmDriver.Format.Block
import WsmDriver.Format.Blocks

/-!
# MD5

`md5.c`, with which the PPPoE client answers a challenge: the context is fed pieces of a message,
and at the end the padding and the length.

However a message is cut into pieces, the digest is that of the whole of it. What carries this is an
invariant of the context against what it has been fed: `state` has taken in the whole blocks,
`buffer` starts with the rest, and the two words of `count` are the number of bits modulo 2⁶⁴. The
loop over the blocks adds 63 to its counter before it compares, so a piece must be no longer than
2³² − 64 bytes.

A read behind the end of a piece and a store behind the end of the buffer are `none`.
-/

namespace WsmDriver.Pppoe

open Format (Block readBytes)

/-! ## The context -/

/-- The words `A`, `B`, `C` and `D`. -/
structure Words where
  a : UInt32
  b : UInt32
  c : UInt32
  d : UInt32
  deriving DecidableEq

/-- `md5_ctx`. -/
structure Md5Ctx where
  state : Words
  count0 : UInt32
  count1 : UInt32
  buffer : Block 64
  deriving DecidableEq

def md5Init : Words := ⟨0x67452301, 0xefcdab89, 0x98badcfe, 0x10325476⟩

/-- `md5_init`. The buffer is whatever it was. -/
def md5Start (buffer : Block 64) : Md5Ctx := ⟨md5Init, 0, 0, buffer⟩

/-- `md5_encode`. -/
def md5Encode (words : List UInt32) : List UInt8 :=
  words.flatMap fun x : UInt32 ↦
    [x.toUInt8, (x >>> 8).toUInt8, (x >>> 16).toUInt8, (x >>> 24).toUInt8]

/-- `md5_decode`. -/
def md5Decode : List UInt8 → List UInt32
  | b₀ :: b₁ :: b₂ :: b₃ :: bytes =>
    (b₀.toUInt32 ||| b₁.toUInt32 <<< 8 ||| b₂.toUInt32 <<< 16 ||| b₃.toUInt32 <<< 24) ::
      md5Decode bytes
  | _ => []

/-! ## A block -/

/-- `ROTATE_LEFT`. -/
def rotateLeft (x n : UInt32) : UInt32 := (x <<< n) ||| (x >>> (32 - n))

/-- `FF`, `GG`, `HH` and `II`, with the macros they use. -/
def ff (a b c d x s ac : UInt32) : UInt32 :=
  rotateLeft (a + (((b &&& c) ||| (~~~b &&& d)) + x + ac)) s + b

def gg (a b c d x s ac : UInt32) : UInt32 :=
  rotateLeft (a + (((b &&& d) ||| (c &&& ~~~d)) + x + ac)) s + b

def hh (a b c d x s ac : UInt32) : UInt32 := rotateLeft (a + ((b ^^^ c ^^^ d) + x + ac)) s + b

def ii (a b c d x s ac : UInt32) : UInt32 := rotateLeft (a + ((c ^^^ (b ||| ~~~d)) + x + ac)) s + b

/-- Of each of the calls of a round: which word of the block, how far it is rotated, and the
constant. -/
def round1 : List (ℕ × UInt32 × UInt32) :=
  [(0, 7, 0xd76aa478), (1, 12, 0xe8c7b756), (2, 17, 0x242070db), (3, 22, 0xc1bdceee),
   (4, 7, 0xf57c0faf), (5, 12, 0x4787c62a), (6, 17, 0xa8304613), (7, 22, 0xfd469501),
   (8, 7, 0x698098d8), (9, 12, 0x8b44f7af), (10, 17, 0xffff5bb1), (11, 22, 0x895cd7be),
   (12, 7, 0x6b901122), (13, 12, 0xfd987193), (14, 17, 0xa679438e), (15, 22, 0x49b40821)]

def round2 : List (ℕ × UInt32 × UInt32) :=
  [(1, 5, 0xf61e2562), (6, 9, 0xc040b340), (11, 14, 0x265e5a51), (0, 20, 0xe9b6c7aa),
   (5, 5, 0xd62f105d), (10, 9, 0x2441453), (15, 14, 0xd8a1e681), (4, 20, 0xe7d3fbc8),
   (9, 5, 0x21e1cde6), (14, 9, 0xc33707d6), (3, 14, 0xf4d50d87), (8, 20, 0x455a14ed),
   (13, 5, 0xa9e3e905), (2, 9, 0xfcefa3f8), (7, 14, 0x676f02d9), (12, 20, 0x8d2a4c8a)]

def round3 : List (ℕ × UInt32 × UInt32) :=
  [(5, 4, 0xfffa3942), (8, 11, 0x8771f681), (11, 16, 0x6d9d6122), (14, 23, 0xfde5380c),
   (1, 4, 0xa4beea44), (4, 11, 0x4bdecfa9), (7, 16, 0xf6bb4b60), (10, 23, 0xbebfbc70),
   (13, 4, 0x289b7ec6), (0, 11, 0xeaa127fa), (3, 16, 0xd4ef3085), (6, 23, 0x4881d05),
   (9, 4, 0xd9d4d039), (12, 11, 0xe6db99e5), (15, 16, 0x1fa27cf8), (2, 23, 0xc4ac5665)]

def round4 : List (ℕ × UInt32 × UInt32) :=
  [(0, 6, 0xf4292244), (7, 10, 0x432aff97), (14, 15, 0xab9423a7), (5, 21, 0xfc93a039),
   (12, 6, 0x655b59c3), (3, 10, 0x8f0ccc92), (10, 15, 0xffeff47d), (1, 21, 0x85845dd1),
   (8, 6, 0x6fa87e4f), (15, 10, 0xfe2ce6e0), (6, 15, 0xa3014314), (13, 21, 0x4e0811a1),
   (4, 6, 0xf7537e82), (11, 10, 0xbd3af235), (2, 15, 0x2ad7d2bb), (9, 21, 0xeb86d391)]

/-- The calls of a round. The words change places where the source changes the arguments. -/
def runRound (f : UInt32 → UInt32 → UInt32 → UInt32 → UInt32 → UInt32 → UInt32 → UInt32)
    (calls : List (ℕ × UInt32 × UInt32)) (x : List UInt32) (w : Words) : Words :=
  calls.foldl (fun w (k, s, ac) ↦ ⟨w.d, f w.a w.b w.c w.d (x.getD k 0) s ac, w.b, w.c⟩) w

/-- `md5_transform`. -/
def md5Transform (state : Words) (block : List UInt8) : Words :=
  let x := md5Decode block
  let w :=
    runRound ii round4 x (runRound hh round3 x (runRound gg round2 x (runRound ff round1 x state)))
  ⟨state.a + w.a, state.b + w.b, state.c + w.c, state.d + w.d⟩

/-! ## Pieces of a message -/

/-- The `for` loop of `md5_update`: the state, and the counter in the end. Nothing, should it go on
for longer than there are blocks. -/
def transformLoop : ℕ → Words → List UInt8 → UInt32 → UInt32 → Option (Words × UInt32)
  | 0, _, _, _, _ => none
  | fuel + 1, state, input, inputLen, i =>
    if i + 63 < inputLen then do
      let block ← readBytes 64 input i.toNat
      transformLoop fuel (md5Transform state block) input inputLen (i + 64)
    else some (state, i)

/-- `md5_update`. -/
def md5Update (context : Md5Ctx) (input : List UInt8) : Option Md5Ctx := do
  let inputLen := UInt32.ofNat input.length
  let index := (context.count0 >>> 3) &&& 0x3F
  let count0 := context.count0 + inputLen <<< 3
  let count1 := (if count0 < inputLen <<< 3 then context.count1 + 1 else context.count1) +
    inputLen >>> 29
  let partLen := 64 - index
  if partLen ≤ inputLen then
    let part ← readBytes partLen.toNat input 0
    let buffer ← context.buffer.write index.toNat part
    let (state, i) ← transformLoop (input.length / 64 + 1) (md5Transform context.state buffer.1)
      input inputLen partLen
    let rest ← readBytes (inputLen - i).toNat input i.toNat
    let buffer ← buffer.write 0 rest
    return ⟨state, count0, count1, buffer⟩
  else
    let rest ← readBytes inputLen.toNat input 0
    let buffer ← context.buffer.write index.toNat rest
    return ⟨context.state, count0, count1, buffer⟩

/-- `padding`. -/
def padding : List UInt8 := 0x80 :: List.replicate 63 0

/-- `md5_final`: the digest, and the context wiped. -/
def md5Final (context : Md5Ctx) : Option (List UInt8 × Md5Ctx) := do
  let bits := md5Encode [context.count0, context.count1]
  let index := (context.count0 >>> 3) &&& 0x3F
  let padLen := if index < 56 then 56 - index else 120 - index
  let padded ← readBytes padLen.toNat padding 0
  let context ← md5Update context padded
  let context ← md5Update context bits
  return (md5Encode [context.state.a, context.state.b, context.state.c, context.state.d],
    ⟨⟨0, 0, 0, 0⟩, 0, 0, .zeros 64⟩)

/-- The digest of a message that comes in these pieces. -/
def digest (buffer : Block 64) (pieces : List (List UInt8)) : Option (List UInt8) := do
  let context ← pieces.foldlM md5Update (md5Start buffer)
  let (digest, _) ← md5Final context
  return digest

end WsmDriver.Pppoe
