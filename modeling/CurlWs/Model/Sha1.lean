import CurlWs.Library.Sha1
import CurlWs.Model.Ws

/-!
# The hash of the key

`sha1/sha1.c`, and `cws_sha1` of `sha1_internal.c`.  The library computes the answer it expects from
a server with an implementation of its own, which takes a message in pieces and keeps what does not
fill a block.

**A context** has the five words of the hash, the length in two words of 32 bits, the octets of the
block that have been filled, and two flags: `Computed`, once the digest has been asked for, and
`Corrupted`, the code of the first failure.  The octets of `Message_Block` are kept up to
`Message_Block_Index`: what lies behind is written before it is read.  A context is never NULL.

**Order.**  The functions are those of the source with their checks in its order.  The four loops of
a block have one body with the function and the constant as parameters, and the lengths are added
octet by octet, so that a message that becomes too long is noticed in the middle of a call.
-/

namespace CurlWs

/-! ## The error codes -/

/-- `shaSuccess`. -/
def shaSuccess : ℕ := 0

/-- `shaNull`: a NULL parameter.  A length that overflows leaves the same number in `Corrupted`. -/
def shaNull : ℕ := 1

/-- `shaStateError`: a call after the digest, or too many bits at the end. -/
def shaStateError : ℕ := 3

/-- `SHA1_Message_Block_Size`. -/
def sha1MessageBlockSize : ℕ := 64

/-- `SHA1HashSize`. -/
def sha1HashSize : ℕ := 20

/-- `SHA1Context`, with the five words of `Intermediate_Hash` as a record. -/
structure SHA1Context where
  intermediateHash : Sha1.State
  lengthLow : UInt32 := 0
  lengthHigh : UInt32 := 0
  messageBlock : List Byte := []
  computed : Bool := false
  corrupted : ℕ := 0
  deriving DecidableEq, Repr

/-! ## A block

`SHA1ProcessMessageBlock`: the schedule of 80 words, the four loops of 20 rounds, and the sum with
the words of the hash. -/

/-- `SHA1_ROTL`. -/
def sha1Rotl (bits word : UInt32) : UInt32 := word <<< bits ||| word >>> (32 - bits)

/-- `SHA_Ch`. -/
def shaCh (x y z : UInt32) : UInt32 := (x &&& y) ^^^ (~~~x &&& z)

/-- `SHA_Maj`. -/
def shaMaj (x y z : UInt32) : UInt32 := (x &&& y) ^^^ (x &&& z) ^^^ (y &&& z)

/-- `SHA_Parity`. -/
def shaParity (x y z : UInt32) : UInt32 := x ^^^ y ^^^ z

/-- One of the first 16 words of the array `W`. -/
def firstWord (block : List Byte) (t : ℕ) : UInt32 :=
  let octet (i : ℕ) : UInt32 := (block.getD (t * 4 + i) 0).toUInt32
  octet 0 <<< 24 ||| octet 1 <<< 16 ||| octet 2 <<< 8 ||| octet 3

/-- The next word of the array `W`, of which there are `t`. -/
def nextWord (W : List UInt32) (t : ℕ) : UInt32 :=
  sha1Rotl 1 (W.getD (t - 3) 0 ^^^ W.getD (t - 8) 0 ^^^ W.getD (t - 14) 0 ^^^ W.getD (t - 16) 0)

/-- The array `W`. -/
def wordSequence (block : List Byte) : List UInt32 :=
  (List.range' 16 64).foldl (fun W t => W ++ [nextWord W t]) ((List.range 16).map (firstWord block))

/-- The body of the four loops, with `A` to `E` in a record. -/
def sha1Round (F : UInt32 → UInt32 → UInt32 → UInt32) (K w : UInt32) (v : Sha1.State) :
    Sha1.State :=
  let temp := sha1Rotl 5 v.a + F v.b v.c v.d + v.e + w + K
  { a := temp, b := v.a, c := sha1Rotl 30 v.b, d := v.c, e := v.d }

/-- One of the four loops. -/
def sha1Loop (F : UInt32 → UInt32 → UInt32 → UInt32) (K : UInt32) (W : List UInt32) (start : ℕ)
    (v : Sha1.State) : Sha1.State :=
  (List.range' start 20).foldl (fun v t => sha1Round F K (W.getD t 0) v) v

/-- `SHA1ProcessMessageBlock`. -/
def sha1ProcessMessageBlock (c : SHA1Context) : SHA1Context :=
  let W := wordSequence c.messageBlock
  let h := c.intermediateHash
  let v := sha1Loop shaCh 0x5A827999 W 0 h
  let v := sha1Loop shaParity 0x6ED9EBA1 W 20 v
  let v := sha1Loop shaMaj 0x8F1BBCDC W 40 v
  let v := sha1Loop shaParity 0xCA62C1D6 W 60 v
  { c with
    intermediateHash :=
      { a := h.a + v.a, b := h.b + v.b, c := h.c + v.c, d := h.d + v.d, e := h.e + v.e }
    messageBlock := [] }

/-! ## The message

Input, padding and the digest. -/

/-- `SHA1Reset`. -/
def sha1Reset : SHA1Context :=
  { intermediateHash :=
      { a := 0x67452301, b := 0xEFCDAB89, c := 0x98BADCFE, d := 0x10325476, e := 0xC3D2E1F0 } }

/-- `SHA1AddLength`.  Its value is `Corrupted`. -/
def sha1AddLength (c : SHA1Context) (length : UInt32) : SHA1Context :=
  let low := c.lengthLow + length
  if low < c.lengthLow then
    let high := c.lengthHigh + 1
    { c with lengthLow := low, lengthHigh := high, corrupted := if high = 0 then 1 else 0 }
  else { c with lengthLow := low, corrupted := 0 }

/-- The body of the loop of `SHA1Input`. -/
def sha1InputOctet (c : SHA1Context) (octet : Byte) : SHA1Context :=
  let c := sha1AddLength { c with messageBlock := c.messageBlock ++ [octet] } 8
  if c.corrupted = 0 ∧ c.messageBlock.length = sha1MessageBlockSize then sha1ProcessMessageBlock c
  else c

/-- The loop of `SHA1Input`. -/
def sha1InputLoop (c : SHA1Context) : List Byte → SHA1Context
  | [] => c
  | octet :: octets =>
      if c.corrupted = 0 then sha1InputLoop (sha1InputOctet c octet) octets else c

/-- `SHA1Input`. -/
def sha1Input (c : SHA1Context) (messageArray : Option (List Byte)) (length : ℕ) :
    ℕ × SHA1Context :=
  if length = 0 then (shaSuccess, c)
  else
    match messageArray with
    | none => (shaNull, c)
    | some octets =>
        if c.computed then (shaStateError, { c with corrupted := shaStateError })
        else if c.corrupted ≠ 0 then (c.corrupted, c)
        else (shaSuccess, sha1InputLoop c (octets.take length))

/-- A loop that sets the octets of the block up to the index `n` to zero. -/
def zeroFill (n : ℕ) (block : List Byte) : List Byte := block ++ List.replicate (n - block.length) 0

/-- `SHA1PadMessage`. -/
def sha1PadMessage (c : SHA1Context) (padByte : Byte) : SHA1Context :=
  let padded := c.messageBlock ++ [padByte]
  let c :=
    if sha1MessageBlockSize - 8 ≤ c.messageBlock.length then
      sha1ProcessMessageBlock { c with messageBlock := zeroFill sha1MessageBlockSize padded }
    else { c with messageBlock := padded }
  let block := zeroFill (sha1MessageBlockSize - 8) c.messageBlock
  sha1ProcessMessageBlock { c with
    messageBlock := block.take 56 ++
      [(c.lengthHigh >>> 24).toUInt8, (c.lengthHigh >>> 16).toUInt8, (c.lengthHigh >>> 8).toUInt8,
        c.lengthHigh.toUInt8, (c.lengthLow >>> 24).toUInt8, (c.lengthLow >>> 16).toUInt8,
        (c.lengthLow >>> 8).toUInt8, c.lengthLow.toUInt8] }

/-- `SHA1Finalize`. -/
def sha1Finalize (c : SHA1Context) (padByte : Byte) : SHA1Context :=
  { sha1PadMessage c padByte with lengthLow := 0, lengthHigh := 0, computed := true }

/-- `masks`. -/
def sha1Masks : List Byte := [0x00, 0x80, 0xC0, 0xE0, 0xF0, 0xF8, 0xFC, 0xFE]

/-- `markbit`. -/
def sha1Markbit : List Byte := [0x80, 0x40, 0x20, 0x10, 0x08, 0x04, 0x02, 0x01]

/-- `SHA1FinalBits`. -/
def sha1FinalBits (c : SHA1Context) (messageBits : Byte) (length : ℕ) : ℕ × SHA1Context :=
  if length = 0 then (shaSuccess, c)
  else if c.computed = true ∨ 8 ≤ length then
    (shaStateError, { c with corrupted := shaStateError })
  else if c.corrupted ≠ 0 then (c.corrupted, c)
  else
    let c := sha1AddLength c (UInt32.ofNat length)
    (shaSuccess,
      sha1Finalize c ((messageBits &&& sha1Masks.getD length 0) ||| sha1Markbit.getD length 0))

/-- `SHA1Result`, with the digest if it is returned. -/
def sha1Result (c : SHA1Context) : (ℕ × Option (List Byte)) × SHA1Context :=
  if c.corrupted ≠ 0 then ((c.corrupted, none), c)
  else
    let c := if c.computed then c else sha1Finalize c 0x80
    let messageDigest := (List.range sha1HashSize).map fun i =>
      (c.intermediateHash.words.getD (i / 4) 0 >>> UInt32.ofNat (8 * (3 - i % 4))).toUInt8
    ((shaSuccess, some messageDigest), c)

/-- `cws_sha1`: the return value, and what has been written to `out`. -/
def cwsSha1 (input : Option (List Byte)) (len : ℕ) : ℤ × Option (List Byte) :=
  let r := sha1Input sha1Reset input (len % 2 ^ 32)
  if r.1 = shaSuccess then
    let r := sha1Result r.2
    if r.1.1 = shaSuccess then (0, r.1.2) else (-1, none)
  else (-1, none)

/-! ## Runs -/

/-- A call of one of the functions on a context. -/
inductive Sha1Call where
  | input (messageArray : Option (List Byte)) (length : ℕ)
  | finalBits (messageBits : Byte) (length : ℕ)
  | result
  deriving DecidableEq, Repr

/-- One call: the error code and the digest. -/
def sha1Step (c : SHA1Context) : Sha1Call → (ℕ × Option (List Byte)) × SHA1Context
  | .input messageArray length =>
      let r := sha1Input c messageArray length
      ((r.1, none), r.2)
  | .finalBits messageBits length =>
      let r := sha1FinalBits c messageBits length
      ((r.1, none), r.2)
  | .result => sha1Result c

/-- A sequence of calls. -/
def sha1Run (c : SHA1Context) : List Sha1Call → List (ℕ × Option (List Byte)) × SHA1Context
  | [] => ([], c)
  | call :: calls =>
      let r := sha1Step c call
      let rs := sha1Run r.2 calls
      (r.1 :: rs.1, rs.2)

/-! ## The octets that are written

The indices of `Message_Block` that are assigned to, in the order of the assignments.  The functions
go through the same branches as those above, and `Message_Block_Index` is the number of octets that
are kept. -/

/-- The loop of `SHA1Input`. -/
def sha1InputWrites (c : SHA1Context) : List Byte → List ℕ
  | [] => []
  | octet :: octets =>
      if c.corrupted = 0 then
        c.messageBlock.length :: sha1InputWrites (sha1InputOctet c octet) octets
      else []

/-- `while (Message_Block_Index < n)`, with the index at `i`. -/
def fillWrites (i n : ℕ) : List ℕ := List.range' i (n - i)

/-- `SHA1PadMessage`: the byte, the zeros up to the length, in the next block if it does not fit
into this one, and the eight octets of the length. -/
def sha1PadMessageWrites (c : SHA1Context) : List ℕ :=
  let i := c.messageBlock.length
  let zeros :=
    if sha1MessageBlockSize - 8 ≤ i then
      fillWrites (i + 1) sha1MessageBlockSize ++ fillWrites 0 (sha1MessageBlockSize - 8)
    else fillWrites (i + 1) (sha1MessageBlockSize - 8)
  i :: zeros ++ [56, 57, 58, 59, 60, 61, 62, 63]

/-- `SHA1Finalize`, which clears the block in the end. -/
def sha1FinalizeWrites (c : SHA1Context) : List ℕ :=
  sha1PadMessageWrites c ++ List.range sha1MessageBlockSize

/-- One call. -/
def sha1StepWrites (c : SHA1Context) : Sha1Call → List ℕ
  | .input messageArray length =>
      if length = 0 ∨ messageArray = none ∨ c.computed = true ∨ c.corrupted ≠ 0 then []
      else sha1InputWrites c ((messageArray.getD []).take length)
  | .finalBits _ length =>
      if length = 0 ∨ c.computed = true ∨ 8 ≤ length ∨ c.corrupted ≠ 0 then []
      else sha1FinalizeWrites c
  | .result => if c.corrupted ≠ 0 ∨ c.computed = true then [] else sha1FinalizeWrites c

/-- A sequence of calls. -/
def sha1RunWrites (c : SHA1Context) : List Sha1Call → List ℕ
  | [] => []
  | call :: calls => sha1StepWrites c call ++ sha1RunWrites (sha1Step c call).2 calls

end CurlWs
