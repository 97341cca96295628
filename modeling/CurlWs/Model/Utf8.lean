import CurlWs.Model.Ws

/-!
# The UTF-8 functions

`utf8.c`: the length table, `utf8_get_size`, `utf8_validate` and `utf8_maybe_valid`.

**Validation.**  The length of a character is looked up with its first byte, and is zero for a byte
that begins none.  The three kinds of longer characters have checks of their own, of the value for
the longer two and of the continuation bytes for all.  A character that is cut off by the end of the
text is not an error: the length that comes back says where it begins.

**Twice.**  `utf8_validate` is there on the list of the bytes it is given, which is what the rest of
the model uses, and on memory (`utf8ValidateAt`), with every index that it reads.  The second is for
one question only, whether it reads behind the text; the two are shown to agree.

**Characters that have begun.**  `utf8_maybe_valid` fills the missing bytes up and asks whether the
result is a character.  The fill is not the same everywhere: a missing first byte is a zero.
-/

namespace CurlWs

/-- `MAX_UTF_BYTES`. -/
def maxUtfBytes : ℕ := 4

/-- `utf8_len[256]`: the length of the character a lead byte starts, zero for a byte that starts
none. -/
def utf8LenTable : Array ℕ := #[
  1, 1, 1, 1, 1, 1, 1, 1, 1, 1, 1, 1, 1, 1, 1, 1,
  1, 1, 1, 1, 1, 1, 1, 1, 1, 1, 1, 1, 1, 1, 1, 1,
  1, 1, 1, 1, 1, 1, 1, 1, 1, 1, 1, 1, 1, 1, 1, 1,
  1, 1, 1, 1, 1, 1, 1, 1, 1, 1, 1, 1, 1, 1, 1, 1,
  1, 1, 1, 1, 1, 1, 1, 1, 1, 1, 1, 1, 1, 1, 1, 1,
  1, 1, 1, 1, 1, 1, 1, 1, 1, 1, 1, 1, 1, 1, 1, 1,
  1, 1, 1, 1, 1, 1, 1, 1, 1, 1, 1, 1, 1, 1, 1, 1,
  1, 1, 1, 1, 1, 1, 1, 1, 1, 1, 1, 1, 1, 1, 1, 1,
  0, 0, 0, 0, 0, 0, 0, 0, 0, 0, 0, 0, 0, 0, 0, 0,
  0, 0, 0, 0, 0, 0, 0, 0, 0, 0, 0, 0, 0, 0, 0, 0,
  0, 0, 0, 0, 0, 0, 0, 0, 0, 0, 0, 0, 0, 0, 0, 0,
  0, 0, 0, 0, 0, 0, 0, 0, 0, 0, 0, 0, 0, 0, 0, 0,
  0, 0, 2, 2, 2, 2, 2, 2, 2, 2, 2, 2, 2, 2, 2, 2,
  2, 2, 2, 2, 2, 2, 2, 2, 2, 2, 2, 2, 2, 2, 2, 2,
  3, 3, 3, 3, 3, 3, 3, 3, 3, 3, 3, 3, 3, 3, 3, 3,
  4, 4, 4, 4, 4, 0, 0, 0, 0, 0, 0, 0, 0, 0, 0, 0]

/-- `utf8_get_size`. -/
def utf8GetSize (c : Byte) : ℕ := utf8LenTable.getD c.toNat 0

/-- The second check of a two-byte character. -/
def validTwo (b1 : Byte) : Bool := 0xc0 &&& b1 = 0x80

/-- The checks of a three-byte character: its value and its continuation bytes. -/
def validThree (b0 b1 b2 : Byte) : Bool :=
  let c := (0x0f &&& b0).toNat <<< 12 ||| (0x3f &&& b1).toNat <<< 6 ||| (0x3f &&& b2).toNat
  !(c < 0x800 || (0xd800 ≤ c && c ≤ 0xdfff) || 0xc0 &&& b1 ≠ 0x80 || 0xc0 &&& b2 ≠ 0x80)

/-- The checks of a four-byte character. -/
def validFour (b0 b1 b2 b3 : Byte) : Bool :=
  let c := (0x07 &&& b0).toNat <<< 18 ||| (0x3f &&& b1).toNat <<< 12 ||| (0x3f &&& b2).toNat <<< 6
    ||| (0x3f &&& b3).toNat
  !(c < 0x10000 || 0x10ffff < c || 0xc0 &&& b1 ≠ 0x80 || 0xc0 &&& b2 ≠ 0x80 || 0xc0 &&& b3 ≠ 0x80)

/-- The body of the loop for the character at the front of `bytes`, whose length is `cLen`. -/
def validChar (cLen : ℕ) (bytes : List Byte) : Bool :=
  match cLen, bytes with
  | 1, _ => true
  | 2, _ :: b1 :: _ => validTwo b1
  | 3, b0 :: b1 :: b2 :: _ => validThree b0 b1 b2
  | 4, b0 :: b1 :: b2 :: b3 :: _ => validFour b0 b1 b2 b3
  | _, _ => false

/-- The loop of `utf8_validate` over what is left: the number of bytes left when it ends, or
`none` for an error.  The first argument bounds the iterations, each of which consumes a
character. -/
def utf8ValidateLoop : ℕ → List Byte → Option ℕ
  | 0, bytes => some bytes.length
  | _ + 1, [] => some 0
  | fuel + 1, b0 :: tail =>
      let bytes := b0 :: tail
      let cLen := utf8GetSize b0
      if bytes.length < cLen then some bytes.length
      else if validChar cLen bytes then utf8ValidateLoop fuel (bytes.drop cLen)
      else none

/-- `utf8_validate`: the new value of `*len` when it returns 0, `none` when it returns -1. -/
def utf8Validate (text : List Byte) : Option ℕ :=
  (utf8ValidateLoop text.length text).map (text.length - ·)

/-! ## On memory

The loop as the source has it, with an index in place of the pointer.  What it reads in an iteration
is the first byte, and then the bytes its checks look at; a byte that is read again is not noted
again. -/

/-- What `utf8_validate` returns, the value it leaves in `*len`, and the indices of `text` it has
read. -/
structure Utf8Scan where
  rv : ℤ
  len : ℕ
  reads : List ℕ
  deriving DecidableEq, Repr

/-- The indices the checks of a character of `cLen` bytes at `bytes` read after the lead byte has
been looked up, without the repetitions. -/
def charReads (cLen bytes : ℕ) : List ℕ :=
  match cLen with
  | 2 => [bytes + 1]
  | 3 => [bytes, bytes + 1, bytes + 2]
  | 4 => [bytes, bytes + 1, bytes + 2, bytes + 3]
  | _ => []

/-- The first `n` bytes from the index `i` on. -/
def bytesFrom (text : ℕ → Byte) (i n : ℕ) : List Byte := (List.range n).map fun j => text (i + j)

/-- The loop of `utf8_validate`, with the pointer `bytes` as an index into `text`.  The first
argument bounds the iterations. -/
def utf8ScanLoop (text : ℕ → Byte) (len : ℕ) : ℕ → ℕ → ℕ → Utf8Scan
  | 0, _, left => ⟨0, len - left, []⟩
  | fuel + 1, bytes, left =>
      if left = 0 then ⟨0, len - left, []⟩
      else
        let cLen := utf8GetSize (text bytes)
        if left < cLen then ⟨0, len - left, [bytes]⟩
        else if cLen = 0 then ⟨-1, len, [bytes]⟩
        else if validChar cLen (bytesFrom text bytes cLen) then
          let r := utf8ScanLoop text len fuel (bytes + cLen) (left - cLen)
          { r with reads := bytes :: charReads cLen bytes ++ r.reads }
        else ⟨-1, len, bytes :: charReads cLen bytes⟩

/-- `utf8_validate`, of `*len` bytes of the memory `text` points to. -/
def utf8ValidateAt (text : ℕ → Byte) (len : ℕ) : Utf8Scan := utf8ScanLoop text len len 0 len

/-! ## Characters that have begun

The question `_process_text_stream` asks between two pieces of a text. -/

/-- `utf8_maybe_valid`: the text is padded with 0x80 to four bytes and the character its first
byte starts is validated.  (Callers pass at most four bytes.) -/
def utf8MaybeValid (text : List Byte) : Bool :=
  let buf := text ++ [0, 0x80, 0x80, 0x80].drop text.length
  let cLen := utf8GetSize (buf.headD 0)
  if cLen = 0 then false else (utf8Validate (buf.take cLen)).isSome

end CurlWs
