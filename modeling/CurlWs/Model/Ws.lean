import Mathlib

/-!
# Constants of the protocol and of the public interface

The macros of `ws.h`, `curlws.h` and `frame_senders.h`, the result codes of the public functions,
and the one function of `ws.c`.  Everything else in the model is built from these.

**Numbers.**  The flag words are C `int`s, so they are 32-bit vectors here and the code's `&`, `|`
and `~` are the vector operations.  Sizes and lengths are natural numbers, with `sizeAdd` where the
code adds two `size_t` values and nothing rules out a wrap; where a sum cannot wrap, because one of
the two is a small constant and the other has been compared before, it is the sum of naturals.  A
close code is an integer, since the public functions take it signed and a negative one has a meaning
of its own.

**Memory.**  A pointer with a length is the list of the bytes that may be read through it, and a
pointer that may be NULL is an option.  `strlen` and `SIZE_MAX` are kept where the code gives them a
meaning.
-/

namespace CurlWs

/-- One octet on the wire or in a buffer. -/
abbrev Byte := UInt8

/-- A C `int` used as a set of option bits. -/
abbrev Flags := BitVec 32

/-! ## `curlws.h`

The bits of the `info` argument: three for the type of a fragment, two for where it stands in its
message. -/

/-- `CWS_CONT`: the fragment continues a message. -/
def cwsCont : Flags := 0x00000100

/-- `CWS_BINARY`: the fragment begins a binary message. -/
def cwsBinary : Flags := 0x00000200

/-- `CWS_TEXT`: the fragment begins a text message. -/
def cwsText : Flags := 0x00000400

/-- `CWS_FIRST`: the first fragment of its message. -/
def cwsFirst : Flags := 0x01000000

/-- `CWS_LAST`: the last fragment of its message. -/
def cwsLast : Flags := 0x02000000

/-- The result codes of the public functions that the library returns. -/
inductive CWScode where
  | ok
  | outOfMemory
  | closedConnection
  | invalidCloseReasonCode
  | appDataLengthTooLong
  | streamContinuityIssue
  | invalidOptions
  | invalidUtf8
  | badFunctionArgument
  deriving DecidableEq, Repr

/-! ## `frame_senders.h`

The bits by which the public functions say what control frame they want. -/

/-- `CWS_CLOSE`. -/
def cwsCloseBit : Flags := 0x00010000

/-- `CWS_PING`. -/
def cwsPingBit : Flags := 0x00020000

/-- `CWS_PONG`. -/
def cwsPongBit : Flags := 0x00040000

/-- `CWS_URGENT`: the frame goes to the front of the queue.  It is in neither of the two masks. -/
def cwsUrgent : Flags := 0x04000000

/-- `CWS_CTRL_MASK`. -/
def cwsCtrlMask : Flags := cwsCloseBit ||| cwsPingBit ||| cwsPongBit

/-- `CWS_NONCTRL_MASK`. -/
def cwsNonctrlMask : Flags := cwsCont ||| cwsBinary ||| cwsText

/-! ## `ws.h`

The numbers of the protocol: the parts of a frame header, the limits of a control frame, and the six
opcodes.  The largest header has two bytes, eight of an extended length and four of a masking key.
-/

/-- The two bytes every frame begins with. -/
def wsFrameHeaderMin : ℕ := 2

/-- The bytes of a masking key. -/
def wsFrameHeaderMask : ℕ := 4

/-- The bytes of the longest extended length. -/
def wsFrameHeaderMaxPayloadSize : ℕ := 8

/-- The largest frame header: fourteen bytes. -/
def wsFrameHeaderMax : ℕ := wsFrameHeaderMin + wsFrameHeaderMask + wsFrameHeaderMaxPayloadSize

/-- The most bytes a control frame carries. -/
def wsCtlPayloadMax : ℕ := 125

/-- The largest control frame the client sends, header and key included. -/
def wsCtlFrameMax : ℕ := wsFrameHeaderMin + wsFrameHeaderMask + wsCtlPayloadMax

/-- `WS_OPCODE_CONTINUATION`. -/
def wsOpcodeContinuation : ℕ := 0x0

/-- `WS_OPCODE_TEXT`. -/
def wsOpcodeText : ℕ := 0x1

/-- `WS_OPCODE_BINARY`. -/
def wsOpcodeBinary : ℕ := 0x2

/-- `WS_OPCODE_CLOSE`. -/
def wsOpcodeClose : ℕ := 0x8

/-- `WS_OPCODE_PING`. -/
def wsOpcodePing : ℕ := 0x9

/-- `WS_OPCODE_PONG`. -/
def wsOpcodePong : ℕ := 0xa

/-! ## Machine sizes

A `size_t` of 64 bits.  Two of its values matter to the code: the sum of two of them, which wraps,
and the largest, which several of the public functions take to mean that a text ends at its NUL. -/

/-- One past `SIZE_MAX`, on a 64-bit machine. -/
def sizeModulus : ℕ := 2 ^ 64

/-- `SIZE_MAX`, which several functions take to mean "use `strlen`". -/
def sizeMax : ℕ := sizeModulus - 1

/-- The sum of two `size_t` values. -/
def sizeAdd (a b : ℕ) : ℕ := (a + b) % sizeModulus

/-- A sum that is no `size_t` too large is the sum. -/
lemma sizeAdd_of_lt {a b : ℕ} (h : a + b < sizeModulus) : sizeAdd a b = a + b :=
  Nat.mod_eq_of_lt h

/-- `strlen`: the bytes before the first NUL. -/
def strlen (s : List Byte) : ℕ := (s.takeWhile (· ≠ 0)).length

/-- A string literal, as the bytes the compiler stores (without the final NUL). -/
def ascii (cs : List Char) : List Byte := cs.map fun c => UInt8.ofNat c.toNat

/-! ## `ws.c` -/

/-- `is_close_code_valid`. -/
def isCloseCodeValid (code : ℤ) : Bool :=
  (3000 ≤ code && code ≤ 4999) || (1000 ≤ code && code ≤ 1003) || (1007 ≤ code && code ≤ 1011)

end CurlWs
