import CurlWs.Model.Ws

/-!
# Frames

`frame.c` and `frame.h`: the frame record, `frame_validate`, `frame_decode` and `frame_encode`.  A
buffer is the list of the bytes it holds.

**Decoding.**  `_frame_decode` goes through a header from front to back and returns as soon as bytes
are missing, with a negative `delta` that says how many it wants next.  It is cut here where the
code has its two longer forms of a length and its masking key, so that each of the three functions
asks for bytes in one place.  The checks stand in the order of the source: a reserved bit, an opcode
that is not one of the six, a length that is not in its shortest form.

**Encoding.**  The encoder checks the room twice, once for the smallest header and once for the one
the length asks for, and it writes the bytes of the header in between.  It therefore also returns
what it has written, which is the header alone when the second check fails.  Both sums are taken
modulo the size of a `size_t`, as in the code.

**Validation.**  `frame_validate` is the same function for both directions; all that the direction
decides is whether the frame has to be masked or must not be.
-/

namespace CurlWs

/-- The four bytes of a masking key. -/
structure MaskingKey where
  k0 : Byte
  k1 : Byte
  k2 : Byte
  k3 : Byte
  deriving DecidableEq, Repr

namespace MaskingKey

/-- `mask[0x3 & i]`. -/
def get (k : MaskingKey) (i : ℕ) : Byte :=
  match i % 4 with
  | 0 => k.k0
  | 1 => k.k1
  | 2 => k.k2
  | _ => k.k3

/-- The four bytes as they stand on the wire. -/
def toList (k : MaskingKey) : List Byte := [k.k0, k.k1, k.k2, k.k3]

/-- The key after `memset(masking_key, 0, 4)`. -/
def zero : MaskingKey := ⟨0, 0, 0, 0⟩

end MaskingKey

/-- `struct cws_frame`.  `payload` is the memory the payload pointer refers to, empty for NULL. -/
structure CwsFrame where
  fin : Bool := false
  mask : Bool := false
  isControl : Bool := false
  isUrgent : Bool := false
  opcode : ℕ := 0
  maskingKey : MaskingKey := MaskingKey.zero
  payloadLen : ℕ := 0
  payload : List Byte := []
  deriving DecidableEq, Repr

/-- The direction a frame travels in. -/
inductive FrameDir where
  | c2s
  | s2c
  deriving DecidableEq, Repr

/-- `frame_validate`: zero for a reasonable frame, otherwise the first error found. -/
def frameValidate (f : CwsFrame) (dir : FrameDir) : ℤ :=
  if (dir = .c2s ∧ f.mask = false) ∨ (dir = .s2c ∧ f.mask = true) then -1
  else if f.opcode = wsOpcodeContinuation ∨ f.opcode = wsOpcodeText ∨ f.opcode = wsOpcodeBinary then
    if f.isControl then -2
    else if f.payloadLen = sizeMax then -3
    else 0
  else if f.opcode = wsOpcodeClose ∨ f.opcode = wsOpcodePing ∨ f.opcode = wsOpcodePong then
    if !f.isControl then -2
    else if !f.fin then -4
    else if wsCtlPayloadMax < f.payloadLen then -3
    else 0
  else -5

/-! ## Decoding

What `frame_decode` makes of the bytes it is shown.  The frame it fills in stays zero until the
whole of the header is there. -/

/-- What `frame_decode` returns: its result, the number of bytes used (or, negated, still needed),
and the frame, which stays zero unless the header is complete. -/
structure Decoded where
  rv : ℤ
  delta : ℤ
  frame : CwsFrame
  deriving DecidableEq, Repr

namespace Decoded

/-- A header that is refused: nothing is used of it. -/
def error (e : ℤ) : Decoded := ⟨e, 0, {}⟩

/-- `*delta = len - needed` for a buffer that is too short. -/
def needs (n : ℕ) : Decoded := ⟨0, -n, {}⟩

end Decoded

/-- The opcodes `_frame_decode` knows, and whether each is a control opcode. -/
def controlOpcode (opcode : ℕ) : Option Bool :=
  if opcode = wsOpcodeContinuation ∨ opcode = wsOpcodeText ∨ opcode = wsOpcodeBinary then some false
  else if opcode = wsOpcodeClose ∨ opcode = wsOpcodePing ∨ opcode = wsOpcodePong then some true
  else none

/-- The end of `_frame_decode`: the masking key, when there is one.  `used` counts the bytes before
`buf`. -/
def decodeMaskingKey (f : CwsFrame) (used : ℕ) (buf : List Byte) : Decoded :=
  if f.mask then
    match buf with
    | k0 :: k1 :: k2 :: k3 :: _ => ⟨0, used + 4, { f with maskingKey := ⟨k0, k1, k2, k3⟩ }⟩
    | _ => .needs (4 - buf.length)
  else ⟨0, used, f⟩

/-- The middle of `_frame_decode`: the two longer forms of the payload length. -/
def decodePayloadLen (f : CwsFrame) (buf : List Byte) : Decoded :=
  if f.payloadLen = 126 then
    match buf with
    | b0 :: b1 :: rest =>
        let n := b0.toNat <<< 8 ||| b1.toNat
        if n < 126 then .error (-3)
        else decodeMaskingKey { f with payloadLen := n } 4 rest
    | _ => .needs (2 - buf.length)
  else if f.payloadLen = 127 then
    match buf with
    | b0 :: b1 :: b2 :: b3 :: b4 :: b5 :: b6 :: b7 :: rest =>
        if 0x80 &&& b0 ≠ 0 then .error (-4)
        else
          let n := (0x7f &&& b0).toNat <<< 56 ||| b1.toNat <<< 48 ||| b2.toNat <<< 40
            ||| b3.toNat <<< 32 ||| b4.toNat <<< 24 ||| b5.toNat <<< 16 ||| b6.toNat <<< 8
            ||| b7.toNat
          if n ≤ 0xffff then .error (-5)
          else decodeMaskingKey { f with payloadLen := n } 10 rest
    | _ => .needs (8 - buf.length)
  else decodeMaskingKey f 2 buf

/-- `frame_decode`. -/
def frameDecode (buf : List Byte) : Decoded :=
  match buf with
  | b0 :: b1 :: rest =>
      if 0x70 &&& b0 ≠ 0 then .error (-1)
      else
        let opcode := (0x0f &&& b0).toNat
        match controlOpcode opcode with
        | none => .error (-2)
        | some isControl =>
            decodePayloadLen
              { fin := 0x80 &&& b0 ≠ 0, mask := 0x80 &&& b1 ≠ 0, isControl, opcode,
                payloadLen := (0x7f &&& b1).toNat } rest
  | _ => .needs (2 - buf.length)

/-! ## Encoding

The bytes of a frame on the wire, masked: the library is a client. -/

/-- `p[0]` to the last length byte: the header `frame_encode` writes before the masking key. -/
def headerBytes (f : CwsFrame) : List Byte :=
  let n := f.payloadLen
  let b0 := (if f.fin then 0x80 else 0) ||| (0x0f &&& UInt8.ofNat f.opcode)
  if n ≤ 125 then [b0, 0x80 ||| (0x7f &&& UInt8.ofNat n)]
  else if n ≤ 0xffff then [b0, 0x80 ||| 126, UInt8.ofNat (n >>> 8), UInt8.ofNat n]
  else
    [b0, 0x80 ||| 127, UInt8.ofNat (n >>> 56), UInt8.ofNat (n >>> 48), UInt8.ofNat (n >>> 40),
      UInt8.ofNat (n >>> 32), UInt8.ofNat (n >>> 24), UInt8.ofNat (n >>> 16), UInt8.ofNat (n >>> 8),
      UInt8.ofNat n]

/-- `header_len`: 6, 8 or 14. -/
def headerLen (f : CwsFrame) : ℕ :=
  if f.payloadLen ≤ 125 then 6 else if f.payloadLen ≤ 0xffff then 8 else 14

/-- The masking loop: `p[i] = payload[i] ^ mask[0x3 & i]` for every `i` below `payload_len`. -/
def maskedPayload (f : CwsFrame) : List Byte :=
  (List.range f.payloadLen).map fun i => f.payload.getD i 0 ^^^ f.maskingKey.get i

/-- `frame_encode` into a buffer of `len` bytes: the returned size, and the bytes written from the
start of the buffer on (header bytes are written even when the second check then fails). -/
def frameEncode (f : CwsFrame) (len : ℕ) : ℕ × List Byte :=
  if len < sizeAdd (wsFrameHeaderMin + wsFrameHeaderMask) f.payloadLen then (0, [])
  else if len < sizeAdd (headerLen f) f.payloadLen then (0, headerBytes f)
  else
    (sizeAdd (headerLen f) f.payloadLen, headerBytes f ++ f.maskingKey.toList ++ maskedPayload f)

end CurlWs
