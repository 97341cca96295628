import CurlWs.Receive.HeaderDecode
import CurlWs.Send.Encode

/-!
# Reading the frames of a client

What a server makes of the bytes it gets: `parseFrames` takes frames off the front with
`frame_decode`, checks them with `frame_validate` and removes the mask.

**A server in the library's own terms.**  No decoder is invented for this: the two functions are
those of the receive path, called with the other direction.  The result is a list of frames, or
`none` for bytes that are not a sequence of valid ones.

**Header by header.**  The first byte is the fin bit and the opcode, the second the mask bit and a
length or an escape, and then come two or eight digits; each is read back as it was written
(`firstByte_spec`, `shortLength_spec`, `twoBytes_spec`, `eightBytes_spec`).  Only frames with known
opcodes and lengths below `2 ^ 63` are considered, and the client builds no others (`Sendable`).

**Payloads.**  The mask is an exclusive or, and taken away by another one (`unmask_maskedPayload`).

## Main results

* **`frameDecode_encoding`** — `frame_decode` reads back what `frame_encode` wrote.
* **`parseFrames_encoding`** — a sequence of encoded frames is read back whole.
-/

namespace CurlWs

open WebSocket

/-! ## The parser

One frame after the other, until no bytes are left. -/

/-- Remove the mask. -/
def unmask (key : MaskingKey) (p : List Byte) : List Byte := p.mapIdx fun i b => b ^^^ key.get i

/-- The frames in a byte string, `none` if it is not a sequence of valid frames from a client.
Every frame takes a byte at least, so the first argument bounds their number. -/
def parseFrames : ℕ → List Byte → Option (List Frame)
  | 0, bytes => if bytes = [] then some [] else none
  | fuel + 1, bytes =>
      if bytes = [] then some []
      else
        let d := frameDecode bytes
        if d.rv ≠ 0 ∨ d.delta ≤ 0 ∨ frameValidate d.frame .c2s ≠ 0 then none
        else
          let rest := bytes.drop d.delta.toNat
          let len := d.frame.payloadLen
          if rest.length < len then none
          else
            (parseFrames fuel (rest.drop len)).map
              (⟨d.frame.fin, d.frame.opcode, unmask d.frame.maskingKey (rest.take len)⟩ :: ·)

/-- A whole byte string. -/
def parseOutput (bytes : List Byte) : Option (List Frame) := parseFrames bytes.length bytes

/-! ## Frames that are read back

The bits and bytes of a header, both ways. -/

/-- The bytes of the payload. -/
def CwsFrame.data (f : CwsFrame) : List Byte := f.payload.take f.payloadLen

/-- What the receiver sees. -/
def CwsFrame.toFrame (f : CwsFrame) : Frame := ⟨f.fin, f.opcode, f.data⟩

/-- A frame the client may send, with a payload that is there. -/
structure Sendable (f : CwsFrame) : Prop where
  mask : f.mask = true
  known : controlOpcode f.opcode = some f.isControl
  readable : f.payloadLen ≤ f.payload.length
  len : f.payloadLen < 2 ^ 63
  control : f.isControl = true → f.fin = true ∧ f.payloadLen ≤ wsCtlPayloadMax

/-- The opcodes that are known. -/
lemma opcode_cases {n : ℕ} {isControl : Bool} (h : controlOpcode n = some isControl) :
    (isControl = false ∧ (n = 0 ∨ n = 1 ∨ n = 2)) ∨
      (isControl = true ∧ (n = 8 ∨ n = 9 ∨ n = 10)) := by
  rw [controlOpcode] at h
  split_ifs at h with hdata hcontrol
  · exact .inl ⟨(Option.some.inj h).symm, hdata⟩
  · exact .inr ⟨(Option.some.inj h).symm, hcontrol⟩

/-- The first byte. -/
def firstByte (f : CwsFrame) : Byte :=
  (if f.fin then 0x80 else 0) ||| (0x0f &&& UInt8.ofNat f.opcode)

/-- The fin bit and the opcode are read back, and no reserved bit is set. -/
lemma firstByte_spec {f : CwsFrame} {isControl : Bool}
    (hknown : controlOpcode f.opcode = some isControl) :
    ¬ 0x70 &&& firstByte f ≠ 0 ∧ (0x0f &&& firstByte f).toNat = f.opcode ∧
      decide (0x80 &&& firstByte f ≠ 0) = f.fin := by
  rw [firstByte]
  rcases opcode_cases hknown with ⟨-, h | h | h⟩ | ⟨-, h | h | h⟩
  all_goals
    rw [h]
    cases f.fin <;> decide

/-- The second byte, without its top bit. -/
lemma shortLength_spec : ∀ n < 126, (0x7f &&& (0x80 ||| (0x7f &&& UInt8.ofNat n))).toNat = n ∧
    0x80 &&& (0x80 ||| (0x7f &&& UInt8.ofNat n)) ≠ 0 := by
  decide +kernel

/-- The shifts of the encoder are the digits of the length. -/
lemma shifts_eight (n : ℕ) :
    [UInt8.ofNat (n >>> 56), UInt8.ofNat (n >>> 48), UInt8.ofNat (n >>> 40),
      UInt8.ofNat (n >>> 32), UInt8.ofNat (n >>> 24), UInt8.ofNat (n >>> 16), UInt8.ofNat (n >>> 8),
      UInt8.ofNat n] = bigEndianBytes 8 n := by
  simp [bigEndianBytes, Nat.shiftRight_eq_div_pow, Nat.div_div_eq_div_mul]

lemma shifts_two (n : ℕ) : [UInt8.ofNat (n >>> 8), UInt8.ofNat n] = bigEndianBytes 2 n := by
  simp [bigEndianBytes, Nat.shiftRight_eq_div_pow]

/-- Two bytes of length. -/
lemma twoBytes_spec {n : ℕ} (hn : n ≤ 0xffff) :
    (UInt8.ofNat (n >>> 8)).toNat <<< 8 ||| (UInt8.ofNat n).toNat = n := by
  rw [two_bytes, shifts_two, bigEndian_bigEndianBytes 2 n (by omega)]

/-- Eight bytes of length: the top bit is clear. -/
lemma eightBytes_spec {n : ℕ} (hn : n < 2 ^ 63) :
    ¬ (0x80 : Byte) &&& UInt8.ofNat (n >>> 56) ≠ 0 ∧
    ((0x7f : Byte) &&& UInt8.ofNat (n >>> 56)).toNat <<< 56 |||
      (UInt8.ofNat (n >>> 48)).toNat <<< 48 ||| (UInt8.ofNat (n >>> 40)).toNat <<< 40 |||
      (UInt8.ofNat (n >>> 32)).toNat <<< 32 ||| (UInt8.ofNat (n >>> 24)).toNat <<< 24 |||
      (UInt8.ofNat (n >>> 16)).toNat <<< 16 ||| (UInt8.ofNat (n >>> 8)).toNat <<< 8 |||
      (UInt8.ofNat n).toNat = n := by
  have htop : (UInt8.ofNat (n >>> 56)).toNat < 128 := by
    rw [UInt8.toNat_ofNat', Nat.shiftRight_eq_div_pow]
    omega
  refine ⟨fun h => absurd ((high_iff _).mp h) (not_le.mpr htop), ?_⟩
  rw [low_seven, Nat.mod_eq_of_lt htop, eight_bytes, shifts_eight,
    bigEndian_bigEndianBytes 8 n (by omega)]

/-- The frame `frame_decode` hands back: all but the payload. -/
def decodedFrame (f : CwsFrame) (isControl : Bool) : CwsFrame :=
  { f with mask := true, isControl, isUrgent := false, payload := [] }

/-- **`frame_decode` reads the header back.** -/
theorem frameDecode_encoding {f : CwsFrame} {isControl : Bool}
    (hknown : controlOpcode f.opcode = some isControl) (hlen : f.payloadLen < 2 ^ 63)
    (rest : List Byte) :
    frameDecode (headerBytes f ++ f.maskingKey.toList ++ rest) =
      ⟨0, headerLen f, decodedFrame f isControl⟩ := by
  obtain ⟨hrsv, hopcode, hfin⟩ := firstByte_spec hknown
  rw [List.append_assoc]
  simp only [headerBytes, headerLen]
  change frameDecode ((if f.payloadLen ≤ 125 then [firstByte f, _] else
    if f.payloadLen ≤ 0xffff then [firstByte f, _, _, _] else
      [firstByte f, _, _, _, _, _, _, _, _, _]) ++ _) = _
  split_ifs with h1 h2
  · obtain ⟨hn, hmask⟩ := shortLength_spec f.payloadLen (by omega)
    simp only [List.cons_append, List.nil_append, frameDecode, if_neg hrsv, hopcode, hknown, hfin,
      hn, decide_eq_true hmask]
    rw [decodePayloadLen.eq_def, if_neg (by simp only; omega), if_neg (by simp only; omega),
      decodeMaskingKey_append rfl]
    rfl
  · have h126 : ((0x7f : Byte) &&& (0x80 ||| 126)).toNat = 126 := by decide
    have hmask : (0x80 : Byte) &&& (0x80 ||| 126) ≠ 0 := by decide
    simp only [List.cons_append, List.nil_append, frameDecode, if_neg hrsv, hopcode, hknown, hfin,
      h126, decide_eq_true hmask, decodePayloadLen, if_true, twoBytes_spec h2]
    rw [if_neg (by omega), decodeMaskingKey_append rfl]
    rfl
  · have h127 : ((0x7f : Byte) &&& (0x80 ||| 127)).toNat = 127 := by decide
    have hmask : (0x80 : Byte) &&& (0x80 ||| 127) ≠ 0 := by decide
    obtain ⟨htop, hn⟩ := eightBytes_spec hlen
    simp only [List.cons_append, List.nil_append, frameDecode, if_neg hrsv, hopcode, hknown, hfin,
      h127, decide_eq_true hmask, decodePayloadLen, if_true, if_neg htop, hn]
    rw [if_neg (by omega), if_neg (by omega), decodeMaskingKey_append rfl]
    rfl

/-- The decoded frame passes the check. -/
lemma frameValidate_decoded {f : CwsFrame} (hf : Sendable f) :
    frameValidate (decodedFrame f f.isControl) .c2s = 0 := by
  have hlen := hf.len
  rw [frameValidate, if_neg (by simp [decodedFrame])]
  rcases opcode_cases hf.known with ⟨hc, h⟩ | ⟨hc, h⟩
  · refine (if_pos h).trans ?_
    rw [if_neg (by simp [decodedFrame, hc]),
      if_neg (by simp only [decodedFrame, sizeMax, sizeModulus]; omega)]
  · obtain ⟨hfin, hmax⟩ := hf.control hc
    have hnot : ¬ (f.opcode = 0 ∨ f.opcode = 1 ∨ f.opcode = 2) := by omega
    refine (if_neg hnot).trans ((if_pos h).trans ?_)
    rw [if_neg (by simp [decodedFrame, hc]), if_neg (by simp [decodedFrame, hfin])]
    exact if_neg (not_lt.mpr hmax)

/-! ## Payloads

The mask is removed, and the next frame begins behind the payload. -/

/-- **Masking twice is masking not at all.** -/
theorem unmask_maskedPayload {f : CwsFrame} (hf : f.payloadLen ≤ f.payload.length) :
    unmask f.maskingKey (maskedPayload f) = f.data := by
  refine List.ext_getElem ?_ fun i h1 h2 => ?_
  · rw [unmask, List.length_mapIdx, length_maskedPayload, CwsFrame.data, List.length_take,
      Nat.min_eq_left hf]
  · rw [unmask, List.length_mapIdx, length_maskedPayload] at h1
    have hi : i < f.payload.length := lt_of_lt_of_le h1 hf
    simp [unmask, maskedPayload, CwsFrame.data, hi]

/-- **Encoded frames are read back whole.** -/
theorem parseFrames_encoding {fs : List CwsFrame} : ∀ {fuel : ℕ}, (∀ f ∈ fs, Sendable f) →
    (fs.flatMap encoding).length ≤ fuel →
    parseFrames fuel (fs.flatMap encoding) = some (fs.map CwsFrame.toFrame) := by
  induction fs with
  | nil =>
      intro fuel _ _
      cases fuel <;> rfl
  | cons f fs ih =>
      intro fuel hall hfuel
      have hf := hall f List.mem_cons_self
      have hpos := encodedLen_pos f
      have hhead := headerLen_bounds f
      have hmasked := length_maskedPayload f
      rw [List.flatMap_cons, List.length_append, length_encoding] at hfuel
      obtain ⟨fuel, rfl⟩ := Nat.exists_eq_succ_of_ne_zero (show fuel ≠ 0 by omega)
      have hshape : (f :: fs).flatMap encoding =
          headerBytes f ++ f.maskingKey.toList ++ (maskedPayload f ++ fs.flatMap encoding) := by
        rw [List.flatMap_cons, encoding]
        simp only [List.append_assoc]
      have hdrop : (headerBytes f ++ f.maskingKey.toList ++
          (maskedPayload f ++ fs.flatMap encoding)).drop (headerLen f) =
          maskedPayload f ++ fs.flatMap encoding := List.drop_left' (length_header f)
      have hne : headerBytes f ++ f.maskingKey.toList ++
          (maskedPayload f ++ fs.flatMap encoding) ≠ [] := by
        refine List.ne_nil_of_length_pos ?_
        rw [List.length_append, length_header]
        omega
      have hbound : (fs.flatMap encoding).length ≤ fuel := by omega
      rw [hshape, parseFrames, if_neg hne]
      simp only [frameDecode_encoding hf.known hf.len, Int.toNat_natCast, hdrop]
      have hok : ¬ ((0 : ℤ) ≠ 0 ∨ (headerLen f : ℤ) ≤ 0 ∨
          frameValidate (decodedFrame f f.isControl) .c2s ≠ 0) := by
        rw [frameValidate_decoded hf]
        omega
      have hlong : ¬ (maskedPayload f ++ fs.flatMap encoding).length <
          (decodedFrame f f.isControl).payloadLen := by
        rw [List.length_append, hmasked]
        exact not_lt.mpr (Nat.le_add_right _ _)
      have htake :
          (maskedPayload f ++ fs.flatMap encoding).take (decodedFrame f f.isControl).payloadLen =
          maskedPayload f := List.take_left' hmasked
      have hrest :
          (maskedPayload f ++ fs.flatMap encoding).drop (decodedFrame f f.isControl).payloadLen =
          fs.flatMap encoding := List.drop_left' hmasked
      rw [if_neg hok, if_neg hlong, htake, hrest,
        ih (fun g hg => hall g (List.mem_cons_of_mem f hg)) hbound]
      exact congrArg (fun p => some (⟨f.fin, f.opcode, p⟩ :: fs.map CwsFrame.toFrame))
        (unmask_maskedPayload hf.readable)

/-- The whole output. -/
lemma parseOutput_encoding {fs : List CwsFrame} (h : ∀ f ∈ fs, Sendable f) :
    parseOutput (fs.flatMap encoding) = some (fs.map CwsFrame.toFrame) :=
  parseFrames_encoding h le_rfl

end CurlWs
