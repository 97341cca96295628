import CurlWs.Send.Parse

/-!
# The codec

`frame_encode` and `frame_decode` are inverse to each other: what is encoded is decoded, and what is
decoded is what would be encoded.

**Encoded and decoded.**  A frame with a known opcode, encoded into a buffer with room for it, is
decoded to its fields.  This rests on the lemmas about `frame_encode` in `Parse`, which the round
trip of whole messages uses as well.  Applying the key once more gives the payload back.

**Decoded and encoded.**  A header that is accepted has its first two bytes made of the fields
(`firstByte_of_decoded`, `secondByte_of_decoded`), and a length in one of three forms
(`LengthForm`).  Of these the decoder accepts the shortest only, which is the one that
`frame_encode` writes; so the bytes are determined by the fields (`header_of_decoded`).

Only masked headers are concerned: a client encodes no others.

* **`codec_inverse`** — both directions.
-/

namespace CurlWs

open WebSocket

/-! ## The bytes of a header that is accepted

From the answer of the decoder back to the bytes it was given. -/

/-- The first byte is made of the fin bit and the opcode. -/
lemma firstByte_of_decoded : ∀ b : Byte, ¬ 0x70 &&& b ≠ 0 →
    (if decide (0x80 &&& b ≠ 0) = true then (0x80 : Byte) else 0) |||
      (0x0f &&& UInt8.ofNat (0x0f &&& b).toNat) = b :=
  Utf8.forall_byte (by decide +kernel)

/-- The second byte of a masked frame is made of a length or an escape. -/
lemma secondByte_of_decoded : ∀ b : Byte, 0x80 &&& b ≠ 0 →
    0x80 ||| (0x7f &&& UInt8.ofNat (0x7f &&& b).toNat) = b :=
  Utf8.forall_byte (by decide +kernel)

/-- The escapes. -/
lemma secondByte_escape : ∀ b : Byte, 0x80 &&& b ≠ 0 →
    ((0x7f &&& b).toNat = 126 → (0x80 : Byte) ||| 126 = b) ∧
      ((0x7f &&& b).toNat = 127 → (0x80 : Byte) ||| 127 = b) ∧ (0x7f &&& b).toNat < 128 :=
  Utf8.forall_byte (by decide +kernel)

lemma not_needs {n : ℕ} {d : ℤ} {g : CwsFrame} (h : Decoded.needs n = ⟨0, d, g⟩) (hd : 0 < d) :
    False := by
  have hneeds := congrArg Decoded.delta h
  simp only [Decoded.needs] at hneeds
  omega

/-- An answer that takes bytes. -/
lemma decodeMaskingKey_complete {f g : CwsFrame} {used : ℕ} {buf : List Byte} {d : ℤ}
    (hmask : g.mask = true) (h : decodeMaskingKey f used buf = ⟨0, d, g⟩) (hd : 0 < d) :
    ∃ rest, buf = g.maskingKey.toList ++ rest ∧ d = used + 4 ∧
      g = { f with maskingKey := g.maskingKey } := by
  by_cases hf : f.mask = true
  · rcases short_or_split 4 buf with hb | ⟨e, rest, rfl, he⟩
    · rw [decodeMaskingKey_short hf hb] at h
      exact (not_needs h hd).elim
    · obtain ⟨key, rfl⟩ := exists_maskingKey he
      rw [decodeMaskingKey_append hf] at h
      cases h
      exact ⟨rest, rfl, rfl, rfl⟩
  · rw [decodeMaskingKey_unmasked hf] at h
    cases h
    exact absurd hmask hf

/-- The three forms of a length that are accepted: `short` is the value of the second byte, `ext`
the bytes after it. -/
inductive LengthForm (n : ℕ) : ℕ → List Byte → ℤ → Prop where
  | short (hn : n ≤ 125) : LengthForm n n [] 6
  | two (hmin : 125 < n) (hmax : n ≤ 0xffff) : LengthForm n 126 (bigEndianBytes 2 n) 8
  | eight (hmin : 0xffff < n) : LengthForm n 127 (bigEndianBytes 8 n) 14

/-- A length that is accepted has one of these forms. -/
lemma lengthForm_of_fieldLength {f : CwsFrame} (hshort : f.payloadLen < 128) {e : List Byte} {n : ℕ}
    (he : e.length = fieldSize f) (h : fieldLength f e = .ok n) :
    LengthForm n f.payloadLen e ((2 + fieldSize f : ℕ) + 4) := by
  have hbytes : bigEndianBytes (fieldSize f) (bigEndian e) = e := by
    rw [← he]
    exact bigEndianBytes_bigEndian e
  have hlt := bigEndian_lt e
  rw [he] at hlt
  rw [fieldLength] at h
  by_cases h126 : f.payloadLen = 126
  · have hsize : fieldSize f = 2 := if_pos h126
    rw [hsize] at hbytes hlt ⊢
    rw [if_pos h126] at h
    split_ifs at h with hmin
    cases h
    have hform : LengthForm (bigEndian e) 126 (bigEndianBytes 2 (bigEndian e)) 8 :=
      .two (by omega) (by omega)
    rw [hbytes] at hform
    rw [h126]
    exact hform
  by_cases h127 : f.payloadLen = 127
  · have hsize : fieldSize f = 8 := by rw [fieldSize, if_neg h126, if_pos h127]
    rw [hsize] at hbytes ⊢
    rw [if_neg h126, if_pos h127] at h
    split_ifs at h with htop hmin
    cases h
    have hform : LengthForm (bigEndian e) 127 (bigEndianBytes 8 (bigEndian e)) 14 :=
      .eight (by omega)
    rw [hbytes] at hform
    rw [h127]
    exact hform
  · have hsize : fieldSize f = 0 := by rw [fieldSize, if_neg h126, if_neg h127]
    rw [hsize] at he ⊢
    rw [if_neg h126, if_neg h127] at h
    cases h
    obtain rfl := List.length_eq_zero_iff.mp he
    exact .short (by omega)

/-- The length and the key of a complete header are what its bytes say. -/
lemma decodePayloadLen_complete {f g : CwsFrame} {buf : List Byte} {d : ℤ} (hmask : g.mask = true)
    (hshort : f.payloadLen < 128) (h : decodePayloadLen f buf = ⟨0, d, g⟩) (hd : 0 < d) :
    ∃ ext rest, buf = ext ++ (g.maskingKey.toList ++ rest) ∧
      g = { f with payloadLen := g.payloadLen, maskingKey := g.maskingKey } ∧
      LengthForm g.payloadLen f.payloadLen ext d := by
  rcases short_or_split (fieldSize f) buf with hb | ⟨ext, r, rfl, he⟩
  · rw [decodePayloadLen_short hb] at h
    exact (not_needs h hd).elim
  · rw [decodePayloadLen_append he] at h
    cases hlen : fieldLength f ext with
    | error x =>
        rw [hlen] at h
        exact absurd (congrArg Decoded.rv h) (fieldLength_error hlen).ne
    | ok n =>
        rw [hlen] at h
        obtain ⟨rest, rfl, rfl, hg⟩ := decodeMaskingKey_complete hmask h hd
        have hn : g.payloadLen = n := congrArg CwsFrame.payloadLen hg
        refine ⟨ext, rest, rfl, ?_, ?_⟩
        · rw [hn]
          exact hg
        · rw [hn]
          exact lengthForm_of_fieldLength hshort he hlen

/-- The header of each form. -/
lemma headerBytes_of_form {f : CwsFrame} {b0 b1 : Byte} {short : ℕ} {ext : List Byte} {d : ℤ}
    (hform : LengthForm f.payloadLen short ext d) (h0 : firstByte f = b0)
    (hmask : 0x80 &&& b1 ≠ 0) (h1 : (0x7f &&& b1).toNat = short) :
    d = headerLen f ∧ headerBytes f = b0 :: b1 :: ext := by
  obtain ⟨h126, h127, -⟩ := secondByte_escape b1 hmask
  have hsecond := secondByte_of_decoded b1 hmask
  have hfirst : ((if f.fin then 0x80 else 0) ||| (0x0f &&& UInt8.ofNat f.opcode)) = b0 := h0
  simp only [headerLen, headerBytes, hfirst]
  generalize f.payloadLen = n at hform
  cases hform with
  | short hn =>
      rw [h1] at hsecond
      rw [if_pos hn, if_pos hn, hsecond]
      exact ⟨rfl, rfl⟩
  | two hmin hmax =>
      rw [if_neg (not_le.mpr hmin), if_neg (not_le.mpr hmin), if_pos hmax, if_pos hmax, h126 h1,
        shifts_two]
      exact ⟨rfl, rfl⟩
  | eight hmin =>
      have hlong : ¬ n ≤ 125 := by omega
      rw [if_neg hlong, if_neg hlong, if_neg (not_le.mpr hmin), if_neg (not_le.mpr hmin), h127 h1,
        shifts_eight]
      exact ⟨rfl, rfl⟩

/-- **A header that is accepted** is the one `frame_encode` writes. -/
theorem header_of_decoded {buf : List Byte} {d : ℤ} {f : CwsFrame}
    (h : frameDecode buf = ⟨0, d, f⟩) (hd : 0 < d) (hmask : f.mask = true) :
    d = headerLen f ∧ ∃ rest, buf = headerBytes f ++ f.maskingKey.toList ++ rest := by
  rcases buf with _ | ⟨b0, _ | ⟨b1, buf⟩⟩
  · exact (not_needs h hd).elim
  · exact (not_needs h hd).elim
  · rw [frameDecode] at h
    by_cases hrsv : 0x70 &&& b0 ≠ 0
    · rw [if_pos hrsv] at h
      exact absurd (congrArg Decoded.rv h) (by simp [Decoded.error])
    rw [if_neg hrsv] at h
    cases hop : controlOpcode (0x0f &&& b0).toNat with
    | none =>
        simp only [hop] at h
        exact absurd (congrArg Decoded.rv h) (by simp [Decoded.error])
    | some isControl =>
        simp only [hop] at h
        have hshort : (0x7f &&& b1).toNat < 128 := by
          rw [low_seven]
          exact Nat.mod_lt _ (by decide)
        obtain ⟨ext, rest, rfl, hf, hform⟩ := decodePayloadLen_complete hmask hshort h hd
        have hmasked : 0x80 &&& b1 ≠ 0 := by
          have hbit := congrArg CwsFrame.mask hf
          exact of_decide_eq_true (hbit.symm.trans hmask)
        have hfirst : firstByte f = b0 := by
          have hfin : f.fin = _ := congrArg CwsFrame.fin hf
          have hopcode : f.opcode = _ := congrArg CwsFrame.opcode hf
          rw [firstByte, hfin, hopcode]
          exact firstByte_of_decoded b0 hrsv
        obtain ⟨hlen, hbytes⟩ := headerBytes_of_form hform hfirst hmasked rfl
        refine ⟨hlen, rest, ?_⟩
        rw [hbytes, List.cons_append, List.cons_append, List.cons_append, List.cons_append,
          List.append_assoc]

/-- **The codec.**  A frame with a known opcode that is encoded into a buffer with room for it is
decoded to the same fields, and its payload is got back with the key.  A masked header that is
accepted consists of the bytes `frame_encode` writes for the fields it is decoded to. -/
theorem codec_inverse :
    (∀ (f : CwsFrame) (len : ℕ), f.opcode ∈ [0, 1, 2, 8, 9, 10] → f.payloadLen < 2 ^ 63 →
      f.payloadLen ≤ f.payload.length → headerLen f + f.payloadLen ≤ len → len < sizeModulus →
      let written := (frameEncode f len).2
      (headerLen f = 6 ∨ headerLen f = 8 ∨ headerLen f = 14) ∧
      (frameEncode f len).1 = headerLen f + f.payloadLen ∧
      written.length = headerLen f + f.payloadLen ∧
      frameDecode written =
        ⟨0, headerLen f,
          { fin := f.fin, mask := true, isControl := 8 ≤ f.opcode, opcode := f.opcode,
            maskingKey := f.maskingKey, payloadLen := f.payloadLen }⟩ ∧
      unmask f.maskingKey (written.drop (headerLen f)) = f.payload.take f.payloadLen) ∧
    ∀ (buf : List Byte) (d : ℕ) (f : CwsFrame), frameDecode buf = ⟨0, d, f⟩ → 0 < d →
      f.mask = true → buf.take d = headerBytes f ++ f.maskingKey.toList ∧
        ∀ len, headerLen f + f.payloadLen ≤ len → len < sizeModulus →
          (frameEncode f len).2.take d = buf.take d := by
  refine ⟨fun f len hop hlen hreadable hroom hsize => ?_, fun buf d f hdecode hd hmask => ?_⟩
  · have hknown : controlOpcode f.opcode = some (decide (8 ≤ f.opcode)) := by
      simp only [List.mem_cons, List.not_mem_nil, or_false] at hop
      rcases hop with h | h | h | h | h | h <;> rw [h] <;> rfl
    have hencode := frameEncode_of_le hsize hroom
    simp only [hencode]
    refine ⟨?_, rfl, length_encoding f, ?_, ?_⟩
    · rw [headerLen]
      split_ifs <;> simp
    · exact frameDecode_encoding hknown hlen (maskedPayload f)
    · rw [encoding, List.drop_left' (length_header f)]
      exact unmask_maskedPayload hreadable
  · obtain ⟨hlen, rest, hbuf⟩ := header_of_decoded hdecode (by omega) hmask
    have hd' : (headerBytes f ++ f.maskingKey.toList).length = d := by
      rw [length_header]
      omega
    have htake : buf.take d = headerBytes f ++ f.maskingKey.toList := by
      rw [hbuf]
      exact List.take_left' hd'
    refine ⟨htake, fun len hroom hsize => ?_⟩
    rw [frameEncode_of_le hsize hroom, htake]
    exact List.take_left' hd'

/-- A ping of one byte, both ways. -/
theorem codec_inverse_ping :
    let f : CwsFrame := { fin := true, opcode := wsOpcodePing, maskingKey := ⟨1, 2, 3, 4⟩,
                          payloadLen := 1, payload := [0x41] }
    let written := (frameEncode f 131).2
    unmask f.maskingKey (written.drop 6) = [0x41] ∧
      written.take 6 = headerBytes f ++ f.maskingKey.toList := by
  intro f written
  obtain ⟨hencode, hdecode⟩ := codec_inverse
  obtain ⟨-, -, -, hread, hpayload⟩ :=
    hencode f 131 (by decide) (by decide) (by decide) (by decide) (by decide)
  exact ⟨hpayload, (hdecode written 6 _ hread (by decide) rfl).1⟩

end CurlWs
