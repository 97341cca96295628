import CurlWs.Library.Utf8
import CurlWs.Library.WebSocket
import CurlWs.Model.Frame

/-!
# Frame headers against the reference

`frame_decode` is called with a header that grows until it is complete.  Each of its answers is a
statement about all streams that begin with these bytes: the header is malformed whatever follows,
or it is not complete and will not be before so many more bytes, or it ends here.

**Bits and numbers.**  The masks and shifts of the source against the quotients and remainders of
the reference, byte by byte.

**Two decoders.**  Both read the first two bytes, a length field of none, two or eight bytes, and a
masking key of none or four.  The code goes through them in three functions, and the reference is
given a lemma for each stage (`parseHeader_bad`, `parseHeader_short`, `parseHeader_length`).  What
the first two bytes say of a frame is `FirstTwo`.

**The answers.**  `HeaderOutcome` has a case for each answer.  It is proved from the last stage
backwards (`outcome_maskingKey`, `outcome_payloadLen`).

## Main results

* **`frameDecode_outcome`** — what each answer means for the stream as the reference reads it.
* **`frameDecode_needs`** — reading the number of bytes asked for never goes past the header.
-/

namespace CurlWs

open WebSocket

/-- The header a decoded frame stands for. -/
def CwsFrame.toHeader (f : CwsFrame) : Header := ⟨f.fin, f.opcode, f.mask, f.payloadLen⟩

/-! ## The bits of the first two bytes

Facts about one byte, checked for all 256. -/

lemma rsv_iff : ∀ b : Byte, 0x70 &&& b ≠ 0 ↔ b.toNat / 16 % 8 ≠ 0 :=
  Utf8.forall_byte (by decide +kernel)

/-- The highest bit: the end of a message, or a masking key. -/
lemma high_iff : ∀ b : Byte, 0x80 &&& b ≠ 0 ↔ 128 ≤ b.toNat := Utf8.forall_byte (by decide +kernel)

lemma low_four : ∀ b : Byte, (0x0f &&& b).toNat = b.toNat % 16 :=
  Utf8.forall_byte (by decide +kernel)

/-- The length that fits in the second byte. -/
lemma low_seven : ∀ b : Byte, (0x7f &&& b).toNat = b.toNat % 128 :=
  Utf8.forall_byte (by decide +kernel)

/-- The opcodes the decoder knows are those that have a meaning, and it tells the control opcodes
among them. -/
lemma controlOpcode_eq (n : ℕ) :
    controlOpcode n = if knownOpcode n then some (decide (8 ≤ n)) else none := by
  have hdata : n = wsOpcodeContinuation ∨ n = wsOpcodeText ∨ n = wsOpcodeBinary ↔ n ≤ 2 := by
    simp only [wsOpcodeContinuation, wsOpcodeText, wsOpcodeBinary]
    omega
  have hcontrol : n = wsOpcodeClose ∨ n = wsOpcodePing ∨ n = wsOpcodePong ↔ 8 ≤ n ∧ n ≤ 10 := by
    simp only [wsOpcodeClose, wsOpcodePing, wsOpcodePong]
    omega
  simp only [controlOpcode, knownOpcode, hdata, hcontrol, Bool.or_eq_true, Bool.and_eq_true,
    decide_eq_true_eq]
  by_cases h1 : n ≤ 2
  · rw [if_pos h1, if_pos (Or.inl h1), decide_eq_false (by omega)]
  · rw [if_neg h1]
    by_cases h2 : 8 ≤ n ∧ n ≤ 10
    · rw [if_pos h2, if_pos (Or.inr h2), decide_eq_true h2.1]
    · rw [if_neg h2, if_neg (not_or.mpr ⟨h1, h2⟩)]

/-! ## The length field

Shifting and adding bytes is reading a number in network order. -/

/-- Appending a byte to a number, as the shifts of the decoder do. -/
lemma shift_or (x i : ℕ) (b : Byte) :
    x <<< (i + 8) ||| b.toNat <<< i = (256 * x + b.toNat) <<< i := by
  have hb : b.toNat < 2 ^ 8 := b.toNat_lt
  have h : x <<< 8 ||| b.toNat = 256 * x + b.toNat := by
    rw [← Nat.shiftLeft_add_eq_or_of_lt hb, Nat.shiftLeft_eq]
    omega
  rw [Nat.add_comm i 8, Nat.shiftLeft_add, ← Nat.shiftLeft_or_distrib, h]

lemma two_bytes (b0 b1 : Byte) : b0.toNat <<< 8 ||| b1.toNat = bigEndian [b0, b1] := by
  have h := shift_or b0.toNat 0 b1
  simpa [bigEndian] using h

lemma eight_bytes (b0 b1 b2 b3 b4 b5 b6 b7 : Byte) :
    b0.toNat <<< 56 ||| b1.toNat <<< 48 ||| b2.toNat <<< 40 ||| b3.toNat <<< 32
        ||| b4.toNat <<< 24 ||| b5.toNat <<< 16 ||| b6.toNat <<< 8 ||| b7.toNat
      = bigEndian [b0, b1, b2, b3, b4, b5, b6, b7] := by
  have h0 (x : ℕ) : x <<< 8 ||| b7.toNat = 256 * x + b7.toNat := by simpa using shift_or x 0 b7
  rw [shift_or _ 48, shift_or _ 40, shift_or _ 32, shift_or _ 24, shift_or _ 16, shift_or _ 8, h0]
  simp [bigEndian]

/-- The top bit of an eight-byte number is the top bit of its first byte. -/
lemma bigEndian_high (b0 b1 b2 b3 b4 b5 b6 b7 : Byte) :
    128 ≤ b0.toNat ↔ 2 ^ 63 ≤ bigEndian [b0, b1, b2, b3, b4, b5, b6, b7] := by
  have h (b : Byte) : b.toNat < 256 := b.toNat_lt
  have := h b1
  have := h b2
  have := h b3
  have := h b4
  have := h b5
  have := h b6
  have := h b7
  simp only [bigEndian, List.foldl_cons, List.foldl_nil]
  omega

/-! ## The stages of the decoder

Each stage has its bytes, or asks for those that are missing. -/

/-- How many bytes of length `_frame_decode` reads after the first two. -/
def fieldSize (f : CwsFrame) : ℕ :=
  if f.payloadLen = 126 then 2 else if f.payloadLen = 127 then 8 else 0

/-- The length it takes from these bytes, or the code it refuses them with. -/
def fieldLength (f : CwsFrame) (e : List Byte) : Except ℤ ℕ :=
  if f.payloadLen = 126 then
    if bigEndian e < 126 then .error (-3) else .ok (bigEndian e)
  else if f.payloadLen = 127 then
    if 2 ^ 63 ≤ bigEndian e then .error (-4)
    else if bigEndian e ≤ 0xffff then .error (-5)
    else .ok (bigEndian e)
  else .ok f.payloadLen

/-- A length field is eight bytes at most. -/
lemma fieldSize_le (f : CwsFrame) : fieldSize f ≤ 8 := by
  rw [fieldSize]
  split_ifs <;> decide

/-- The codes for a length that is refused are negative. -/
lemma fieldLength_error {f : CwsFrame} {e : List Byte} {x : ℤ} (h : fieldLength f e = .error x) :
    x < 0 := by
  rw [fieldLength] at h
  split_ifs at h <;> cases h <;> decide

/-- Bytes that are too few for a field, or begin with it. -/
lemma short_or_split {α : Type*} (n : ℕ) (buf : List α) :
    buf.length < n ∨ ∃ e r, buf = e ++ r ∧ e.length = n := by
  rcases Nat.lt_or_ge buf.length n with h | h
  · exact .inl h
  · exact .inr ⟨buf.take n, buf.drop n, (List.take_append_drop n buf).symm,
      List.length_take_of_le h⟩

/-- A length field that is not all there: the missing bytes are asked for. -/
lemma decodePayloadLen_short {f : CwsFrame} {buf : List Byte} (h : buf.length < fieldSize f) :
    decodePayloadLen f buf = .needs (fieldSize f - buf.length) := by
  rw [fieldSize] at h ⊢
  split_ifs at h ⊢ with h126 h127
  · rcases buf with _ | ⟨b0, _ | ⟨b1, buf⟩⟩
    iterate 2
      · simp only [decodePayloadLen, if_pos h126]
    · simp only [List.length_cons] at h
      omega
  · rcases buf with
      _ | ⟨b0, _ | ⟨b1, _ | ⟨b2, _ | ⟨b3, _ | ⟨b4, _ | ⟨b5, _ | ⟨b6, _ | ⟨b7, buf⟩⟩⟩⟩⟩⟩⟩⟩
    iterate 8
      · simp only [decodePayloadLen, if_neg h126, if_pos h127]
    · simp only [List.length_cons] at h
      omega
  · exact absurd h (Nat.not_lt_zero _)

/-- **The length field** is read, and the masking key is what follows. -/
lemma decodePayloadLen_append {f : CwsFrame} {e : List Byte} (he : e.length = fieldSize f)
    (r : List Byte) :
    decodePayloadLen f (e ++ r) =
      match fieldLength f e with
      | .error x => .error x
      | .ok n => decodeMaskingKey { f with payloadLen := n } (2 + fieldSize f) r := by
  by_cases h126 : f.payloadLen = 126
  · have hsize : fieldSize f = 2 := if_pos h126
    rw [hsize] at he ⊢
    obtain ⟨b0, b1, rfl⟩ := List.length_eq_two.mp he
    simp only [List.cons_append, List.nil_append, decodePayloadLen, fieldLength, if_pos h126,
      two_bytes]
    split_ifs <;> rfl
  by_cases h127 : f.payloadLen = 127
  · have hsize : fieldSize f = 8 := by rw [fieldSize, if_neg h126, if_pos h127]
    rw [hsize] at he ⊢
    rcases e with
      _ | ⟨b0, _ | ⟨b1, _ | ⟨b2, _ | ⟨b3, _ | ⟨b4, _ | ⟨b5, _ | ⟨b6, _ | ⟨b7, _ | ⟨b8, e⟩⟩⟩⟩⟩⟩⟩⟩⟩
    iterate 8
      · simp at he
    · have hhigh := bigEndian_high b0 b1 b2 b3 b4 b5 b6 b7
      simp only [List.cons_append, List.nil_append, decodePayloadLen, fieldLength, if_neg h126,
        if_pos h127, high_iff, hhigh]
      by_cases htop : 2 ^ 63 ≤ bigEndian [b0, b1, b2, b3, b4, b5, b6, b7]
      · rw [if_pos htop, if_pos htop]
      · have hlow : b0.toNat < 128 := not_le.mp (mt hhigh.mp htop)
        rw [if_neg htop, if_neg htop, low_seven, Nat.mod_eq_of_lt hlow, eight_bytes]
        split_ifs <;> rfl
    · simp at he
  · have hsize : fieldSize f = 0 := by rw [fieldSize, if_neg h126, if_neg h127]
    rw [hsize] at he ⊢
    obtain rfl := List.length_eq_zero_iff.mp he
    rw [List.nil_append, decodePayloadLen.eq_def, fieldLength, if_neg h126, if_neg h127, if_neg h126,
      if_neg h127]

section
variable {f : CwsFrame} {used : ℕ}

/-- Without a masking key the header ends here. -/
lemma decodeMaskingKey_unmasked (hm : ¬ f.mask = true) (buf : List Byte) :
    decodeMaskingKey f used buf = ⟨0, used, f⟩ := by
  rw [decodeMaskingKey.eq_def, if_neg hm]

/-- A masking key that is not all there: the missing bytes are asked for. -/
lemma decodeMaskingKey_short (hm : f.mask = true) {buf : List Byte} (h : buf.length < 4) :
    decodeMaskingKey f used buf = .needs (4 - buf.length) := by
  rcases buf with _ | ⟨k0, _ | ⟨k1, _ | ⟨k2, _ | ⟨k3, buf⟩⟩⟩⟩
  iterate 4
    · simp only [decodeMaskingKey, if_pos hm]
  · simp only [List.length_cons] at h
    omega

/-- **The masking key** is read. -/
lemma decodeMaskingKey_append (hm : f.mask = true) (key : MaskingKey) (r : List Byte) :
    decodeMaskingKey f used (key.toList ++ r) = ⟨0, used + 4, { f with maskingKey := key }⟩ := by
  simp only [MaskingKey.toList, List.cons_append, List.nil_append, decodeMaskingKey, if_pos hm]

/-- Four bytes are a masking key. -/
lemma exists_maskingKey {e : List Byte} (he : e.length = 4) : ∃ key : MaskingKey, e = key.toList := by
  rcases e with _ | ⟨k0, _ | ⟨k1, _ | ⟨k2, _ | ⟨k3, _ | ⟨k4, e⟩⟩⟩⟩⟩
  iterate 4
    · simp at he
  · exact ⟨⟨k0, k1, k2, k3⟩, rfl⟩
  · simp at he

end

/-! ## The reference, stage by stage

The same stages for the header parser of the reference. -/

/-- The number of bytes of the masking key. -/
def keyLength (b1 : Byte) : ℕ := if 128 ≤ b1.toNat then 4 else 0

/-- The first two bytes are acceptable. -/
def GoodStart (b0 : Byte) : Prop := b0.toNat / 16 % 8 = 0 ∧ knownOpcode (b0.toNat % 16) = true

/-- Two bytes that are not acceptable are enough. -/
lemma parseHeader_bad {b0 : Byte} (h : ¬ GoodStart b0) (b1 : Byte) (r : List Byte) :
    parseHeader (b0 :: b1 :: r) = .malformed := by
  rw [parseHeader, if_pos]
  rw [GoodStart, not_and_or, Bool.not_eq_true] at h
  exact h

/-- A header without its whole length field. -/
lemma parseHeader_short {b0 b1 : Byte} {r : List Byte} (h : GoodStart b0)
    (hr : r.length < extendedLength b1) : parseHeader (b0 :: b1 :: r) = .incomplete := by
  rw [parseHeader, if_neg (by simp [h.1, h.2]), if_pos hr]

/-- The length a header gives, when its extended length field is `e`. -/
def lengthOf (b1 : Byte) (e : List Byte) : ℕ :=
  if extendedLength b1 = 0 then b1.toNat % 128 else bigEndian e

/-- A header with its whole length field. -/
lemma parseHeader_length {b0 b1 : Byte} {e r : List Byte} (h : GoodStart b0)
    (he : e.length = extendedLength b1) :
    parseHeader (b0 :: b1 :: (e ++ r)) =
      if minimalLength e.length (lengthOf b1 e) = false then .malformed
      else if r.length < keyLength b1 then .incomplete
      else .complete ⟨128 ≤ b0.toNat, b0.toNat % 16, 128 ≤ b1.toNat, lengthOf b1 e⟩
        (r.drop (keyLength b1)) := by
  have hlong : ¬ (e ++ r).length < extendedLength b1 := by rw [List.length_append, he]; omega
  have hshort : (e ++ r).length < extendedLength b1 + keyLength b1 ↔ r.length < keyLength b1 := by
    rw [List.length_append, he]; omega
  have hdrop : (e ++ r).drop (extendedLength b1 + keyLength b1) = r.drop (keyLength b1) := by
    rw [← List.drop_drop, List.drop_left' he]
  simp only [parseHeader, List.take_left' he, decide_eq_true_eq]
  rw [if_neg (by simp [h.1, h.2]), if_neg hlong]
  simp only [lengthOf, he]
  simp only [keyLength] at hshort hdrop ⊢
  simp only [hshort, hdrop]
  rfl

/-- How long a complete header is. -/
lemma parseHeader_complete_length {b0 b1 : Byte} {r rest : List Byte} {h : Header}
    (hp : parseHeader (b0 :: b1 :: r) = .complete h rest) :
    r.length = extendedLength b1 + keyLength b1 + rest.length := by
  simp only [parseHeader] at hp
  split_ifs at hp with h1 h2 h3 h4 h5
  all_goals
    injection hp with _ hrest
    rw [← hrest, List.length_drop]
    simp only [decide_eq_true_eq] at *
    simp only [keyLength]
    first
    | rw [if_pos ‹128 ≤ b1.toNat›]; omega
    | rw [if_neg ‹¬ 128 ≤ b1.toNat›]; omega

/-- A complete header takes two bytes at least. -/
lemma parseHeader_two {b rest : List Byte} {h : Header} (hp : parseHeader b = .complete h rest) :
    2 + rest.length ≤ b.length := by
  rcases b with _ | ⟨b0, _ | ⟨b1, r⟩⟩
  · simp [parseHeader] at hp
  · simp [parseHeader] at hp
  · have := parseHeader_complete_length hp
    simp only [List.length_cons]
    omega

/-! ## What each answer means

From the last stage to the first. -/

/-- **The answers of `frame_decode` for the bytes `b`**, in terms of what the reference reads in any
stream that begins with `b`. -/
inductive HeaderOutcome (b : List Byte) : Decoded → Prop where
  /-- The header is malformed whatever follows. -/
  | error {e : ℤ} (he : e < 0) (h : ∀ t, parseHeader (b ++ t) = .malformed) :
      HeaderOutcome b (.error e)
  /-- The header is not complete, and no header that begins so is complete before `k` more bytes. -/
  | needs {k : ℕ} (hk : 0 < k) (h : parseHeader b = .incomplete)
      (hmore : ∀ t h rest, parseHeader (b ++ t) = .complete h rest →
        b.length + k + rest.length ≤ (b ++ t).length) :
      HeaderOutcome b (.needs k)
  /-- The header is complete with the first `d` bytes. -/
  | complete {d : ℕ} {f : CwsFrame} (hd : 0 < d) (hlen : d ≤ b.length)
      (hcontrol : f.isControl = f.toHeader.isControl)
      (h : ∀ t, parseHeader (b ++ t) = .complete f.toHeader (b.drop d ++ t)) :
      HeaderOutcome b ⟨0, d, f⟩

/-- The last stage, the masking key, once the length field `e` has been read. -/
lemma outcome_maskingKey {b0 b1 : Byte} {e r : List Byte} {f : CwsFrame} (hgood : GoodStart b0)
    (he : e.length = extendedLength b1) (hmin : minimalLength e.length (lengthOf b1 e) = true)
    (hf : f.toHeader = ⟨128 ≤ b0.toNat, b0.toNat % 16, 128 ≤ b1.toNat, lengthOf b1 e⟩)
    (hcontrol : f.isControl = f.toHeader.isControl) :
    HeaderOutcome (b0 :: b1 :: (e ++ r)) (decodeMaskingKey f (2 + e.length) r) := by
  have hmask : f.mask = decide (128 ≤ b1.toNat) := congrArg Header.masked hf
  have hparse (t : List Byte) := parseHeader_length (r := r ++ t) hgood he
  simp only [hmin, Bool.true_eq_false, if_false, ← hf] at hparse
  have hdone (hr : keyLength b1 ≤ r.length) (f' : CwsFrame) (hf' : f'.toHeader = f.toHeader)
      (hc' : f'.isControl = f.isControl) :
      HeaderOutcome (b0 :: b1 :: (e ++ r)) ⟨0, (2 + e.length + keyLength b1 : ℕ), f'⟩ := by
    refine .complete (by omega) (by simp; omega) (by rw [hc', hf', hcontrol]) fun t => ?_
    rw [List.cons_append, List.cons_append, List.append_assoc, hparse, hf',
      if_neg (by rw [List.length_append]; omega), List.drop_append_of_le_length hr]
    have hsplit : 2 + e.length + keyLength b1 = (e.length + keyLength b1) + 1 + 1 := by omega
    rw [hsplit, List.drop_succ_cons, List.drop_succ_cons, ← List.drop_drop, List.drop_left]
  have hwait (hr : r.length < keyLength b1) :
      HeaderOutcome (b0 :: b1 :: (e ++ r)) (.needs (keyLength b1 - r.length)) := by
    refine .needs (by omega) ?_ fun t h rest hp => ?_
    · have := hparse []
      rwa [List.append_nil, if_pos hr] at this
    · rw [List.cons_append, List.cons_append] at hp
      have := parseHeader_complete_length hp
      simp only [List.length_cons, List.length_append] at this ⊢
      omega
  by_cases hm : 128 ≤ b1.toNat
  · have hkey : keyLength b1 = 4 := if_pos hm
    have hm' : f.mask = true := by rw [hmask]; simpa using hm
    rw [hkey] at hdone hwait
    rcases short_or_split 4 r with hr | ⟨k, r', rfl, hk⟩
    · rw [decodeMaskingKey_short hm' hr]
      exact hwait hr
    · obtain ⟨key, rfl⟩ := exists_maskingKey hk
      rw [decodeMaskingKey_append hm']
      exact hdone (by rw [List.length_append]; omega) _ rfl rfl
  · have hkey : keyLength b1 = 0 := if_neg hm
    have hm' : ¬ f.mask = true := by rw [hmask]; simpa using hm
    rw [hkey] at hdone
    rw [decodeMaskingKey_unmasked hm']
    exact hdone (Nat.zero_le _) f rfl rfl

/-- What the first two bytes say of a frame. -/
structure FirstTwo (b0 b1 : Byte) (f : CwsFrame) : Prop where
  good : GoodStart b0
  fin : f.fin = decide (128 ≤ b0.toNat)
  opcode : f.opcode = b0.toNat % 16
  mask : f.mask = decide (128 ≤ b1.toNat)
  len : f.payloadLen = b1.toNat % 128
  isControl : f.isControl = decide (8 ≤ f.opcode)

/-- Both decoders have the same length field. -/
lemma FirstTwo.extendedLength {b0 b1 : Byte} {f : CwsFrame} (h : FirstTwo b0 b1 f) :
    extendedLength b1 = fieldSize f := by
  rw [WebSocket.extendedLength, fieldSize, h.len]

/-- The decoder refuses the lengths that the reference does. -/
lemma FirstTwo.fieldLength {b0 b1 : Byte} {f : CwsFrame} (h : FirstTwo b0 b1 f) {e : List Byte}
    (he : e.length = fieldSize f) :
    (minimalLength e.length (lengthOf b1 e) = true ∧ fieldLength f e = .ok (lengthOf b1 e)) ∨
      minimalLength e.length (lengthOf b1 e) = false ∧ ∃ x, fieldLength f e = .error x := by
  have hlen : lengthOf b1 e = if fieldSize f = 0 then f.payloadLen else bigEndian e := by
    rw [lengthOf, h.extendedLength, h.len]
  by_cases h126 : f.payloadLen = 126
  · have hsize : fieldSize f = 2 := if_pos h126
    rw [hlen, he, hsize, if_neg two_ne_zero, minimalLength, if_pos rfl, CurlWs.fieldLength,
      if_pos h126]
    by_cases hmin : bigEndian e < 126
    · rw [if_pos hmin]
      exact .inr ⟨decide_eq_false (not_le.mpr hmin), _, rfl⟩
    · rw [if_neg hmin]
      exact .inl ⟨decide_eq_true (not_lt.mp hmin), rfl⟩
  by_cases h127 : f.payloadLen = 127
  · have hsize : fieldSize f = 8 := by rw [fieldSize, if_neg h126, if_pos h127]
    have hminimal (n : ℕ) : minimalLength 8 n = (decide (65536 ≤ n) && decide (n < 2 ^ 63)) := rfl
    rw [hlen, he, hsize, if_neg (by decide), hminimal, CurlWs.fieldLength, if_neg h126, if_pos h127]
    split_ifs with htop hmin
    · exact .inr ⟨by simp only [not_lt.mpr htop, decide_false, Bool.and_false], _, rfl⟩
    · exact .inr ⟨by simp only [not_le.mpr (Nat.lt_succ_of_le hmin), decide_false, Bool.false_and],
        _, rfl⟩
    · have hlow : 65536 ≤ bigEndian e := not_le.mp hmin
      exact .inl ⟨by simp only [hlow, not_le.mp htop, decide_true, Bool.and_true], rfl⟩
  · have hsize : fieldSize f = 0 := by rw [fieldSize, if_neg h126, if_neg h127]
    rw [hlen, he, hsize, if_pos rfl, CurlWs.fieldLength, if_neg h126, if_neg h127]
    exact .inl ⟨rfl, rfl⟩

/-- The middle stage, the extended length field. -/
lemma outcome_payloadLen {b0 b1 : Byte} {r : List Byte} {f : CwsFrame} (h : FirstTwo b0 b1 f) :
    HeaderOutcome (b0 :: b1 :: r) (decodePayloadLen f r) := by
  rcases short_or_split (fieldSize f) r with hr | ⟨e, r, rfl, he⟩
  · rw [decodePayloadLen_short hr, ← h.extendedLength]
    rw [← h.extendedLength] at hr
    refine .needs (by omega) (parseHeader_short h.good hr) fun t h' rest hp => ?_
    rw [List.cons_append, List.cons_append] at hp
    have := parseHeader_complete_length hp
    simp only [List.length_cons, List.length_append] at this ⊢
    omega
  · have hext : e.length = extendedLength b1 := he.trans h.extendedLength.symm
    rw [decodePayloadLen_append he]
    rcases h.fieldLength he with ⟨hmin, hlen⟩ | ⟨hmin, x, hlen⟩
    · rw [hlen, ← he]
      refine outcome_maskingKey h.good hext hmin ?_ ?_
      · rw [CwsFrame.toHeader, h.fin, h.opcode, h.mask]
      · rw [h.isControl]
        rfl
    · rw [hlen]
      refine .error (fieldLength_error hlen) fun t => ?_
      rw [List.cons_append, List.cons_append, List.append_assoc, parseHeader_length h.good hext,
        if_pos hmin]

/-- **What the decoder's answers mean.** -/
theorem frameDecode_outcome (b : List Byte) : HeaderOutcome b (frameDecode b) := by
  have hstart {k : ℕ} (hb : b.length + k = 2) (hk : 0 < k) (hp : parseHeader b = .incomplete) :
      HeaderOutcome b (.needs k) := by
    refine .needs hk hp fun t h rest hp => ?_
    have := parseHeader_two hp
    omega
  rcases b with _ | ⟨b0, _ | ⟨b1, r⟩⟩
  · exact hstart rfl (by simp) rfl
  · exact hstart rfl (by simp) rfl
  · rw [frameDecode]
    by_cases hrsv : 0x70 &&& b0 ≠ 0
    · rw [if_pos hrsv]
      exact .error (by omega) fun t => parseHeader_bad (fun h => (rsv_iff b0).mp hrsv h.1) b1 _
    · rw [if_neg hrsv]
      simp only [controlOpcode_eq, low_four]
      by_cases hknown : knownOpcode (b0.toNat % 16) = true
      · rw [if_pos hknown]
        have hgood : GoodStart b0 := ⟨by have := rsv_iff b0; tauto, hknown⟩
        exact outcome_payloadLen
          ⟨hgood, by simp [high_iff], rfl, by simp [high_iff], low_seven b1, rfl⟩
      · rw [if_neg hknown]
        exact .error (by omega) fun t => parseHeader_bad (fun h => hknown h.2) b1 _

/-- What asking for more says of the stream. -/
lemma HeaderOutcome.of_needs {b : List Byte} {k : ℕ} (h : HeaderOutcome b (.needs k)) (hk : 0 < k) :
    parseHeader b = .incomplete ∧ ∀ t h rest, parseHeader (b ++ t) = .complete h rest →
      b.length + k + rest.length ≤ (b ++ t).length := by
  generalize hd : Decoded.needs k = d at h
  cases h with
  | error he _ =>
      have := congrArg Decoded.rv hd
      simp only [Decoded.needs, Decoded.error] at this
      omega
  | needs hk' hp hmore =>
      have := congrArg Decoded.delta hd
      simp only [Decoded.needs, neg_inj, Nat.cast_inj] at this
      subst this
      exact ⟨hp, hmore⟩
  | complete hd' _ _ _ =>
      have := congrArg Decoded.delta hd
      simp only [Decoded.needs] at this
      omega

/-- Reading no more than the number of bytes asked for never goes past the end of the header, and
reaches it only with that number. -/
theorem frameDecode_needs {b x : List Byte} {k d : ℕ} {f : CwsFrame}
    (hneeds : frameDecode b = .needs k) (hk : 0 < k) (hx : x.length ≤ k) (hd : d ≤ (b ++ x).length)
    (hdone : ∀ t, parseHeader (b ++ x ++ t) = .complete f.toHeader ((b ++ x).drop d ++ t)) :
    d = (b ++ x).length ∧ x.length = k := by
  have hb := frameDecode_outcome b
  rw [hneeds] at hb
  have hlong := (hb.of_needs hk).2 x f.toHeader ((b ++ x).drop d) (by simpa using hdone [])
  rw [List.length_drop, List.length_append] at hlong
  rw [List.length_append] at hd ⊢
  constructor <;> omega

end CurlWs
