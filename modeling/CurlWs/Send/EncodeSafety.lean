import CurlWs.Send.Encode

/-!
# Where the encoder writes

`frame_encode` checks the size of its buffer twice, before it writes the header and before it writes
the payload.  Both checks add the length of the payload to the length of a header, and near the
largest `size_t` the sums wrap.

**What is expected.**  `EncodesSafely` is the promise of the function: zero or the length of the
whole frame is returned, and nothing is written behind the end of the buffer.  The model has the
bytes that are written as a list, so an index is written if it is below the length of the list.

**Where nothing wraps.**  The first check refuses a buffer without room for the shortest header, and
the second one without room for the header that the payload has; so what is written fits
(`encodesSafely_of_lt`).

**Where a sum wraps.**  The payload is then almost as long as the largest `size_t`, and no buffer
holds it; the encoder is safe only if it refuses.  The first check does so before anything is
written, the second after the ten bytes of the extended header (`encodesSafely_iff_of_le`).

* **`encodesSafely_iff`** — for which lengths the encoder stays within its buffer and returns the
  right number.
-/

namespace CurlWs

/-- What is expected of `frame_encode`: it returns zero, or the number of bytes of the whole frame,
which fit; and it writes below `len` only.  It writes from the start of the buffer on, so the
indices it writes are those below the number of bytes written. -/
def EncodesSafely (f : CwsFrame) (len : ℕ) : Prop :=
  ((frameEncode f len).1 = 0 ∨ (frameEncode f len).1 = encodedLen f ∧ encodedLen f ≤ len) ∧
    ∀ i < (frameEncode f len).2.length, i < len

lemma length_headerBytes (f : CwsFrame) : (headerBytes f).length + 4 = headerLen f := by
  rw [← length_header, List.length_append]
  rfl

/-- The longer headers are those of the longer payloads. -/
lemma headerLen_le (f : CwsFrame) : headerLen f ≤ 6 + f.payloadLen := by
  rw [headerLen]
  split_ifs <;> omega

/-- A long payload has the longest header. -/
lemma headerLen_large {f : CwsFrame} (h : 0xffff < f.payloadLen) : headerLen f = 14 := by
  rw [headerLen, if_neg (by omega), if_neg (by omega)]

/-- Where nothing wraps, the two checks do what they are there for. -/
lemma encodesSafely_of_lt {f : CwsFrame} (h : f.payloadLen + wsFrameHeaderMax < sizeModulus)
    (len : ℕ) : EncodesSafely f len := by
  have hmax : f.payloadLen + 14 < sizeModulus := h
  have hhead := headerLen_bounds f
  have hbytes := length_headerBytes f
  have hle := headerLen_le f
  have hmin : sizeAdd (wsFrameHeaderMin + wsFrameHeaderMask) f.payloadLen = 6 + f.payloadLen :=
    sizeAdd_of_lt (by simp only [wsFrameHeaderMin, wsFrameHeaderMask]; omega)
  have hall : sizeAdd (headerLen f) f.payloadLen = encodedLen f := sizeAdd_of_lt (by omega)
  rw [EncodesSafely, forall_lt_iff_le, frameEncode, hmin, hall]
  by_cases hfirst : len < 6 + f.payloadLen
  · rw [if_pos hfirst]
    exact ⟨.inl rfl, Nat.zero_le len⟩
  · rw [if_neg hfirst]
    by_cases hsecond : len < encodedLen f
    · rw [if_pos hsecond]
      exact ⟨.inl rfl, by simp only; omega⟩
    · rw [if_neg hsecond]
      refine ⟨.inr ⟨rfl, not_lt.mp hsecond⟩, ?_⟩
      exact (length_encoding f).trans_le (not_lt.mp hsecond)

/-- Where the sum with the longest header wraps, the encoder does no harm only if one of the checks
refuses all the same, and the second check comes after ten bytes. -/
lemma encodesSafely_iff_of_le {f : CwsFrame} {len : ℕ} (hlen : len < sizeModulus)
    (h : sizeModulus ≤ f.payloadLen + wsFrameHeaderMax) :
    EncodesSafely f len ↔ len < (f.payloadLen + 6) % sizeModulus ∨
      10 ≤ len ∧ len < (f.payloadLen + wsFrameHeaderMax) % sizeModulus := by
  have hmax : sizeModulus ≤ f.payloadLen + 14 := h
  have hlarge : headerLen f = 14 := headerLen_large (by rw [sizeModulus] at hmax; omega)
  have hbytes := length_headerBytes f
  have hmin : sizeAdd (wsFrameHeaderMin + wsFrameHeaderMask) f.payloadLen
      = (f.payloadLen + 6) % sizeModulus := by
    rw [sizeAdd, Nat.add_comm]
    rfl
  have hall : sizeAdd (headerLen f) f.payloadLen
      = (f.payloadLen + wsFrameHeaderMax) % sizeModulus := by
    rw [sizeAdd, hlarge, Nat.add_comm]
    rfl
  have hwhole : len < encodedLen f := by
    rw [encodedLen, hlarge]
    omega
  rw [EncodesSafely, forall_lt_iff_le, frameEncode, hmin, hall]
  by_cases hfirst : len < (f.payloadLen + 6) % sizeModulus
  · rw [if_pos hfirst]
    exact ⟨fun _ => .inl hfirst, fun _ => ⟨.inl rfl, Nat.zero_le len⟩⟩
  · rw [if_neg hfirst]
    by_cases hsecond : len < (f.payloadLen + wsFrameHeaderMax) % sizeModulus
    · rw [if_pos hsecond]
      constructor
      · intro hsafe
        have hten : (headerBytes f).length ≤ len := hsafe.2
        exact .inr ⟨by omega, hsecond⟩
      · rintro (hlt | ⟨hten, -⟩)
        · exact absurd hlt hfirst
        · exact ⟨.inl rfl, by simp only; omega⟩
    · rw [if_neg hsecond]
      constructor
      · intro hsafe
        exact absurd ((length_encoding f).symm.trans_le hsafe.2) (by omega)
      · rintro (hlt | ⟨-, hlt⟩)
        · exact absurd hlt hfirst
        · exact absurd hlt hsecond

/-- **The encoder is safe** exactly where the sum of the payload and the longest header does not
wrap, or one of the two checks refuses the wrapped sum: the first before anything is written, the
second when the ten bytes it comes after are in the buffer. -/
theorem encodesSafely_iff (f : CwsFrame) (len : ℕ) (hlen : len < sizeModulus) :
    EncodesSafely f len ↔ f.payloadLen + wsFrameHeaderMax < sizeModulus ∨
      len < (f.payloadLen + 6) % sizeModulus ∨
      10 ≤ len ∧ len < (f.payloadLen + wsFrameHeaderMax) % sizeModulus := by
  by_cases h : f.payloadLen + wsFrameHeaderMax < sizeModulus
  · exact iff_of_true (encodesSafely_of_lt h len) (.inl h)
  · rw [encodesSafely_iff_of_le hlen (not_lt.mp h), or_iff_right h]

/-- A payload of three bytes less than there are sizes: the second check refuses it, ten bytes into
a buffer of ten bytes. -/
theorem encodesSafely_iff_ten :
    EncodesSafely { payloadLen := sizeModulus - 3 } 10 ↔
      (sizeModulus - 3) + wsFrameHeaderMax < sizeModulus ∨
      10 < ((sizeModulus - 3) + 6) % sizeModulus ∨
      10 ≤ 10 ∧ 10 < ((sizeModulus - 3) + wsFrameHeaderMax) % sizeModulus :=
  encodesSafely_iff { payloadLen := sizeModulus - 3 } 10 (by decide)

/-- With the library's own buffer for data frames and a payload of six bytes less than there are
sizes, the first sum wraps to zero and the second to eight. -/
theorem encode_wraps :
    let f : CwsFrame := { fin := true, mask := true, opcode := 2, payloadLen := sizeModulus - 6 }
    f.payloadLen < sizeModulus ∧ (frameEncode f 1038).1 = 8 ∧ ¬ EncodesSafely f 1038 := by
  intro f
  have hrv : (frameEncode f 1038).1 = 8 := by
    rw [frameEncode, if_neg (by decide), if_neg (by decide)]
    show sizeAdd (headerLen f) f.payloadLen = 8
    decide
  refine ⟨by decide, hrv, ?_⟩
  rintro ⟨h | ⟨-, h⟩, -⟩
  · rw [hrv] at h
    exact absurd h (by decide)
  · exact absurd h (by decide)

end CurlWs
