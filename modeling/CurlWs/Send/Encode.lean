import CurlWs.Send.Micro

/-!
# Encoding

`frame_encode` writes the whole of a frame or returns zero, and zero is what it returns exactly when
the buffer is too small.

**The two answers.**  A whole frame is `encoding`, the header with its key and then the masked
payload, of `encodedLen` bytes.  The code checks the room twice, for the header and for the payload;
as long as no sum of sizes wraps, both checks together are the one that the frame fits.  What
happens where they wrap is the subject of `EncodeSafety`.

**Queued frames.**  `send_frame` takes a buffer for a control frame or for a data frame, of the size
that goes with it, and stores what `frame_encode` returns as the length to be sent.  A frame that
does not fit is queued with the length zero.

## Main results

* **`frameEncode_of_le`**, **`frameEncode_of_lt`** — the two answers.
* **`encodedBuf_of_fits`**, **`encodedBuf_of_not_fits`** — what that means for a queued frame.
-/

namespace CurlWs

/-- The bytes of a whole frame. -/
def encoding (f : CwsFrame) : List Byte :=
  headerBytes f ++ f.maskingKey.toList ++ maskedPayload f

/-- The number of bytes of a whole frame. -/
def encodedLen (f : CwsFrame) : ℕ := headerLen f + f.payloadLen

lemma length_header (f : CwsFrame) :
    (headerBytes f ++ f.maskingKey.toList).length = headerLen f := by
  simp only [headerBytes, headerLen, MaskingKey.toList]
  split_ifs <;> rfl

lemma length_maskedPayload (f : CwsFrame) : (maskedPayload f).length = f.payloadLen := by
  rw [maskedPayload, List.length_map, List.length_range]

/-- The encoding is as long as it should be. -/
lemma length_encoding (f : CwsFrame) : (encoding f).length = encodedLen f := by
  rw [encoding, List.length_append, length_header, length_maskedPayload, encodedLen]

/-- A masked header is six bytes at least and fourteen at most. -/
lemma headerLen_bounds (f : CwsFrame) : 6 ≤ headerLen f ∧ headerLen f ≤ 14 := by
  rw [headerLen]
  split_ifs <;> omega

lemma encodedLen_pos (f : CwsFrame) : 0 < encodedLen f := by
  have := headerLen_bounds f
  rw [encodedLen]
  omega

/-- The frame fits. -/
theorem frameEncode_of_le {f : CwsFrame} {len : ℕ} (hlen : len < sizeModulus)
    (h : encodedLen f ≤ len) : frameEncode f len = (encodedLen f, encoding f) := by
  have hhead := headerLen_bounds f
  rw [encodedLen] at h
  have hmin : sizeAdd (wsFrameHeaderMin + wsFrameHeaderMask) f.payloadLen = 6 + f.payloadLen :=
    sizeAdd_of_lt (by simp only [wsFrameHeaderMin, wsFrameHeaderMask]; omega)
  have hall : sizeAdd (headerLen f) f.payloadLen = headerLen f + f.payloadLen :=
    sizeAdd_of_lt (by omega)
  rw [frameEncode, hmin, hall, if_neg (by omega), if_neg (by omega)]
  rfl

/-- The frame does not fit. -/
theorem frameEncode_of_lt {f : CwsFrame} {len : ℕ} (hf : encodedLen f < sizeModulus)
    (h : len < encodedLen f) : (frameEncode f len).1 = 0 := by
  have hall : sizeAdd (headerLen f) f.payloadLen = encodedLen f := sizeAdd_of_lt hf
  rw [frameEncode, hall, if_pos h]
  split_ifs <;> rfl

/-! ## The buffer of a queued frame

The sizes are those of the two pools, if they do not overflow. -/

/-- The size of a data buffer does not overflow. -/
def Cfg.Sizable (cfg : Cfg) : Prop := cfg.maxPayloadSize + wsFrameHeaderMax < sizeModulus

instance (cfg : Cfg) : Decidable cfg.Sizable := inferInstanceAs (Decidable (_ < _))

/-- The frame fits the buffer `send_frame` takes for it. -/
def Fits (cfg : Cfg) (f : CwsFrame) : Prop :=
  encodedLen f ≤ if f.isControl then wsCtlFrameMax else cfg.maxPayloadSize + wsFrameHeaderMax

instance (cfg : Cfg) (f : CwsFrame) : Decidable (Fits cfg f) := inferInstanceAs (Decidable (_ ≤ _))

variable {cfg : Cfg} (hcfg : cfg.Sizable)

include hcfg

lemma bufferSize_eq (f : CwsFrame) :
    bufferSize cfg f =
      if f.isControl then wsCtlFrameMax else cfg.maxPayloadSize + wsFrameHeaderMax := by
  rw [bufferSize, sizeAdd_of_lt hcfg]

lemma bufferSize_lt (f : CwsFrame) : bufferSize cfg f < sizeModulus := by
  rw [bufferSize_eq hcfg]
  split_ifs
  · decide
  · exact hcfg

/-- The buffer of a frame that fits holds the whole frame. -/
theorem encodedBuf_of_fits {f : CwsFrame} (hf : Fits cfg f) :
    (encodedBuf cfg f).written = encodedLen f ∧ (encodedBuf cfg f).buffer = encoding f := by
  have h := frameEncode_of_le (bufferSize_lt hcfg f) (by rw [bufferSize_eq hcfg]; exact hf)
  simp only [encodedBuf, h, and_self]

/-- The buffer of a frame that does not fit holds nothing that is ever sent. -/
theorem encodedBuf_of_not_fits {f : CwsFrame} (hlen : encodedLen f < sizeModulus)
    (hf : ¬ Fits cfg f) : (encodedBuf cfg f).written = 0 := by
  refine frameEncode_of_lt hlen ?_
  rw [bufferSize_eq hcfg]
  exact not_le.mp hf

end CurlWs
