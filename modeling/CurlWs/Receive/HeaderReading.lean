import CurlWs.Library.Incremental
import CurlWs.Receive.HeaderDecode

/-!
# Reading a header

`frame_decode` is called again and again with a header that grows, and asks for the number of bytes
it needs next.  Its comment says that it returns this number; that reading so never takes a byte of
the payload, and ends with the result for the whole stream, is the subject here.

**Exact decoders.**  It has three stages: the first two bytes, the extended length and the masking
key.  Each waits for its bytes and then goes on with a fixed number of them.  `Incremental` calls a
decoder exact if what it asks for is needed and its results do not change when more bytes follow;
stages that are exact give a whole that is (`Exact.stage`).

**Signs.**  A result of the source is an error code, a negative number of missing bytes or a
positive number of bytes used.  `Decoded.answer` sorts them, and `frameDecode_sign` has what is
known of each.

## Main results

* **`exact_frameDecode`** — the stages put together.
* **`frameDecode_incremental`** — what this says of the results of `frame_decode`, and of reading a
  header piece by piece.
-/

namespace CurlWs

open Incremental

/-- The results of `frame_decode` that ask for more, and the others. -/
def Decoded.answer (d : Decoded) : Answer Decoded :=
  if d.rv = 0 ∧ d.delta < 0 then .needs (-d.delta).toNat else .result d

/-- Read a header: two bytes at first, and then as many as `frame_decode` asks for.  Returned are
the bytes read, and what `frame_decode` makes of them. -/
def readHeader (stream : List Byte) : List Byte × Decoded :=
  let taken := read (fun b => (frameDecode b).answer) stream.length [] wsFrameHeaderMin stream
  (taken, frameDecode taken)

namespace Decoded

lemma answer_needs {n : ℕ} (hn : 0 < n) : (needs n).answer = .needs n := by
  have hneg : (-(needs n).delta).toNat = n := by
    simp only [needs]
    omega
  rw [answer, if_pos ⟨rfl, by simp only [needs]; omega⟩, hneg]

lemma answer_error {e : ℤ} (he : e ≠ 0) : (error e).answer = .result (error e) :=
  if_neg fun h => he h.1

lemma answer_complete (d : ℕ) (f : CwsFrame) : (⟨0, d, f⟩ : Decoded).answer = .result ⟨0, d, f⟩ :=
  if_neg fun h => absurd h.2 (not_lt.mpr (Int.natCast_nonneg d))

/-- More bytes are asked for. -/
lemma answer_eq_needs {d : Decoded} {k : ℕ} (h : d.answer = .needs k) :
    d.rv = 0 ∧ d.delta < 0 ∧ d.delta = -k := by
  rw [answer] at h
  split_ifs at h with hd
  cases h
  exact ⟨hd.1, hd.2, by omega⟩

/-- A negative number of bytes is a question for as many. -/
lemma answer_of_neg {d : Decoded} (hrv : d.rv = 0) (hd : d.delta < 0) :
    d.answer = .needs (-d.delta).toNat :=
  if_pos ⟨hrv, hd⟩

/-- The result is final. -/
lemma answer_of_done {d : Decoded} (h : d.rv ≠ 0 ∨ 0 < d.delta) : d.answer = .result d := by
  refine if_neg fun hd => ?_
  rcases h with h | h
  · exact h hd.1
  · exact absurd hd.2 (by omega)

/-- A final result is the one `frame_decode` returned. -/
lemma eq_of_answer {d d' : Decoded} (h : d.answer = .result d') : d = d' := by
  rw [answer] at h
  split_ifs at h
  cases h
  rfl

end Decoded

/-! ## The stages

The last stage first, as each is used by the one before. -/

/-- The masking key. -/
lemma exact_maskingKey (f : CwsFrame) (used : ℕ) :
    Exact fun b => (decodeMaskingKey f used b).answer := by
  by_cases hm : f.mask = true
  · refine Exact.stage (n := 4) (g := fun x b => (decodeMaskingKey f used (x ++ b)).answer) ?_
      (fun _ _ _ => rfl) ?_
    · intro b hb
      rw [decodeMaskingKey_short hm hb]
      exact Decoded.answer_needs (by omega)
    · intro x hx
      obtain ⟨key, rfl⟩ := exists_maskingKey hx
      have hall (b : List Byte) : (decodeMaskingKey f used (key.toList ++ b)).answer
          = .result ⟨0, used + 4, { f with maskingKey := key }⟩ := by
        rw [decodeMaskingKey_append hm]
        exact Decoded.answer_complete (used + 4) _
      simp only [hall]
      exact exact_result _
  · have hall (b : List Byte) : (decodeMaskingKey f used b).answer = .result ⟨0, used, f⟩ := by
      rw [decodeMaskingKey_unmasked hm]
      exact Decoded.answer_complete used f
    simp only [hall]
    exact exact_result _

/-- The extended length. -/
lemma exact_payloadLen (f : CwsFrame) : Exact fun b => (decodePayloadLen f b).answer := by
  refine Exact.stage (n := fieldSize f) (g := fun x b => (decodePayloadLen f (x ++ b)).answer) ?_
    (fun _ _ _ => rfl) ?_
  · intro b hb
    rw [decodePayloadLen_short hb]
    exact Decoded.answer_needs (by omega)
  · intro x hx
    simp only [decodePayloadLen_append hx]
    cases hlen : fieldLength f x with
    | error e =>
        simp only
        rw [Decoded.answer_error (fieldLength_error hlen).ne]
        exact exact_result _
    | ok n => exact exact_maskingKey ..

/-- **`frame_decode` is an exact decoder.** -/
theorem exact_frameDecode : Exact fun b => (frameDecode b).answer := by
  refine Exact.stage (n := 2) (g := fun x b => (frameDecode (x ++ b)).answer) ?_
    (fun _ _ _ => rfl) ?_
  · intro b hb
    rcases b with _ | ⟨b0, _ | ⟨b1, b⟩⟩
    iterate 2
      · exact Decoded.answer_needs (by simp)
    · simp only [List.length_cons] at hb
      omega
  · intro x hx
    obtain ⟨b0, b1, rfl⟩ := List.length_eq_two.mp hx
    simp only [List.cons_append, List.nil_append, frameDecode]
    by_cases hrsv : 0x70 &&& b0 ≠ 0
    · simp only [if_pos hrsv]
      rw [Decoded.answer_error (by decide)]
      exact exact_result _
    · simp only [if_neg hrsv]
      cases controlOpcode (0x0f &&& b0).toNat with
      | none =>
          simp only
          rw [Decoded.answer_error (by decide)]
          exact exact_result _
      | some isControl => exact exact_payloadLen _

/-! ## Complete headers

Bounds on the number of bytes, and what goes with its sign. -/

lemma delta_error (e : ℤ) : (Decoded.error e).delta = 0 := rfl

lemma delta_needs (n : ℕ) : (Decoded.needs n).delta ≤ 0 :=
  Int.neg_nonpos_of_nonneg (Int.natCast_nonneg n)

/-- The masking key adds four bytes at most. -/
lemma decodeMaskingKey_delta (f : CwsFrame) (used : ℕ) (b : List Byte) :
    (decodeMaskingKey f used b).delta ≤ used + 4 := by
  by_cases hm : f.mask = true
  · rcases short_or_split 4 b with hb | ⟨k, r, rfl, hk⟩
    · rw [decodeMaskingKey_short hm hb]
      exact (delta_needs _).trans (by omega)
    · obtain ⟨key, rfl⟩ := exists_maskingKey hk
      rw [decodeMaskingKey_append hm]
  · rw [decodeMaskingKey_unmasked hm]
    exact Int.le_add_of_nonneg_right (by decide)

/-- All in all, fourteen bytes at most are used. -/
lemma decodePayloadLen_delta (f : CwsFrame) (b : List Byte) : (decodePayloadLen f b).delta ≤ 14 := by
  rcases short_or_split (fieldSize f) b with hb | ⟨e, r, rfl, he⟩
  · rw [decodePayloadLen_short hb]
    exact (delta_needs _).trans (by decide)
  · rw [decodePayloadLen_append he]
    cases fieldLength f e with
    | error x => exact (delta_error x).trans_le (by decide)
    | ok n =>
        have hkey := decodeMaskingKey_delta { f with payloadLen := n } (2 + fieldSize f) r
        have hsize := fieldSize_le f
        simp only
        omega

/-- A header is fourteen bytes at most. -/
lemma frameDecode_delta (b : List Byte) : (frameDecode b).delta ≤ 14 := by
  rw [frameDecode.eq_def]
  split
  · simp only
    split_ifs
    · exact (delta_error _).trans_le (by decide)
    · split
      · exact (delta_error _).trans_le (by decide)
      · exact decodePayloadLen_delta _ _
  · exact (delta_needs _).trans (by decide)

/-- What is known of a result from its sign: it is never zero without an error, a complete header is
there in full, and the frame is only filled in for a complete header. -/
lemma frameDecode_sign (b : List Byte) :
    ((frameDecode b).rv = 0 → (frameDecode b).delta ≠ 0) ∧
      ((frameDecode b).rv = 0 → (frameDecode b).delta ≤ b.length) ∧
        (¬ ((frameDecode b).rv = 0 ∧ 0 < (frameDecode b).delta) → (frameDecode b).frame = {}) := by
  have hout := frameDecode_outcome b
  generalize frameDecode b = d at hout
  cases hout with
  | error he _ => exact ⟨fun h => absurd h he.ne, fun h => absurd h he.ne, fun _ => rfl⟩
  | needs hk _ _ =>
      refine ⟨fun _ => ?_, fun _ => ?_, fun _ => rfl⟩
      · simp only [Decoded.needs]
        omega
      · simp only [Decoded.needs]
        omega
  | complete hd hlen _ _ =>
      refine ⟨fun _ => ?_, fun _ => ?_, fun h => absurd ⟨rfl, ?_⟩ h⟩
      · simp only
        omega
      · simp only
        omega
      · simp only
        omega

/-- Bytes that do not make a header yet are fewer than the header has in the end. -/
lemma frameDecode_longer {b t : List Byte} (hrv : (frameDecode b).rv = 0)
    (hneg : (frameDecode b).delta < 0) (hrv' : (frameDecode (b ++ t)).rv = 0)
    (hpos : 0 < (frameDecode (b ++ t)).delta) : (b.length : ℤ) < (frameDecode (b ++ t)).delta := by
  have hb := frameDecode_outcome b
  generalize frameDecode b = d at hrv hneg hb
  have ht := frameDecode_outcome (b ++ t)
  generalize frameDecode (b ++ t) = d' at hrv' hpos ht ⊢
  cases hb with
  | error he _ => exact absurd hrv he.ne
  | complete hd _ _ _ => exact absurd hneg (by simp)
  | @needs k hk _ hmore =>
      cases ht with
      | error he _ => exact absurd hrv' he.ne
      | needs => exact absurd hpos (by simp [Decoded.needs])
      | @complete n f _ hlen _ hparse =>
          have hend := hparse []
          rw [List.append_nil, List.append_nil] at hend
          have := hmore t _ _ hend
          rw [List.length_drop] at this
          simp only
          omega

/-! ## Reading

A header is read by asking `frame_decode` how much to read next. -/

/-- **Reading a header** leads to the result for the whole stream, and stops as soon as there is a
result. -/
theorem readHeader_spec (b : List Byte) :
    (readHeader b).2 = frameDecode b ∧ (readHeader b).1 <+: b ∧
      ((frameDecode b).rv = 0 → 0 < (frameDecode b).delta →
        ((readHeader b).1.length : ℤ) = (frameDecode b).delta) ∧
      ∀ x, x <+: (readHeader b).1 → x ≠ (readHeader b).1 →
        (frameDecode x).rv = 0 ∧ (frameDecode x).delta < 0 := by
  have hspec := @read_spec _ _ _ exact_frameDecode b.length [] wsFrameHeaderMin b le_rfl rfl
    fun x hx hne => absurd (List.prefix_nil.mp hx) hne
  rw [readHeader]
  simp only
  generalize read (fun b => (frameDecode b).answer) b.length [] wsFrameHeaderMin b = taken at hspec ⊢
  obtain ⟨hpre, hall, hwaits⟩ := hspec
  have hwaits' (x : List Byte) (hx : x <+: taken) (hne : x ≠ taken) :
      (frameDecode x).rv = 0 ∧ (frameDecode x).delta < 0 := by
    obtain ⟨k, hk⟩ := hwaits x hx hne
    obtain ⟨hrv, hneg, -⟩ := Decoded.answer_eq_needs hk
    exact ⟨hrv, hneg⟩
  have hsame : (frameDecode taken).answer = (frameDecode b).answer :=
    exact_frameDecode.answer_eq hpre hall
  have heq : frameDecode taken = frameDecode b := by
    by_cases h : (frameDecode b).rv ≠ 0 ∨ 0 < (frameDecode b).delta
    · rw [Decoded.answer_of_done h] at hsame
      exact Decoded.eq_of_answer hsame
    · obtain ⟨hrv, hpos⟩ := not_or.mp h
      have hneg : (frameDecode b).delta < 0 :=
        lt_of_le_of_ne (not_lt.mp hpos) ((frameDecode_sign b).1 (not_not.mp hrv))
      have hwhole := hall _ (hsame.trans (Decoded.answer_of_neg (not_not.mp hrv) hneg))
      exact congrArg frameDecode hwhole
  refine ⟨heq, hpre, fun hrv hpos => ?_, hwaits'⟩
  -- a beginning as long as the header would have a result already
  rw [← heq] at hrv hpos ⊢
  have hlen := (frameDecode_sign taken).2.1 hrv
  by_contra hne
  have htake : (taken.take (frameDecode taken).delta.toNat).length
      = (frameDecode taken).delta.toNat := by
    rw [List.length_take]
    omega
  obtain ⟨hrv', hneg⟩ := hwaits' _ (List.take_prefix (frameDecode taken).delta.toNat taken)
    fun h => by
      rw [h] at htake
      omega
  have hlonger := @frameDecode_longer _ (taken.drop (frameDecode taken).delta.toNat) hrv' hneg
  rw [List.take_append_drop] at hlonger
  have := hlonger hrv hpos
  omega

/-- **`frame_decode` is an exact incremental parser of headers.**  What it asks for is needed, and
what it returns is final; so reading what it asks for stops at the end of the header. -/
theorem frameDecode_incremental (b : List Byte) :
    let d := frameDecode b
    (d.rv = 0 → d.delta ≠ 0) ∧
      (∀ k : ℕ, d.rv = 0 → d.delta < 0 → d.delta = -k → 1 ≤ k ∧ ∀ t : List Byte, t.length < k →
        (frameDecode (b ++ t)).rv = 0 ∧ (frameDecode (b ++ t)).delta = -((k - t.length : ℕ) : ℤ)) ∧
      (d.rv = 0 → 0 < d.delta → d.delta ≤ b.length ∧ d.delta ≤ 14 ∧
        ∀ t, frameDecode (b ++ t) = d) ∧
      (d.rv ≠ 0 → ∀ t, frameDecode (b ++ t) = d) ∧
      (¬ (d.rv = 0 ∧ 0 < d.delta) → d.frame = {}) ∧
      let r := readHeader b
      r.2 = d ∧ r.1 <+: b ∧ (d.rv = 0 → 0 < d.delta → (r.1.length : ℤ) = d.delta) ∧
        ∀ x, x <+: r.1 → x ≠ r.1 → (frameDecode x).rv = 0 ∧ (frameDecode x).delta < 0 := by
  intro d
  obtain ⟨hzero, hlen, hframe⟩ := frameDecode_sign b
  have hfinal (h : d.rv ≠ 0 ∨ 0 < d.delta) (t : List Byte) : frameDecode (b ++ t) = d :=
    Decoded.eq_of_answer (exact_frameDecode.final (Decoded.answer_of_done h) t)
  have hasked (k : ℕ) (hrv : d.rv = 0) (hneg : d.delta < 0) (hk : d.delta = -k) :
      1 ≤ k ∧ ∀ t : List Byte, t.length < k → (frameDecode (b ++ t)).rv = 0 ∧
        (frameDecode (b ++ t)).delta = -((k - t.length : ℕ) : ℤ) := by
    have hanswer : d.answer = .needs k := by
      rw [Decoded.answer_of_neg hrv hneg, hk]
      simp
    refine ⟨exact_frameDecode.pos hanswer, fun t ht => ?_⟩
    obtain ⟨hrv', -, hdelta⟩ := Decoded.answer_eq_needs (exact_frameDecode.again hanswer t ht)
    exact ⟨hrv', hdelta⟩
  exact ⟨hzero, hasked, fun hrv hpos => ⟨hlen hrv, frameDecode_delta b, hfinal (.inr hpos)⟩,
    fun hrv => hfinal (.inl hrv), hframe, readHeader_spec b⟩

/-- A length of two bytes: both are asked for and then the second, and with them the header ends. -/
theorem frameDecode_incremental_length :
    (∀ x, (frameDecode ([0x82, 0x7e] ++ [x])).delta = -1) ∧
      (∀ t, (frameDecode ([0x82, 0x7e, 1, 0] ++ t)).delta = 4) ∧
        (readHeader [0x82, 0x7e, 1, 0, 9]).1 = [0x82, 0x7e, 1, 0] := by
  obtain ⟨-, hneeds, -⟩ := frameDecode_incremental [0x82, 0x7e]
  obtain ⟨-, -, hdone, -⟩ := frameDecode_incremental [0x82, 0x7e, 1, 0]
  obtain ⟨-, -, -, -, -, -, hprefix, hlen, -⟩ := frameDecode_incremental [0x82, 0x7e, 1, 0, 9]
  have hfinal := (hdone (by decide) (by decide)).2.2
  refine ⟨fun x => ?_, fun t => ?_, ?_⟩
  · exact ((hneeds 2 (by decide) (by decide) (by decide)).2 [x] Nat.one_lt_two).2
  · rw [hfinal t]
    rfl
  · have hdelta : (frameDecode [0x82, 0x7e, 1, 0, 9]).delta = 4 := by decide
    have hlength := hlen (by decide) (by decide)
    have hfour : (readHeader [0x82, 0x7e, 1, 0, 9]).1.length = 4 := by omega
    rw [List.prefix_iff_eq_take.mp hprefix, hfour]
    rfl

end CurlWs
