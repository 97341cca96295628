import CurlWs.Receive.Draining
import CurlWs.Receive.Utf8Scan

/-!
# The buffers for headers and characters

Two buffers of a fixed size are filled across calls: `header.buf` with the header of a frame, and
`utf8.buf` with the character that a piece of text has ended in.  The source copies as many bytes to
each as its `needed` says, and never looks at the size; what keeps them inside is who sets `needed`.

**The header.**  It is set by the decoder, from the bytes that are there.  The decoder goes through
its stages and never asks for more than a header can have (`frameDecode_room`).  What it asks for is
also no more than the header has left, so that no byte of the payload is taken (`headerInside`).

**The character.**  It is set from the table of lengths, for the bytes that `utf8_validate` leaves.
They are fewer than the first of them calls for (`utf8Validate_leaves`), and this is four at most.

**Every run.**  `Scratch` is kept by each iteration.  Besides the room between the calls it has
every copy to `utf8.buf` on the way, as each belongs to a piece of the trace.

## Main results

* **`frameDecode_room`** — the decoder never asks for more than a header can have.
* **`headerInside`** — so a header stays inside its buffer, and has no byte of the payload in it
  when it is complete.
* **`scratch_inside`** — in every run, both buffers have room for what is in them and what is still
  to come.
-/

namespace CurlWs

open WebSocket

/-! ## What the decoder asks for

The stages of the decoder, last to first. -/

/-- A result says how many bytes are missing. -/
lemma needs_inj {n k : ℕ} (h : Decoded.needs n = .needs k) : n = k := by
  have hdelta := congrArg Decoded.delta h
  simp only [Decoded.needs] at hdelta
  omega

lemma error_ne_needs {e : ℤ} (he : e ≠ 0) (k : ℕ) : Decoded.error e ≠ .needs k := by
  intro h
  exact he (congrArg Decoded.rv h)

/-- The masking key is the last thing that may be missing. -/
lemma decodeMaskingKey_room {f : CwsFrame} {used k : ℕ} {buf : List Byte} (hk : 0 < k)
    (h : decodeMaskingKey f used buf = .needs k) : buf.length + k ≤ 4 := by
  have hdone {n : ℕ} {g : CwsFrame} : (⟨0, n, g⟩ : Decoded) ≠ .needs k := by
    intro hn
    have hdelta := congrArg Decoded.delta hn
    simp only [Decoded.needs] at hdelta
    omega
  by_cases hm : f.mask = true
  · rcases short_or_split 4 buf with hb | ⟨e, r, rfl, he⟩
    · rw [decodeMaskingKey_short hm hb] at h
      have := needs_inj h
      omega
    · obtain ⟨key, rfl⟩ := exists_maskingKey he
      rw [decodeMaskingKey_append hm] at h
      exact absurd h (@hdone (used + 4) _)
  · rw [decodeMaskingKey_unmasked hm] at h
    exact absurd h hdone

/-- The length field is missing, or the masking key. -/
lemma decodePayloadLen_room {f : CwsFrame} {k : ℕ} {buf : List Byte} (hk : 0 < k)
    (h : decodePayloadLen f buf = .needs k) : buf.length + k ≤ 12 := by
  have hsize := fieldSize_le f
  rcases short_or_split (fieldSize f) buf with hb | ⟨e, r, rfl, he⟩
  · rw [decodePayloadLen_short hb] at h
    have := needs_inj h
    omega
  · rw [decodePayloadLen_append he] at h
    cases hlen : fieldLength f e with
    | error x =>
        rw [hlen] at h
        exact absurd h (error_ne_needs (fieldLength_error hlen).ne k)
    | ok n =>
        rw [hlen] at h
        have := decodeMaskingKey_room hk h
        rw [List.length_append]
        omega

/-- **The decoder asks for no more than fits.** -/
theorem frameDecode_room {k : ℕ} {buf : List Byte} (hk : 0 < k)
    (h : frameDecode buf = .needs k) : buf.length + k ≤ wsFrameHeaderMax := by
  show buf.length + k ≤ 14
  rcases buf with _ | ⟨b0, _ | ⟨b1, buf⟩⟩
  iterate 2
    · have := needs_inj h
      simp only [List.length_cons, List.length_nil] at this ⊢
      omega
  · rw [frameDecode] at h
    split_ifs at h
    · exact absurd h (error_ne_needs (by omega) k)
    · simp only at h
      cases hop : controlOpcode (0x0f &&& b0).toNat with
      | none =>
          rw [hop] at h
          exact absurd h (error_ne_needs (by omega) k)
      | some isControl =>
          rw [hop] at h
          have := decodePayloadLen_room hk h
          simp only [List.length_cons]
          omega

/-! ## The header

What is copied to the header buffer. -/

/-- The header buffer has room for what is in it and what is still to come. -/
def HeaderBuffer.Fits (h : HeaderBuffer) : Prop := h.buf.length + h.needed ≤ wsFrameHeaderMax

/-- The first two bytes of a header fit. -/
lemma headerMin_fits : (⟨[], wsFrameHeaderMin⟩ : HeaderBuffer).Fits := by
  show 0 + wsFrameHeaderMin ≤ wsFrameHeaderMax
  decide

/-- The header buffer once `_process_frame_header` has copied its bytes of the chunk there. -/
def headerFilled (h : HeaderBuffer) (buf : List Byte) : List Byte :=
  h.buf ++ buf.take (minSizeT (headerNeed h) buf.length)

/-- The bytes are copied to where the buffer is, and when a header is complete, with them it is and
not before. -/
structure HeaderInside (h : HeaderBuffer) (buf : List Byte) : Prop where
  room : (headerFilled h buf).length ≤ wsFrameHeaderMax
  whole : (frameDecode (headerFilled h buf)).rv = 0 → 0 ≤ (frameDecode (headerFilled h buf)).delta →
    (frameDecode (headerFilled h buf)).delta = (headerFilled h buf).length

/-- As many bytes are copied as are asked for, or as there are. -/
lemma headerFilled_length (h : HeaderBuffer) (buf : List Byte) : (headerFilled h buf).length
    = h.buf.length + minSizeT (headerNeed h) buf.length := by
  rw [headerFilled, List.length_append, List.length_take, minSizeT_eq,
    Nat.min_eq_left (Nat.min_le_right ..)]

/-- **A header that has begun.** -/
theorem headerInside {h : HeaderBuffer} (hpend : HeaderPending h) (buf : List Byte) :
    HeaderInside h buf := by
  have hneed := headerNeed_pos h
  have hroom := frameDecode_room hneed hpend
  have hmin := minSizeT_eq (headerNeed h) buf.length
  refine ⟨?_, ?_⟩
  · rw [headerFilled_length]
    omega
  · intro hrv hdelta
    have hout := frameDecode_outcome (headerFilled h buf)
    generalize hd : frameDecode (headerFilled h buf) = d at hrv hdelta hout ⊢
    cases hout with
    | error he _ => exact absurd hrv he.ne
    | needs hk _ _ =>
        simp only [Decoded.needs] at hdelta
        omega
    | complete hpos hle _ hparse =>
        have hshort : (buf.take (minSizeT (headerNeed h) buf.length)).length ≤ headerNeed h := by
          rw [List.length_take]
          omega
        exact congrArg Nat.cast (frameDecode_needs hpend hneed hshort hle hparse).1

/-- What `_process_frame_header` leaves in the buffer fits, whatever becomes of the header. -/
lemma fits_processFrameHeader {s : Cws} (ho : s.closeState.received = false)
    (hpend : HeaderPending s.recv.header) (env : Env) (buf : List Byte) :
    (processFrameHeader env s buf).2.1.recv.header.Fits ∧
      (processFrameHeader env s buf).2.1.recv.utf8 = s.recv.utf8 ∧
      ((processFrameHeader env s buf).1 ≠ none →
        (processFrameHeader env s buf).2.1.closeState.received = false) := by
  have hneed := headerNeed_pos s.recv.header
  have hroom := frameDecode_room hneed hpend
  have hlen := headerFilled_length s.recv.header buf
  have hmin := minSizeT_eq (headerNeed s.recv.header) buf.length
  have hclose (h : HeaderBuffer) (hh : h.Fits) :
      (errorClose env (s.setRecv { s.recv with header := h }) 1002 none 0).recv.header.Fits ∧
        (errorClose env (s.setRecv { s.recv with header := h }) 1002 none 0).recv.utf8
          = s.recv.utf8 := by
    have hcore := core_errorClose (s := s.setRecv { s.recv with header := h }) ho env 1002 none 0
    rw [recv_of_core hcore]
    exact ⟨hh, rfl⟩
  have hfilled : (⟨headerFilled s.recv.header buf,
      headerNeed s.recv.header - minSizeT (headerNeed s.recv.header) buf.length⟩
        : HeaderBuffer).Fits := by
    simp only [HeaderBuffer.Fits, hlen]
    omega
  have hbuf : s.recv.header.buf ++ buf.take (minSizeT (headerNeed s.recv.header) buf.length)
      = headerFilled s.recv.header buf := rfl
  simp only [processFrameHeader, hbuf]
  split_ifs with hrv hdelta hvalid
  · exact ⟨(hclose _ hfilled).1, (hclose _ hfilled).2, fun h => absurd rfl h⟩
  · refine ⟨?_, rfl, fun h => absurd rfl h⟩
    -- the header goes on, and the decoder has asked for the rest of it
    have hout := frameDecode_outcome (headerFilled s.recv.header buf)
    generalize hd : frameDecode (headerFilled s.recv.header buf) = d at hrv hdelta hout ⊢
    cases hout with
    | error he _ => exact absurd he.ne hrv
    | @needs k hk _ _ =>
        have hfit := frameDecode_room hk hd
        simp only [Decoded.needs, setRecv_recv, HeaderBuffer.Fits]
        omega
    | complete hpos _ _ _ => exact absurd hdelta (not_lt.mpr (Int.natCast_nonneg _))
  · exact ⟨(hclose _ hfilled).1, (hclose _ hfilled).2, fun h => absurd rfl h⟩
  · refine ⟨?_, rfl, fun _ => ho⟩
    simp only [setRecv_recv, HeaderBuffer.Fits, List.length_nil]
    omega

/-! ## The character

What is copied to the buffer for a character. -/

/-- The buffer for a character has room for what is in it and what is still to come. -/
def Utf8Buffer.Fits (u : Utf8Buffer) : Prop := u.used + u.needed ≤ maxUtfBytes

/-- What `_process_text_stream` copies to the buffer is inside it: bytes of the character in
progress behind those that are there, or bytes that begin one at its start. -/
def Piece.Utf8Inside (p : Piece) : Prop :=
  if 0 < p.utf8.needed then
    p.utf8.used + minSizeT p.utf8.needed p.bytes.length ≤ maxUtfBytes
  else ∀ valid, utf8Validate p.bytes = some valid → p.bytes.length - valid ≤ maxUtfBytes

/-- The bytes that `utf8_validate` leaves are fewer than the first of them calls for. -/
lemma utf8Validate_leaves {text : List Byte} {valid : ℕ} (h : utf8Validate text = some valid)
    (hlt : valid < text.length) :
    (text.drop valid).length < utf8GetSize ((text.drop valid).headD 0) := by
  obtain ⟨w, r, rfl, -, hr, rfl⟩ := utf8Validate_eq_some_iff.mp h
  rw [List.drop_left]
  refine hr.resolve_left ?_
  rintro rfl
  rw [List.append_nil] at hlt
  exact lt_irrefl _ hlt

/-- **A piece of text** is copied to where the buffer is. -/
lemma utf8Inside {p : Piece} (h : p.utf8.Fits) : p.Utf8Inside := by
  have hmin := minSizeT_eq p.utf8.needed p.bytes.length
  rw [Piece.Utf8Inside]
  rw [Utf8Buffer.Fits] at h
  split_ifs
  · omega
  · intro valid hvalid
    rcases Nat.lt_or_ge valid p.bytes.length with hlt | hge
    · have hleft := utf8Validate_leaves hvalid hlt
      have hsize := utf8GetSize_le ((p.bytes.drop valid).headD 0)
      rw [List.length_drop] at hleft
      rw [maxUtfBytes]
      omega
    · omega

/-- What a piece leaves in the buffer fits. -/
lemma fits_result {p : Piece} (h : p.utf8.Fits) : p.result.utf8.Fits := by
  have hmin := minSizeT_eq p.utf8.needed p.bytes.length
  rw [Piece.result]
  split_ifs
  · have hcopied : (⟨p.utf8.buf ++ p.bytes.take (minSizeT p.utf8.needed p.bytes.length),
        p.utf8.needed - minSizeT p.utf8.needed p.bytes.length⟩ : Utf8Buffer).Fits := by
      simp only [Utf8Buffer.Fits, Utf8Buffer.used] at h ⊢
      rw [List.length_append, List.length_take]
      omega
    rw [processTextStream]
    by_cases hneeded : 0 < p.utf8.needed
    · rw [if_pos hneeded]
      simp only
      split_ifs
      · exact hcopied
      · exact hcopied
      · exact hcopied
      · -- the character is complete and taken out
        simp only [Utf8Buffer.Fits, Utf8Buffer.used, List.length_nil] at hcopied ⊢
        omega
    · rw [if_neg hneeded]
      cases hvalid : utf8Validate p.bytes with
      | none => exact h
      | some valid =>
          simp only
          split_ifs with hlt
          · exact h
          · have hleft := utf8Validate_leaves hvalid hlt
            have hsize := utf8GetSize_le ((p.bytes.drop valid).headD 0)
            simp only [Utf8Buffer.Fits, Utf8Buffer.used, maxUtfBytes]
            omega
          · exact h
  · exact h

/-! ## One iteration

The payload has no part in the header, nor the header in the payload. -/

/-- Both buffers. -/
structure Recv.ScratchFits (r : Recv) : Prop where
  header : r.header.Fits
  utf8 : r.utf8.Fits

/-- The rest of the receive state plays no part. -/
lemma Recv.ScratchFits.congr {r r' : Recv} (h : r.ScratchFits) (hheader : r'.header = r.header)
    (hutf8 : r'.utf8 = r.utf8) : r'.ScratchFits := by
  refine ⟨?_, ?_⟩
  · rw [hheader]
    exact h.header
  · rw [hutf8]
    exact h.utf8

/-- Delivering a piece touches neither buffer. -/
lemma scratch_sendDataFrame (env : Env) (s : Cws) (f : CwsFrame) (buffer : Option (List Byte)) :
    (sendDataFrame env s f buffer).recv.header = s.recv.header ∧
      (sendDataFrame env s f buffer).recv.utf8 = s.recv.utf8 := by
  have hcall (s' : Cws) (info : Flags) (b : Option (List Byte)) :
      (cbOnFragment env s'.enterDispatch info b).leaveDispatch.recv = s'.recv :=
    recv_of_core (core_cbOnFragment env s'.enterDispatch info b)
  simp only [sendDataFrame]
  split_ifs
  all_goals simp [hcall]

lemma scratch_processPayload {s : Cws} (ho : s.closeState.received = false)
    (h : s.recv.ScratchFits) (env : Env) (f : CwsFrame) (buf : List Byte) :
    (processPayload env s f buf).1.recv.ScratchFits := by
  generalize hs₁ : s.setRecv { s.recv with frame := some f } = s₁
  have ho₁ : s₁.closeState.received = false := by
    rw [← hs₁]
    exact ho
  have h₁ : s₁.recv.ScratchFits := by
    rw [← hs₁]
    exact h.congr rfl rfl
  simp only [processPayload, hs₁]
  split_ifs with hi
  · obtain ⟨-, hcore⟩ := core_processControlFrame ho₁ env f buf
    rcases hcore with ⟨-, hcore⟩ | ⟨-, -, hcore⟩ | ⟨-, -, hcore⟩
    · rw [recv_of_core hcore]
      exact h₁.congr rfl rfl
    · rw [recv_of_core hcore]
      exact ⟨headerMin_fits, h₁.utf8⟩
    · rw [recv_of_core hcore]
      exact h₁.congr rfl rfl
  · have hutf8 : (s₁.recv.piece f buf).result.utf8.Fits := fits_result h₁.utf8
    by_cases hres : (s₁.recv.piece f buf).result.rv < 0
    · obtain ⟨-, hcore⟩ := core_processDataFrame_refused ho₁ hres env
      rw [recv_of_core hcore]
      exact ⟨h₁.header, hutf8⟩
    · simp only [processDataFrame, if_neg hres]
      refine ⟨?_, ?_⟩
      · rw [(scratch_sendDataFrame ..).1]
        exact h₁.header
      · rw [(scratch_sendDataFrame ..).2]
        exact hutf8

/-- **One iteration** leaves room in both buffers. -/
theorem scratch_processFrame {s : Cws} (ho : s.closeState.received = false)
    (hpend : HeaderPending s.recv.header) (h : s.recv.ScratchFits) (env : Env) (buf : List Byte) :
    (cwsProcessFrame env s buf).1.recv.ScratchFits := by
  simp only [cwsProcessFrame]
  cases hf : s.recv.frame with
  | some f => exact scratch_processPayload ho h env f buf
  | none =>
      obtain ⟨hheader, hutf8, hopen⟩ := fits_processFrameHeader ho hpend env buf
      generalize processFrameHeader env s buf = d at hheader hutf8 hopen
      obtain ⟨f, s₁, rest⟩ := d
      have h₁ : s₁.recv.ScratchFits := ⟨hheader, hutf8 ▸ h.utf8⟩
      cases f with
      | none => exact h₁
      | some f =>
          have ho₁ : s₁.closeState.received = false := hopen (Option.some_ne_none f)
          simp only
          split_ifs with hi
          · exact scratch_processPayload ho₁ h₁ env f rest
          · cases hstream : openStream s₁.recv f with
            | none =>
                have hcore := core_errorClose ho₁ env 1002 none 0
                simp only [recv_of_core hcore]
                exact h₁
            | some r =>
                have hr : r.header = s₁.recv.header ∧ r.utf8 = s₁.recv.utf8 := by
                  rw [openStream] at hstream
                  split_ifs at hstream
                  all_goals
                    rw [← Option.some_inj.mp hstream]
                    exact ⟨rfl, rfl⟩
                refine scratch_processPayload (s := s₁.setRecv r) ho₁ ?_ env f rest
                exact h₁.congr hr.1 hr.2

/-! ## Runs

Every head of the loop is a state in which a header may be read.  A run counts up to where its
object is freed (`Run`). -/

/-- The room in the buffers, and what has been copied to the one for characters. -/
structure Scratch (c : Core) : Prop where
  fits : c.recv.ScratchFits
  pieces : ∀ p ∈ c.pieces, p.Utf8Inside

lemma scratch_fresh (cfg : Cfg) : Scratch (Cws.fresh cfg).core := by
  refine ⟨⟨Nat.zero_le _, Nat.zero_le _⟩, ?_⟩
  intro p hp
  exact absurd hp List.not_mem_nil

/-- An iteration copies one piece at most. -/
lemma Scratch.iterate {s s' : Cws} {buf rest : List Byte} (h : Scratch s.core)
    (hi : Iteration s buf s' rest) (hfits : s'.recv.ScratchFits) : Scratch s'.core := by
  refine ⟨hfits, ?_⟩
  have hmore {p : Piece} (hpending : p.utf8 = s.recv.utf8)
      (hpieces : s'.core.pieces = s.core.pieces ++ [p]) : ∀ q ∈ s'.core.pieces, q.Utf8Inside := by
    intro q hq
    rw [hpieces, List.mem_append, List.mem_singleton] at hq
    rcases hq with hq | rfl
    · exact h.pieces q hq
    · exact utf8Inside (hpending ▸ h.fits.utf8)
  cases hi with
  | quiet hquiet _ _ _ =>
      rw [hquiet.pieces]
      exact h.pieces
  | piece _ _ _ hpending _ _ _ _ _ _ _ hpieces _ => exact hmore hpending hpieces
  | refused _ _ _ hpending _ _ _ _ hpieces _ => exact hmore hpending hpieces

/-- The room in both buffers, in every run. -/
lemma scratch_run (env : Env) (cfg : Cfg) (acts : List Action) :
    let s := run env (Cws.fresh cfg) acts
    Tracks (streamBytes env (Cws.fresh cfg) acts) [] s.core ∧ Scratch s.core := by
  refine @run_view_induction env (fun _ _ v => Scratch v.core)
    (fun _ _ _ h => h) (fun _ _ _ _ h => h) ?_ cfg (scratch_fresh cfg) acts ?_
  · intro bs buf rest s s' w r _ hstep ho hr hi _ _ h
    have hnext := scratch_processFrame ho (hr.shape ho).header h.fits env buf
    rw [hstep] at hnext
    exact h.iterate hi hnext
  · intro line status version _ bs s h
    rw [← Cws.core, core_headerCb]
    exact h

/-- **The buffers in every run**: between calls, at every copy of a piece of text, and whenever
`_process_frame_header` is entered in the loop of a call. -/
theorem scratch_inside (env : Env) (cfg : Cfg) (acts : List Action) (buf : List Byte) :
    let s := run env (Cws.fresh cfg) acts
    s.recv.ScratchFits ∧ (∀ p, .payload p ∈ s.trace → p.Utf8Inside) ∧
      (Enters s buf → ∀ a, (receiving env).Heads (s, buf) a →
        a.1.recv.ScratchFits ∧ (a.1.recv.frame = none → HeaderInside a.1.recv.header a.2)) := by
  intro s
  obtain ⟨htracks, hscratch⟩ : Tracks (streamBytes env (Cws.fresh cfg) acts) [] s.core ∧
      Scratch s.core := scratch_run env cfg acts
  refine ⟨hscratch.fits, ?_, ?_⟩
  · intro p hp
    refine hscratch.pieces p ?_
    rw [core_pieces, dataPieces, List.mem_filterMap]
    exact ⟨_, hp, rfl⟩
  · intro henters a ha
    have hstart : Ongoing s := ⟨henters.2.2, htracks.shape henters.2.2⟩
    have hheads := ha.invariant (I := fun c => Ongoing c.1 ∧ c.1.recv.ScratchFits) ?_
      ⟨hstart, hscratch.fits⟩
    · exact ⟨hheads.2, fun _ => headerInside hheads.1.2.header a.2⟩
    · intro c d hc hcd
      refine ⟨ongoing_heads (.single hcd) hc.1, ?_⟩
      rw [← hcd.round]
      exact scratch_processFrame hc.1.1 hc.1.2.header hc.2 env c.2

end CurlWs
