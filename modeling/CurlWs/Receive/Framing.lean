import CurlWs.Receive.HeaderDecode
import CurlWs.Receive.Stages

/-!
# Framing

The receive path against the reference, for every way of cutting the stream.

**Meaning.**  The reference `decode` reads a whole stream; an iteration sees a part of it, and
begins in the middle of a header or of a payload.  `Core.resume` says what the reference would still
make of the bytes to come, given the partly received header, control payload or data payload.
Together with what has been received this is `Core.meaning`.  An iteration of the receive loop moves
meaning from the one to the other, and that is all it does.

**The invariant.**  `Shape` is about an open connection between two iterations: the header buffer
holds the beginning of a header and knows how much more to ask for (`HeaderPending`), the two stream
markers agree with the message in progress (`Stream`), and at most one payload is held, never a
whole one (`Held`).

**Stage by stage.**  `_process_frame_header` waits, fails or completes a header (`headerStage`).  A
control payload waits or completes (`iterate_control`), a piece of a data payload is taken or
refused (`iterate_data`, `iterate_refused`), and the opcode of a data frame is refused exactly where
the reference refuses it (`openStream_cases`).

**The result.**  `Iteration` has three cases: no payload of a message is taken, a piece of one is,
or a piece of a text is refused.  In the first two the meaning is the same before and after, for
whatever comes behind the chunk.

* **`iteration_cases`** — what one iteration does: what has been received, followed by what the rest
  of the stream still means, stays the same, as long as no text is refused.
-/

namespace CurlWs

open WebSocket

/-! ## The header stage

A header that has begun, and the chunk that is to go on with it. -/

/-- There is always something to ask for. -/
lemma headerNeed_pos (h : HeaderBuffer) : 0 < headerNeed h := by
  rw [headerNeed]
  split_ifs with h0
  · exact Nat.zero_lt_two
  · exact Nat.pos_of_ne_zero h0

/-- The header buffer holds the beginning of a header, and the number of bytes to read next is the
one the decoder has asked for. -/
def HeaderPending (h : HeaderBuffer) : Prop := frameDecode h.buf = .needs (headerNeed h)

/-- A new connection waits for a header. -/
lemma headerPending_default : HeaderPending {} := rfl

lemma headerPending_min : HeaderPending { buf := [], needed := wsFrameHeaderMin } := rfl

/-- What `frame_validate` asks of a frame from the server, once the decoder has passed it. -/
lemma frameValidate_eq_zero_iff {f : CwsFrame} (hcontrol : f.isControl = f.toHeader.isControl)
    (hknown : knownOpcode f.opcode = true) (hlen : f.payloadLen < 2 ^ 63) :
    frameValidate f .s2c = 0
      ↔ f.mask = false ∧ (f.isControl = true → f.fin = true ∧ f.payloadLen ≤ 125) := by
  have hsize : f.payloadLen ≠ sizeMax := by
    rw [sizeMax, sizeModulus]
    omega
  have hop : f.opcode ≤ 2 ∨ 8 ≤ f.opcode ∧ f.opcode ≤ 10 := by
    simpa [knownOpcode] using hknown
  have hc : f.isControl = decide (8 ≤ f.opcode) := hcontrol
  have hdata : f.opcode = wsOpcodeContinuation ∨ f.opcode = wsOpcodeText
      ∨ f.opcode = wsOpcodeBinary ↔ f.isControl = false := by
    rw [hc, decide_eq_false_iff_not]
    simp only [wsOpcodeContinuation, wsOpcodeText, wsOpcodeBinary]
    omega
  have hctl : f.opcode = wsOpcodeClose ∨ f.opcode = wsOpcodePing
      ∨ f.opcode = wsOpcodePong ↔ f.isControl = true := by
    rw [hc, decide_eq_true_iff]
    simp only [wsOpcodeClose, wsOpcodePing, wsOpcodePong]
    omega
  simp only [frameValidate, hdata, hctl]
  cases hm : f.mask with
  | true => simp
  | false =>
      cases hi : f.isControl with
      | false => simp [hsize]
      | true =>
          cases hf : f.fin with
          | false => simp
          | true =>
              simp [wsCtlPayloadMax]
              split_ifs <;> omega

/-- A header `frame_validate` refuses is inadmissible anywhere. -/
lemma not_admissible_of_frameValidate {f : CwsFrame}
    (hcontrol : f.isControl = f.toHeader.isControl) (hknown : knownOpcode f.opcode = true)
    (hlen : f.payloadLen < 2 ^ 63) (hbad : frameValidate f .s2c ≠ 0) (isOpen : Bool) :
    f.toHeader.admissible isOpen = false := by
  rw [Ne, frameValidate_eq_zero_iff hcontrol hknown hlen, not_and_or] at hbad
  rw [Header.admissible, ← hcontrol]
  rcases hbad with hm | hc
  · simp [CwsFrame.toHeader, hm]
  · obtain ⟨hi, hc⟩ := Classical.not_imp.mp hc
    rw [if_pos hi]
    simp only [CwsFrame.toHeader, Bool.and_eq_false_iff]
    refine Or.inr ?_
    by_contra hboth
    simp only [not_or, Bool.not_eq_false] at hboth
    exact hc ⟨hboth.1, of_decide_eq_true hboth.2⟩

/-- What `_process_frame_header` does when a header has begun or is about to. -/
inductive HeaderStage (s : Cws) (buf : List Byte) : Option CwsFrame × Cws × List Byte → Prop where
  | pending {h : HeaderBuffer} {x rest : List Byte} (hpend : HeaderPending h)
      (hbuf : buf = x ++ rest) (hx : x ≠ []) (hb : h.buf = s.recv.header.buf ++ x) :
      HeaderStage s buf (none, s.setRecv { s.recv with header := h }, rest)
  | failed {s' : Cws} {h : HeaderBuffer}
      (hcore : s'.core = { s.core with
        recv := { s.recv with header := h }, received := true
        seen := s.core.seen.record (.closing 1002) })
      (hbad : ∀ o t, decode o (s.recv.header.buf ++ (buf ++ t)) = [.failed protocolError]) :
      HeaderStage s buf (none, s', buf)
  | complete {f : CwsFrame} {x rest : List Byte} (hbuf : buf = x ++ rest) (hx : x ≠ [])
      (hvalid : frameValidate f .s2c = 0) (hcontrol : f.isControl = f.toHeader.isControl)
      (hparse : ∀ t, parseHeader (s.recv.header.buf ++ (buf ++ t))
        = .complete f.toHeader (rest ++ t)) :
      HeaderStage s buf (some f, s.setRecv { s.recv with header := {} }, rest)

/-- **`_process_frame_header`**. -/
theorem headerStage {s : Cws} {buf : List Byte} (h : s.closeState.received = false)
    (hpend : HeaderPending s.recv.header) (hbuf : buf ≠ []) (env : Env) :
    HeaderStage s buf (processFrameHeader env s buf) := by
  generalize hk : minSizeT (headerNeed s.recv.header) buf.length = k
  have hneed := headerNeed_pos s.recv.header
  have hpos : 0 < buf.length := List.length_pos_of_ne_nil hbuf
  have hkneed : k ≤ headerNeed s.recv.header ∧ k ≤ buf.length ∧ 0 < k := by
    rw [← hk, minSizeT_eq]
    omega
  have hsplit : buf = buf.take k ++ buf.drop k := (List.take_append_drop k buf).symm
  have hx : buf.take k ≠ [] := by
    rw [Ne, List.take_eq_nil_iff]
    rintro (h0 | h0)
    · omega
    · exact hbuf h0
  have hfail (hd : HeaderBuffer)
      (hbad : ∀ o t, decode o (s.recv.header.buf ++ (buf ++ t)) = [.failed protocolError]) :
      HeaderStage s buf
        (none, errorClose env (s.setRecv { s.recv with header := hd }) 1002 none 0, buf) := by
    refine .failed (h := hd) ?_ hbad
    rw [core_errorClose (by exact h), core_setRecv]
  have hwhole (t : List Byte) : s.recv.header.buf ++ (buf ++ t)
      = s.recv.header.buf ++ buf.take k ++ (buf.drop k ++ t) := by
    rw [List.append_assoc, ← List.append_assoc (buf.take k), List.take_append_drop]
  have hout := frameDecode_outcome (s.recv.header.buf ++ buf.take k)
  simp only [processFrameHeader, hk]
  generalize hd : frameDecode (s.recv.header.buf ++ buf.take k) = d at hout ⊢
  cases hout with
  | error he hbad =>
      rw [if_pos (show (Decoded.error _).rv ≠ 0 from ne_of_lt he)]
      refine hfail _ fun o t => ?_
      rw [decode_eq, hwhole, hbad]
  | @needs n hk' _ _ =>
      have hneg : (-(Decoded.needs n).delta).toNat = n := by
        simp only [Decoded.needs]
        omega
      have hdelta : (Decoded.needs n).delta < 0 := by
        simp only [Decoded.needs]
        omega
      rw [if_neg (show ¬ (Decoded.needs n).rv ≠ 0 from not_not.mpr rfl), if_pos hdelta]
      refine .pending ?_ hsplit hx rfl
      have hneed' : headerNeed
          { buf := s.recv.header.buf ++ buf.take k
            needed := (-(Decoded.needs n).delta).toNat } = n := by
        simp only [headerNeed, hneg]
        exact if_neg (by omega)
      rw [HeaderPending, hneed', hd]
  | @complete e f hpos' hle hcontrol hparse =>
      obtain ⟨hknown, hlen⟩ := parseHeader_known (hparse [])
      obtain ⟨hend, hk'⟩ := frameDecode_needs hpend hneed (by simp; omega) hle hparse
      rw [List.length_take, min_eq_left hkneed.2.1] at hk'
      have hrest : (s.recv.header.buf ++ buf.take k).drop e = [] := by
        rw [hend, List.drop_length]
      simp only [hrest, List.nil_append] at hparse
      have hall (t : List Byte) : parseHeader (s.recv.header.buf ++ (buf ++ t))
          = .complete f.toHeader (buf.drop k ++ t) := by
        rw [hwhole, hparse]
      have hzero : headerNeed s.recv.header - k = 0 := by omega
      rw [if_neg (not_not.mpr rfl), if_neg (not_lt.mpr (Int.natCast_nonneg e)), hzero]
      by_cases hvalid : frameValidate f .s2c ≠ 0
      · rw [if_pos hvalid]
        refine hfail _ fun o t => ?_
        rw [decode_eq, hall]
        simp only
        rw [if_pos (not_admissible_of_frameValidate hcontrol hknown hlen hvalid o.isSome)]
      · rw [if_neg hvalid]
        exact .complete hsplit hx (not_not.mp hvalid) hcontrol hall

/-! ## Meaning

What is held is the front of something that goes on in the bytes to come. -/

/-- What is left of a control frame whose payload begins `bs`. -/
def resumeControl (o : Open) (f : CwsFrame) (bs : List Byte) : List Item :=
  takePayload f.payloadLen bs fun p after => f.toHeader.controlItems p (decode o after)

/-- What is left of a data frame of a message of kind `k` with the payload `wire` so far. -/
def resumeData (k : Kind) (wire : List Byte) (f : CwsFrame) (bs : List Byte) : List Item :=
  takePayload f.payloadLen bs fun p after =>
    dataItems f.fin (k, wire ++ p) fun o => decode o after

namespace Core

/-- What the reference makes of the bytes still to come. -/
def resume (c : Core) (bs : List Byte) : List Item :=
  if c.received then []
  else
    match c.recv.frame, c.seen.current with
    | none, _ => decode c.seen.openMessage (c.recv.header.buf ++ bs)
    | some f, none => resumeControl none f (c.recv.control ++ bs)
    | some f, some (k, _) =>
        if f.isControl then resumeControl c.seen.openMessage f (c.recv.control ++ bs)
        else resumeData k c.seen.wire f bs

/-- What has been received, and what the bytes to come add to it. -/
def meaning (c : Core) (bs : List Byte) : List Item := c.seen.items ++ c.resume bs

/-- Nothing is made of what comes after a close. -/
lemma meaning_closed {c : Core} (h : c.received = true) (bs : List Byte) :
    c.meaning bs = c.seen.items := by
  rw [meaning, resume, if_pos h, List.append_nil]

/-- Between frames, the header that has begun goes on. -/
lemma meaning_header {c : Core} (h : c.received = false) (hf : c.recv.frame = none)
    (bs : List Byte) :
    c.meaning bs = c.seen.items ++ decode c.seen.openMessage (c.recv.header.buf ++ bs) := by
  rw [meaning, resume, if_neg (by simp [h])]
  simp only [hf]

/-- Inside a control frame, its payload goes on. -/
lemma meaning_control {c : Core} (h : c.received = false) {f : CwsFrame}
    (hf : c.recv.frame = some f) (hi : f.isControl = true) (bs : List Byte) :
    c.meaning bs
      = c.seen.items ++ resumeControl c.seen.openMessage f (c.recv.control ++ bs) := by
  rw [meaning, resume, if_neg (by simp [h])]
  rcases hc : c.seen.current with _ | ⟨k, d⟩
  · simp [hf, hc, Seen.openMessage]
  · simp only [hf, if_pos hi]

/-- Inside a data frame, the message goes on. -/
lemma meaning_data {c : Core} (h : c.received = false) {f : CwsFrame} (hf : c.recv.frame = some f)
    (hi : f.isControl = false) {k : Kind} {d : List Byte} (hc : c.seen.current = some (k, d))
    (bs : List Byte) : c.meaning bs = c.seen.items ++ resumeData k c.seen.wire f bs := by
  rw [meaning, resume, if_neg (by simp [h])]
  simp only [hf, hc, hi, Bool.false_eq_true, if_false]

end Core

/-! ## The state between iterations

What is true of an open connection whenever the loop looks for the next byte. -/

/-- The stream markers between frames, and what they say about the message in progress. -/
inductive Stream (r : Recv) (S : Seen) : Prop where
  | idle (hs : r.streamType = 0) (hi : r.fragmentInfo = 0) (hc : S.current = none)
      (hw : S.wire = [])
  | inside {k : Kind} {d : List Byte} (h : Ready r S k true d)

/-- What is held of a frame, which is never a whole one. -/
inductive Held (c : Core) : Prop where
  | nothing (hf : c.recv.frame = none) (hc : c.recv.control = [])
  | control {f : CwsFrame} (hf : c.recv.frame = some f) (hi : f.isControl = true)
      (hlen : c.recv.control.length < f.payloadLen) (hmax : f.payloadLen ≤ 125)
      (hb : c.recv.header.buf = [])
  | data {f : CwsFrame} (hf : c.recv.frame = some f) (hi : f.isControl = false)
      (hlen : 0 < f.payloadLen) (hc : c.recv.control = []) (hopen : c.seen.current ≠ none)
      (hb : c.recv.header.buf = [])

/-- **The invariant of the receive state** of an open connection. -/
structure Shape (c : Core) : Prop where
  header : HeaderPending c.recv.header
  stream : Stream c.recv c.seen
  held : Held c
  live : c.seen.isClosed = false

/-- The markers and the message are all that counts. -/
lemma Stream.congr {r r' : Recv} {S S' : Seen} (h : Stream r S) (hs : r'.streamType = r.streamType)
    (hi : r'.fragmentInfo = r.fragmentInfo) (hc : S'.current = S.current) (hw : S'.wire = S.wire)
    (hm : S.items ⊆ S'.items) : Stream r' S' := by
  cases h with
  | idle hs' hi' hc' hw' =>
      exact .idle (hs.trans hs') (hi.trans hi') (hc.trans hc') (hw.trans hw')
  | inside h =>
      cases h with
      | next hs' hi' hc' hm' =>
          exact .inside (.next (hs.trans hs') (hi.trans hi') (hc.trans hc') (hm hm'))

/-- An iteration that takes no payload of a message. -/
structure Quiet (c c' : Core) : Prop where
  utf8 : c'.recv.utf8 = c.recv.utf8
  seen : c'.seen = { c.seen with items := c'.seen.items }
  messages : messages c'.seen.items = messages c.seen.items
  pieces : c'.pieces = c.pieces

lemma messages_control (S : Seen) (opcode : ℕ) (p : List Byte) :
    WebSocket.messages (S.control opcode p).items = WebSocket.messages S.items := by
  rw [Seen.control, messages_append]
  split_ifs <;> exact List.append_nil _

/-! ## One iteration

The parts of `_cws_process_frame`, each with what it does to the meaning, and then the whole. -/

/-- A control frame that is complete. -/
lemma resumeControl_done {o : Open} {f : CwsFrame} {p : List Byte} (hp : p.length = f.payloadLen)
    (bs : List Byte) :
    resumeControl o f (p ++ bs) = f.toHeader.controlItems p (decode o bs) := by
  rw [resumeControl, takePayload_append hp.le, hp, Nat.sub_self, takePayload_zero, List.append_nil]

/-- The rest of a control frame. -/
lemma iterate_control {s : Cws} {f : CwsFrame} (h : s.closeState.received = false)
    (hi : f.isControl = true) (hpend : HeaderPending s.recv.header) (hb : s.recv.header.buf = [])
    (hlen : s.recv.control.length ≤ f.payloadLen) (hmax : f.payloadLen ≤ 125)
    (hstream : Stream s.recv s.core.seen) (hlive : s.core.seen.isClosed = false) (env : Env)
    (buf : List Byte) :
    let r := processPayload env s f buf
    Quiet s.core r.1.core ∧ (r.1.closeState.received = false → Shape r.1.core) ∧
      (r.1.closeState.received = true → r.1.core.seen.isClosed = true) ∧
      r.2.length ≤ buf.length ∧
      (s.recv.control.length < f.payloadLen → 0 < buf.length → r.2.length < buf.length) ∧
      ∀ t, r.1.core.meaning (r.2 ++ t) = s.core.seen.items ++
        resumeControl s.core.seen.openMessage f (s.recv.control ++ (buf ++ t)) := by
  intro r
  generalize hn : controlTake s.recv f buf = n
  obtain ⟨hrest, hcore⟩ := core_processControlFrame (s := s.setRecv { s.recv with frame := some f })
    h env f buf
  have hr : processControlFrame env (s.setRecv { s.recv with frame := some f }) f buf = r := by
    simp only [r, processPayload, if_pos hi]
  have htake : controlTake (s.setRecv { s.recv with frame := some f }).recv f buf = n := hn
  rw [htake, hr] at hrest
  rw [htake, hr] at hcore
  simp only [setRecv_recv, core_setRecv] at hcore
  have hnlen : n ≤ buf.length ∧ s.recv.control.length + n ≤ f.payloadLen ∧
      (s.recv.control.length < f.payloadLen → 0 < buf.length → 0 < n) := by
    rw [← hn, controlTake_eq]
    omega
  generalize hc : s.recv.control ++ buf.take n = control at hcore
  have hclen : control.length = s.recv.control.length + n := by
    rw [← hc, List.length_append, List.length_take, min_eq_left hnlen.1]
  have hsplit (t : List Byte) : s.recv.control ++ (buf ++ t) = control ++ (r.2 ++ t) := by
    rw [hrest, ← hc, List.append_assoc, ← List.append_assoc (buf.take n), List.take_append_drop]
  have hprogress : r.2.length ≤ buf.length ∧
      (s.recv.control.length < f.payloadLen → 0 < buf.length → r.2.length < buf.length) := by
    rw [hrest, List.length_drop]
    refine ⟨by omega, fun h1 h2 => ?_⟩
    have := hnlen.2.2 h1 h2
    omega
  rcases hcore with ⟨hl, hcore⟩ | ⟨hl, hop, hcore⟩ | ⟨hl, hop, hcore⟩
  · have hopen : r.1.closeState.received = false := (congrArg Core.received hcore).trans h
    refine ⟨?_, fun _ => ?_, fun hc => absurd (hopen.symm.trans hc) (by simp), hprogress.1,
      hprogress.2, fun t => ?_⟩
    · rw [hcore]
      exact ⟨rfl, rfl, rfl, rfl⟩
    · rw [hcore]
      exact ⟨hpend, hstream.congr rfl rfl rfl rfl (List.Subset.refl _),
        .control rfl hi (by simp only; omega) hmax hb, hlive⟩
    · rw [hcore, Core.meaning_control (f := f) h rfl hi, hsplit]
  · have hopen : r.1.closeState.received = false := (congrArg Core.received hcore).trans h
    refine ⟨?_, fun _ => ?_, fun hc => absurd (hopen.symm.trans hc) (by simp), hprogress.1,
      hprogress.2, fun t => ?_⟩
    · rw [hcore]
      exact ⟨rfl, rfl, messages_control .., rfl⟩
    · rw [hcore]
      exact ⟨headerPending_min,
        hstream.congr rfl rfl rfl rfl (List.subset_append_left _ _), .nothing rfl rfl,
        (Seen.isClosed_control_of_open hop control).trans hlive⟩
    · rw [hcore, Core.meaning_header h rfl, hsplit, resumeControl_done hl]
      rcases hop with h9 | h10
      · simp [Seen.control, Seen.openMessage, Header.controlItems, CwsFrame.toHeader, h9,
          Recv.afterControl]
      · simp [Seen.control, Seen.openMessage, Header.controlItems, CwsFrame.toHeader, h10,
          Recv.afterControl]
  · obtain ⟨h9, h10⟩ := not_or.mp hop
    refine ⟨?_, fun hopen => ?_, fun _ => ?_, hprogress.1, hprogress.2, fun t => ?_⟩
    · rw [hcore]
      exact ⟨rfl, rfl, messages_control .., rfl⟩
    · exact absurd ((congrArg Core.received hcore).symm.trans hopen) (by simp)
    · rw [hcore]
      exact Seen.isClosed_control h9 h10 control
    · rw [hcore, Core.meaning_closed rfl, hsplit, resumeControl_done hl]
      simp [Seen.control, Header.controlItems, CwsFrame.toHeader, h9, h10]

/-- What the reference makes of the payload after the first part of it. -/
lemma resumeData_append {k : Kind} {wire p : List Byte} {f : CwsFrame}
    (hp : p.length ≤ f.payloadLen)
    (bs : List Byte) :
    resumeData k wire f (p ++ bs)
      = resumeData k (wire ++ p) { f with payloadLen := f.payloadLen - p.length } bs := by
  rw [resumeData, takePayload_append hp]
  simp only [resumeData, List.append_assoc]

section
variable {c : Core} {r : Recv} {S : Seen} {f : CwsFrame} {k : Kind} {begun : Bool}
  {d p sent : List Byte}

/-- The state after a piece of a data frame, of which `f` is what is left. -/
lemma shape_afterPiece (hi : f.isControl = false) (hpend : HeaderPending r.header)
    (hb : r.header.buf = []) (hcontrol : r.control = []) (hr : Ready r S k begun d)
    (hlive : S.isClosed = false) (hrecv : c.recv = r.afterPiece f)
    (hseen : c.seen = S.afterPiece k begun d p sent (f.payloadLen = 0 ∧ f.fin)) : Shape c := by
  have hstream : Stream c.recv c.seen := by
    rw [hrecv, hseen]
    by_cases hdone : f.payloadLen = 0 ∧ f.fin = true
    · refine .idle ?_ ?_ ?_ ?_
      all_goals simp [Recv.afterPiece, Seen.afterPiece, Seen.extend, hdone]
    · refine .inside (k := k) (d := d ++ sent) (.next ?_ ?_ ?_ ?_)
      · simp [Recv.afterPiece, hdone, hr.streamType]
      · simp [Recv.afterPiece, hdone, pieceInfo]
      · simp [Seen.afterPiece, Seen.extend, hdone]
      · simpa [Seen.afterPiece, Seen.extend, hdone] using hr.start_mem
  have hnone : c.recv.control = [] := by
    rw [hrecv]
    exact hcontrol
  have hheld : Held c := by
    by_cases hend : f.payloadLen = 0
    · refine .nothing ?_ hnone
      simp [hrecv, Recv.afterPiece, hend]
    · refine .data (f := f) ?_ hi (Nat.pos_of_ne_zero hend) hnone ?_ ?_
      · simp [hrecv, Recv.afterPiece, hend]
      · simp [hseen, Seen.afterPiece, Seen.extend, hend]
      · rw [hrecv]
        exact hb
  refine ⟨?_, hstream, hheld, ?_⟩
  · rw [hrecv]
    exact hpend
  · rw [hseen, Seen.isClosed_afterPiece]
    exact hlive

/-- What is left of the frame goes on where the piece has ended. -/
lemma meaning_afterPiece (hi : f.isControl = false) (hb : r.header.buf = [])
    (hopen : c.received = false) (hrecv : c.recv = r.afterPiece f)
    (hseen : c.seen = S.afterPiece k begun d p sent (f.payloadLen = 0 ∧ f.fin)) (bs : List Byte) :
    c.meaning bs = S.items ++ startItem k begun ++ resumeData k (S.wire ++ p) f bs := by
  by_cases hend : f.payloadLen = 0
  · rw [Core.meaning_header hopen (by rw [hrecv]; simp [Recv.afterPiece, hend]), hrecv, hseen]
    by_cases hfin : f.fin = true
    · simp [Recv.afterPiece, Seen.afterPiece, Seen.extend, Seen.openMessage, hb, resumeData,
        dataItems, hend, hfin]
    · simp [Recv.afterPiece, Seen.afterPiece, Seen.extend, Seen.openMessage, hb, resumeData,
        dataItems, hend, hfin]
  · have hcurrent : c.seen.current = some (k, d ++ sent) := by
      rw [hseen]
      simp [Seen.afterPiece, Seen.extend, hend]
    rw [Core.meaning_data hopen (by rw [hrecv]; simp [Recv.afterPiece, hend]) hi hcurrent, hseen]
    simp [Seen.afterPiece, Seen.extend, hend]

end

/-- The rest of a data frame, when the next piece of it is taken. -/
lemma iterate_data {s : Cws} {f : CwsFrame} {k : Kind} {begun : Bool} {d : List Byte}
    (h : s.closeState.received = false) (hi : f.isControl = false)
    (hpend : HeaderPending s.recv.header) (hb : s.recv.header.buf = [])
    (hcontrol : s.recv.control = []) (hr : Ready s.recv s.core.seen k begun d)
    (hlive : s.core.seen.isClosed = false) (env : Env) (buf : List Byte)
    (hres : ¬ (s.recv.piece f buf).result.rv < 0) :
    let p := s.recv.piece f buf
    let r := processPayload env s f buf
    r.2 = buf.drop p.bytes.length ∧ r.1.closeState.received = false ∧ Shape r.1.core ∧
      r.1.recv.utf8 = p.result.utf8 ∧
      r.1.core.seen = s.core.seen.afterPiece k begun d p.bytes (p.result.toSend.getD [])
        (f.payloadLen = p.bytes.length ∧ f.fin) ∧
      r.1.core.pieces = s.core.pieces ++ [p] ∧
      ∀ t, r.1.core.meaning (r.2 ++ t) = s.core.seen.items ++ startItem k begun ++
        resumeData k s.core.seen.wire f (buf ++ t) := by
  intro p r
  obtain ⟨hrest, hcore⟩ := @core_processDataFrame (s.setRecv { s.recv with frame := some f })
    f buf k begun d (hr.congr rfl rfl) hres env
  have hrdef : processDataFrame env (s.setRecv { s.recv with frame := some f }) f buf = r := by
    simp only [r, processPayload, hi, Bool.false_eq_true, if_false]
  have hpdef : (s.setRecv { s.recv with frame := some f }).recv.piece f buf = p := rfl
  rw [hrdef, hpdef] at hrest
  rw [hrdef, hpdef] at hcore
  simp only [setRecv_recv, core_setRecv, setRecv_received] at hcore
  obtain ⟨hle, hsplit⟩ : p.bytes.length ≤ f.payloadLen ∧
      buf = p.bytes ++ buf.drop p.bytes.length := piece_length s.recv f buf
  have hopen : r.1.closeState.received = false := (congrArg Core.received hcore).trans h
  have hseen := congrArg Core.seen hcore
  have hi' : ({ f with payloadLen := f.payloadLen - p.bytes.length } : CwsFrame).isControl = false :=
    hi
  refine ⟨hrest, hopen, ?_, congrArg (·.recv.utf8) hcore, ?_, congrArg Core.pieces hcore, ?_⟩
  · refine shape_afterPiece hi' ?_ ?_ ?_ ?_ hlive (recv_of_core hcore) hseen
    · exact hpend
    · exact hb
    · exact hcontrol
    · exact hr.congr rfl rfl
  · have hlast : decide (f.payloadLen - p.bytes.length = 0 ∧ f.fin = true)
        = decide (f.payloadLen = p.bytes.length ∧ f.fin = true) := by
      refine decide_eq_decide.mpr (and_congr_left fun _ => ?_)
      omega
    rwa [hlast] at hseen
  · intro t
    rw [meaning_afterPiece hi' (by exact hb) hopen (recv_of_core hcore) hseen, hrest,
      ← resumeData_append hle, ← List.append_assoc, ← hsplit]

/-- The rest of a data frame, when the next piece of it is refused. -/
lemma iterate_refused {s : Cws} {f : CwsFrame} (h : s.closeState.received = false)
    (hi : f.isControl = false) (env : Env) (buf : List Byte)
    (hres : (s.recv.piece f buf).result.rv < 0) :
    let p := s.recv.piece f buf
    let r := processPayload env s f buf
    r.2 = buf ∧ r.1.closeState.received = true ∧
      r.1.core.seen = { s.core.seen with wire := s.core.seen.wire ++ p.bytes } ∧
      r.1.core.pieces = s.core.pieces ++ [p] := by
  intro p r
  obtain ⟨hrest, hcore⟩ := @core_processDataFrame_refused
    (s.setRecv { s.recv with frame := some f }) f buf h hres env
  have hrdef : processDataFrame env (s.setRecv { s.recv with frame := some f }) f buf = r := by
    simp only [r, processPayload, hi, Bool.false_eq_true, if_false]
  rw [hrdef] at hrest hcore
  exact ⟨hrest, congrArg Core.received hcore, congrArg Core.seen hcore, congrArg Core.pieces hcore⟩

/-- **`_cws_process_frame` on the opcode of a data frame**: it is refused exactly where the
reference refuses it, and otherwise the payload is ready to be taken. -/
lemma openStream_cases {r : Recv} {S : Seen} {f : CwsFrame} (hstream : Stream r S)
    (hop : f.opcode ≤ 2) (hi : f.toHeader.isControl = false) (hm : f.mask = false) :
    (openStream r f = none ∧ f.toHeader.admissible S.openMessage.isSome = false) ∨
      ∃ k begun d r', openStream r f = some r' ∧ Ready r' S k begun d ∧
        r'.utf8 = r.utf8 ∧ r'.header = r.header ∧ r'.control = r.control ∧
        f.toHeader.admissible S.openMessage.isSome = true ∧
        f.toHeader.starts = startItem k begun ∧
        f.toHeader.joins S.openMessage = (k, S.wire) := by
  have hadm (b : Bool) : f.toHeader.admissible b = ((f.opcode == 0) == b) := by
    rw [Header.admissible, hi]
    simp [CwsFrame.toHeader, hm]
  have hcases : f.opcode = 0 ∨ f.opcode = 1 ∨ f.opcode = 2 := by omega
  cases hstream with
  | idle hs hfi hc hw =>
      have ho : S.openMessage = none := by rw [Seen.openMessage, hc]; rfl
      rcases hcases with h | h | h
      · refine .inl ⟨?_, by simp [hadm, ho, h]⟩
        simp [openStream, h, hs, wsOpcodeBinary, wsOpcodeText]
      · refine .inr ⟨.text, false, [],
          { r with streamType := cwsText, fragmentInfo := cwsFirst ||| cwsText }, ?_,
          .first rfl rfl hc hw, rfl, rfl, rfl, ?_, ?_, ?_⟩
        · simp [openStream, h, hfi, wsOpcodeBinary, wsOpcodeText]
        · simp [hadm, ho, h]
        · simp [Header.starts, CwsFrame.toHeader, h, startItem]
        · simp [Header.joins, CwsFrame.toHeader, h, hw]
      · refine .inr ⟨.binary, false, [],
          { r with streamType := cwsBinary, fragmentInfo := cwsFirst ||| cwsBinary }, ?_,
          .first rfl rfl hc hw, rfl, rfl, rfl, ?_, ?_, ?_⟩
        · simp [openStream, h, hfi, wsOpcodeBinary]
        · simp [hadm, ho, h]
        · simp [Header.starts, CwsFrame.toHeader, h, startItem]
        · simp [Header.joins, CwsFrame.toHeader, h, hw]
  | @inside k d h =>
      cases h with
      | next hs hfi hc hstart =>
          have ho : S.openMessage = some (k, S.wire) := by rw [Seen.openMessage, hc]; rfl
          have hbusy : ¬ r.fragmentInfo = 0 := by
            rw [hfi]
            simp [pieceInfo, cwsCont]
          have hkind : r.streamType ≠ 0 := by
            rw [hs]
            cases k <;> simp [kindFlag, cwsText, cwsBinary]
          have hcont : r.fragmentInfo &&& ~~~cwsNonctrlMask ||| cwsCont = pieceInfo k true := by
            rw [hfi]
            cases k <;> rfl
          rcases hcases with h | h
          · refine .inr ⟨k, true, d, { r with fragmentInfo := pieceInfo k true }, ?_,
              .next hs rfl hc hstart, rfl, rfl, rfl, ?_, ?_, ?_⟩
            · rw [openStream, if_neg (fun hx => hbusy hx.1), if_neg (fun hx => hbusy hx.1),
                if_pos ⟨hkind, h⟩, hcont]
            · simp [hadm, ho, h]
            · simp [Header.starts, CwsFrame.toHeader, h, startItem]
            · simp [Header.joins, CwsFrame.toHeader, h, ho]
          · have h0 : ¬ f.opcode = 0 := by omega
            refine .inl ⟨?_, by simp [hadm, ho, h0]⟩
            rw [openStream, if_neg (fun hx => hbusy hx.1), if_neg (fun hx => hbusy hx.1),
              if_neg (fun hx => h0 hx.2)]

/-- **One iteration of the receive loop**, by what it does: it takes no payload of a message, it
takes a piece of one, or it refuses a piece of a text. -/
inductive Iteration (s : Cws) (buf : List Byte) (s' : Cws) (rest : List Byte) : Prop where
  | quiet (hquiet : Quiet s.core s'.core)
      (hshape : s'.closeState.received = false → Shape s'.core ∧ rest.length < buf.length)
      (hclosing : s'.closeState.received = true → s'.core.seen.isClosed = true)
      (hmeaning : ∀ t, s'.core.meaning (rest ++ t) = s.core.meaning (buf ++ t))
  | piece {r : Recv} {k : Kind} {begun : Bool} {d : List Byte} {p : Piece}
      (hready : Ready r s.core.seen k begun d) (hstream : p.stream = kindFlag k)
      (hinfo : p.info = pieceInfo k begun) (hpending : p.utf8 = s.recv.utf8)
      (hle : p.bytes.length ≤ p.frame.payloadLen)
      (hres : ¬ p.result.rv < 0)
      (hopen : s'.closeState.received = false) (hshape : Shape s'.core)
      (hprogress : rest.length < buf.length) (hutf8 : s'.recv.utf8 = p.result.utf8)
      (hseen : s'.core.seen = s.core.seen.afterPiece k begun d p.bytes (p.result.toSend.getD [])
        (p.frame.payloadLen = p.bytes.length ∧ p.frame.fin))
      (hpieces : s'.core.pieces = s.core.pieces ++ [p])
      (hmeaning : ∀ t, s'.core.meaning (rest ++ t) = s.core.meaning (buf ++ t))
  | refused {r : Recv} {begun : Bool} {d after : List Byte} {p : Piece}
      (hready : Ready r s.core.seen .text begun d) (hstream : p.stream = kindFlag .text)
      (hinfo : p.info = pieceInfo .text begun) (hpending : p.utf8 = s.recv.utf8)
      (hle : p.bytes.length ≤ p.frame.payloadLen)
      (hres : p.result.rv < 0) (hclosed : s'.closeState.received = true)
      (hseen : s'.core.seen = { s.core.seen with wire := s.core.seen.wire ++ p.bytes })
      (hpieces : s'.core.pieces = s.core.pieces ++ [p])
      (hmeaning : ∀ t, s.core.meaning (buf ++ t) = s.core.seen.items ++ startItem .text begun ++
        resumeData .text s.core.seen.wire p.frame (p.bytes ++ (after ++ t)))

/-- A piece of a binary message is sent as it is. -/
lemma result_binary {p : Piece} (h : p.stream = kindFlag .binary) :
    p.result = { toSend := some p.bytes, utf8 := p.utf8 } := by
  rw [Piece.result, if_neg]
  rw [h]
  simp [kindFlag, cwsText, cwsBinary]

/-- Only a piece of a text is refused. -/
lemma stream_of_refused {p : Piece} {k : Kind} (hk : p.stream = kindFlag k)
    (hres : p.result.rv < 0) :
    k = .text := by
  cases k with
  | text => rfl
  | binary =>
      rw [result_binary hk] at hres
      exact absurd hres (lt_irrefl _)

/-- The payload of a data frame, from the state in which the message is ready for it. -/
lemma iteration_data {s s₁ : Cws} {f : CwsFrame} {k : Kind} {begun : Bool} {d buf buf₁ : List Byte}
    (h : s₁.closeState.received = false) (hi : f.isControl = false)
    (hpend : HeaderPending s₁.recv.header) (hb : s₁.recv.header.buf = [])
    (hcontrol : s₁.recv.control = []) (hr : Ready s₁.recv s.core.seen k begun d)
    (hlive : s.core.seen.isClosed = false)
    (hcore : s₁.core.seen = s.core.seen ∧ s₁.core.pieces = s.core.pieces)
    (hutf8 : s₁.recv.utf8 = s.recv.utf8) (hlen : buf₁.length ≤ buf.length)
    (hprogress : 0 < f.payloadLen ∧ 0 < buf₁.length ∨ buf₁.length < buf.length)
    (hmeaning : ∀ t, s.core.meaning (buf ++ t) = s.core.seen.items ++ startItem k begun ++
      resumeData k s.core.seen.wire f (buf₁ ++ t)) (env : Env) :
    Iteration s buf (processPayload env s₁ f buf₁).1 (processPayload env s₁ f buf₁).2 := by
  obtain ⟨hle, hsplit⟩ := piece_length s₁.recv f buf₁
  have hstream : (s₁.recv.piece f buf₁).stream = kindFlag k := hr.streamType
  by_cases hres : (s₁.recv.piece f buf₁).result.rv < 0
  · obtain rfl := stream_of_refused hstream hres
    obtain ⟨hrest, hclosed, hseen, hpieces⟩ := iterate_refused h hi env buf₁ hres
    refine @Iteration.refused _ _ _ _ s₁.recv begun d
      (buf₁.drop (s₁.recv.piece f buf₁).bytes.length) _ hr hstream hr.fragmentInfo hutf8 hle hres
      hclosed (hseen.trans ?_) (hpieces.trans ?_) fun t => ?_
    · rw [hcore.1]
    · rw [hcore.2]
    · rw [hmeaning, ← List.append_assoc (s₁.recv.piece f buf₁).bytes, ← hsplit]
      rfl
  · obtain ⟨hrest, hopen, hshape, hu, hseen, hpieces, hm⟩ :=
      iterate_data (s := s₁) h hi hpend hb hcontrol (hcore.1 ▸ hr) (hcore.1 ▸ hlive) env buf₁ hres
    have hlt : (processPayload env s₁ f buf₁).2.length < buf.length := by
      rw [hrest, List.length_drop]
      rcases hprogress with ⟨h1, h2⟩ | hlt
      · have : 0 < (s₁.recv.piece f buf₁).bytes.length := by
          simp only [Recv.piece, List.length_take, minSizeT_eq]
          omega
        omega
      · omega
    refine .piece hr hstream hr.fragmentInfo hutf8 hle hres hopen hshape hlt hu ?_ ?_ fun t => ?_
    · rw [hseen, hcore.1]
      rfl
    · rw [hpieces, hcore.2]
    · rw [hm, hmeaning, hcore.1]

/-- The connection is failed where the reference fails it. -/
lemma iteration_failed {s s' : Cws} {r : Recv} (hr : r.utf8 = s.recv.utf8)
    (hcore : s'.core = { s.core with
      recv := r, received := true, seen := s.core.seen.record (.closing 1002) })
    (hlive : s.core.seen.isClosed = false) {buf rest : List Byte}
    (hm : ∀ t, s.core.meaning (buf ++ t) = s.core.seen.items ++ [.failed protocolError]) :
    Iteration s buf s' rest := by
  have hclosed : s'.closeState.received = true := congrArg Core.received hcore
  have hseen : s'.core.seen
      = { s.core.seen with items := s.core.seen.items ++ [.failed protocolError] } := by
    rw [hcore]
    simp [Seen.record, protocolError, hlive]
  refine .quiet ⟨?_, ?_, ?_, ?_⟩ (fun ho => absurd (hclosed.symm.trans ho) (by simp)) (fun _ => ?_)
    fun t => ?_
  · exact (congrArg (·.recv.utf8) hcore).trans hr
  · rw [hseen]
  · rw [hseen, messages_append]
    exact List.append_nil _
  · rw [hcore]
  · rw [hseen]
    simp [Seen.isClosed, Item.isClosing]
  · rw [Core.meaning_closed hclosed, hm, hseen]

section

variable {s : Cws} {f : CwsFrame} {buf rest : List Byte} (h : s.closeState.received = false)
  (hf : s.recv.frame = none) (hc : s.recv.control = []) (hstream : Stream s.recv s.core.seen)
  (hlive : s.core.seen.isClosed = false) (hlt : rest.length < buf.length)
  (hparse : ∀ t, parseHeader (s.recv.header.buf ++ (buf ++ t)) = .complete f.toHeader (rest ++ t))

include h hf hc hstream hlive hlt hparse

/-- The header of a control frame. -/
lemma iteration_header_control (hi : f.isControl = true) (hctl : f.toHeader.isControl = true)
    (hmask : f.mask = false) (hfin : f.fin = true) (hlen : f.payloadLen ≤ 125) (env : Env) :
    let r := processPayload env (s.setRecv { s.recv with header := {} }) f rest
    Iteration s buf r.1 r.2 := by
  obtain ⟨hq, hs, hclose, hle, -, hmean⟩ := iterate_control
    (s := s.setRecv { s.recv with header := {} }) (f := f) h hi headerPending_default rfl
    (by simp [hc]) hlen (hstream.congr rfl rfl rfl rfl (List.Subset.refl _)) hlive env rest
  have hadm : f.toHeader.admissible s.core.seen.openMessage.isSome = true := by
    rw [Header.admissible, if_pos hctl]
    simp [CwsFrame.toHeader, hmask, hfin, hlen]
  refine .quiet ⟨hq.utf8, hq.seen, hq.messages, hq.pieces⟩
    (fun ho => ⟨hs ho, lt_of_le_of_lt hle hlt⟩) hclose fun t => ?_
  have hm := Core.meaning_header (c := s.core) h hf (buf ++ t)
  rw [core_recv, decode_complete (hparse t), if_neg (by simp [hadm]), if_pos hctl] at hm
  rw [hmean, hm]
  simp only [resumeControl, core_setRecv, setRecv_recv, hc, List.nil_append]
  rfl

/-- The header of a data frame. -/
lemma iteration_header_data (hi : f.isControl = false) (hctl : f.toHeader.isControl = false)
    (hop : f.opcode ≤ 2) (hmask : f.mask = false) (env : Env) :
    let s₁ := s.setRecv { s.recv with header := {} }
    (openStream s₁.recv f = none → Iteration s buf (errorClose env s₁ 1002 none 0) rest) ∧
      ∀ r, openStream s₁.recv f = some r →
        Iteration s buf (processPayload env (s₁.setRecv r) f rest).1
          (processPayload env (s₁.setRecv r) f rest).2 := by
  intro s₁
  have hm (t : List Byte) := Core.meaning_header (c := s.core) h hf (buf ++ t)
  simp only [core_recv, decode_complete (hparse _)] at hm
  rcases openStream_cases (r := s₁.recv)
    (hstream.congr rfl rfl rfl rfl (List.Subset.refl _)) hop hctl hmask with
    ⟨hnone, hadm⟩ | ⟨k, begun, d, r', hsome, hready, hu, hh, hct, hadm, hstarts, hjoins⟩
  · refine ⟨fun _ => ?_, fun r hr => absurd (hnone.symm.trans hr) (by simp)⟩
    refine iteration_failed (r := { s.recv with header := {} }) rfl
      (by rw [core_errorClose (by exact h), core_setRecv]) hlive fun t => ?_
    rw [hm, if_pos hadm]
  · refine ⟨fun hn => absurd (hn.symm.trans hsome) (by simp), fun r hr => ?_⟩
    obtain rfl : r = r' := Option.some_inj.mp (hr.symm.trans hsome)
    refine @iteration_data _ (s₁.setRecv r) _ _ _ _ _ _ h hi ?_ ?_ ?_ hready hlive ⟨rfl, rfl⟩ hu
      hlt.le (.inr hlt) (fun t => ?_) env
    · rw [setRecv_recv, hh]
      exact headerPending_default
    · rw [setRecv_recv, hh]
      rfl
    · rw [setRecv_recv, hct]
      exact hc
    · rw [hm, if_neg (by simp [hadm]), if_neg (by simp [hctl]), hstarts, hjoins, List.append_assoc]
      rfl

end

/-- One iteration that begins with no frame. -/
lemma iteration_header {s : Cws} {buf : List Byte} (h : s.closeState.received = false)
    (hf : s.recv.frame = none) (hc : s.recv.control = []) (hpend : HeaderPending s.recv.header)
    (hstream : Stream s.recv s.core.seen) (hlive : s.core.seen.isClosed = false) (hbuf : buf ≠ [])
    (env : Env) : Iteration s buf (cwsProcessFrame env s buf).1 (cwsProcessFrame env s buf).2 := by
  have hst := headerStage h hpend hbuf env
  have hm (t : List Byte) : s.core.meaning (buf ++ t) = s.core.seen.items ++
      decode s.core.seen.openMessage (s.recv.header.buf ++ (buf ++ t)) :=
    Core.meaning_header h hf _
  simp only [cwsProcessFrame, hf]
  generalize processFrameHeader env s buf = r at hst
  cases hst with
  | @pending hb x rest hpend' hsplit hx hbuf' =>
      have hx' : 0 < x.length := List.length_pos_of_ne_nil hx
      change Iteration s buf (s.setRecv { s.recv with header := hb }) rest
      refine .quiet ⟨rfl, rfl, rfl, rfl⟩ (fun _ => ⟨⟨hpend', ?_, .nothing hf hc, hlive⟩, ?_⟩)
        (fun hclosed => absurd (h.symm.trans hclosed) (by simp)) fun t => ?_
      · exact hstream.congr rfl rfl rfl rfl (List.Subset.refl _)
      · rw [hsplit, List.length_append]
        omega
      · rw [hm, Core.meaning_header h hf, hsplit]
        simp [hbuf']
  | @failed s' hb hcore hbad =>
      change Iteration s buf s' buf
      exact iteration_failed (r := { s.recv with header := hb }) rfl hcore hlive fun t => by
        rw [hm, hbad]
  | @complete f x rest hsplit hx hvalid hcontrol hparse =>
      have hx' : 0 < x.length := List.length_pos_of_ne_nil hx
      have hlt : rest.length < buf.length := by
        rw [hsplit, List.length_append]
        omega
      obtain ⟨hknown, hmax⟩ : knownOpcode f.opcode = true ∧ f.payloadLen < 2 ^ 63 :=
        parseHeader_known (hparse [])
      obtain ⟨hmask, hctl⟩ := (frameValidate_eq_zero_iff hcontrol hknown hmax).mp hvalid
      cases hi : f.isControl with
      | true =>
          simp only [hi, if_true]
          exact iteration_header_control h hf hc hstream hlive hlt hparse hi
            (hcontrol.symm.trans hi) hmask (hctl hi).1 (hctl hi).2 env
      | false =>
          have hop : f.opcode ≤ 2 := by
            have h8 : decide (8 ≤ f.opcode) = false := hcontrol.symm.trans hi
            have hk : f.opcode ≤ 2 ∨ 8 ≤ f.opcode ∧ f.opcode ≤ 10 := by
              simpa [knownOpcode] using hknown
            have := of_decide_eq_false h8
            omega
          obtain ⟨hnone, hsome⟩ := iteration_header_data h hf hc hstream hlive hlt hparse hi
            (hcontrol.symm.trans hi) hop hmask env
          simp only [hi, Bool.false_eq_true, if_false]
          cases hopen : openStream (s.setRecv { s.recv with header := {} }).recv f with
          | none => exact hnone hopen
          | some r => exact hsome r hopen

/-- **One iteration of the receive loop.** -/
theorem iteration_cases {s : Cws} {buf : List Byte} (h : s.closeState.received = false)
    (hshape : Shape s.core) (hbuf : buf ≠ []) (env : Env) :
    Iteration s buf (cwsProcessFrame env s buf).1 (cwsProcessFrame env s buf).2 := by
  obtain ⟨hpend, hstream, hheld, hlive⟩ := hshape
  have hpos : 0 < buf.length := List.length_pos_of_ne_nil hbuf
  simp only [core_recv] at hpend hstream hheld
  cases hheld with
  | @control f hf hi hlen hmax hb =>
      have hstep : cwsProcessFrame env s buf = processPayload env s f buf := by
        simp only [core_recv] at hf
        simp only [cwsProcessFrame, hf]
      rw [hstep]
      obtain ⟨hq, hs, hclose, -, hlt, hm⟩ :=
        iterate_control h hi hpend hb hlen.le hmax hstream hlive env buf
      refine .quiet hq (fun ho => ⟨hs ho, hlt hlen hpos⟩) hclose fun t => ?_
      rw [hm, Core.meaning_control h hf hi]
      rfl
  | @data f hf hi hlen hc hopen hb =>
      have hstep : cwsProcessFrame env s buf = processPayload env s f buf := by
        simp only [core_recv] at hf
        simp only [cwsProcessFrame, hf]
      rw [hstep]
      cases hstream with
      | idle _ _ hnone _ => exact absurd hnone hopen
      | @inside k d hr =>
          cases hr with
          | next hs hfi hcur hstart =>
              refine iteration_data h hi hpend hb hc (.next hs hfi hcur hstart) hlive ⟨rfl, rfl⟩ rfl
                le_rfl (.inl ⟨hlen, hpos⟩) (fun t => ?_) env
              rw [Core.meaning_data h hf hi hcur, startItem, if_pos rfl, List.append_nil]
  | nothing hf hc => exact iteration_header h hf hc hpend hstream hlive hbuf env

end CurlWs
