import CurlWs.Receive.Effect
import CurlWs.Receive.Observe

/-!
# The stages of the receive path

What each function of `receive.c` does to the receive state and to what has been received, with the
callbacks in it taken for what they are seen to be.

**The core.**  `Cws.core` is that much of a connection: the receive state, whether a close has been
received, what has been received according to the trace, and the pieces of payload.  It is a
function of the view, so a user function that is called in between leaves it alone.

**Small steps.**  Logging an event, calling a user function, closing the connection: each has its
lemma about the core, and the functions of the source are put together from them.

**A piece of a message.**  `Seen.afterPiece` and `Recv.afterPiece` are what is left when a piece has
been taken: the fragment delivered, the message completed if the piece is the last, and the rest of
the frame still to come.  The fields of the former are given one by one, and proofs use these.

## Main results

* **`core_sendDataFrame`**, **`core_processDataFrame`** — a piece of a message.
* **`core_handleClose`**, **`core_processControlFrame`** — a control frame.
-/

namespace CurlWs

open WebSocket

/-! ## The core of a connection

The core, and what the small operations do to it. -/

/-- The calls of `_process_data_frame` in a trace. -/
def dataPieces (trace : List Event) : List Piece :=
  trace.filterMap fun
    | .payload piece => some piece
    | _ => none

/-- The receive state, whether the connection has been closed by the receive path, and what has been
received. -/
structure Core where
  recv : Recv
  received : Bool
  seen : Seen
  pieces : List Piece

/-- The core, as far as a view shows it. -/
def View.core (v : View) : Core := ⟨v.recv, v.received, v.seen, dataPieces v.trace⟩

/-- The core of a connection. -/
def Cws.core (s : Cws) : Core := s.view.core

/-- What has been received is in the trace. -/
lemma core_seen (s : Cws) : s.core.seen = observe s.trace := view_seen s

/-- A piece is a receive event. -/
lemma core_pieces (s : Cws) : s.core.pieces = dataPieces s.trace := by
  rw [Cws.core, View.core, Cws.view, dataPieces, dataPieces, List.filterMap_filter]
  refine congrArg (List.filterMap · s.trace) (funext fun e => ?_)
  cases e <;> rfl

/-- The receive state is the connection's. -/
@[simp] lemma core_recv (s : Cws) : s.core.recv = s.recv := rfl

/-- The receive state is part of the core. -/
lemma recv_of_core {s : Cws} {c : Core} (h : s.core = c) : s.recv = c.recv := congrArg Core.recv h

@[simp] lemma core_received (s : Cws) : s.core.received = s.closeState.received := rfl

@[simp] lemma core_setRecv (s : Cws) (r : Recv) :
    (s.setRecv r).core = { s.core with recv := r } := rfl

@[simp] lemma setRecv_recv (s : Cws) (r : Recv) : (s.setRecv r).recv = r := rfl

@[simp] lemma setRecv_received (s : Cws) (r : Recv) :
    (s.setRecv r).closeState.received = s.closeState.received := rfl

/-- Connections with the same view have the same core. -/
lemma core_congr {s s' : Cws} (h : s.view = s'.view) : s.core = s'.core := congrArg View.core h

namespace View

lemma core_log (v : View) (e : Event) :
    (v.log e).core = { v.core with
      seen := v.core.seen.record e, pieces := v.core.pieces ++ dataPieces [e] } := by
  rw [core, seen_log]
  simp only [log, dataPieces, List.filterMap_append]
  rfl

@[simp] lemma core_log_write (v : View) (i j : ℕ) : (v.log (.controlWrite i j)).core = v.core := by
  rw [core_log]
  simp [Seen.record, dataPieces]

/-- A callback other than `on_fragment` says nothing about what has been received. -/
lemma core_call (v : View) (installed : Bool) {c : Callback}
    (hc : ∀ S d, Seen.record S (.callback c d) = S) : (v.call installed c).core = v.core := by
  rw [call]
  split_ifs
  · rw [core_log, hc]
    simp [dataPieces]
  · rfl

/-- A message that is delivered says nothing more. -/
lemma core_message (v : View) (isBinary : Bool) (buffer : Option (List Byte)) :
    (v.message isBinary buffer).core = v.core := by
  rw [message]
  split_ifs
  · exact core_call v _ fun _ _ => rfl
  · exact core_call v _ fun _ _ => rfl

lemma core_append (v : View) (info : Flags) (buffer : Option (List Byte)) :
    (v.append info buffer).core = v.core := by
  simp only [append]
  split_ifs <;> rfl

lemma core_defaultOnFragment (v : View) (info : Flags) (buffer : Option (List Byte)) :
    (v.defaultOnFragment info buffer).core = v.core := by
  simp only [defaultOnFragment]
  split_ifs
  · exact core_message ..
  · exact (core_message ..).trans (core_append ..)
  · exact core_append ..

/-- A fragment is received when `on_fragment` is called for it. -/
lemma core_onFragment (v : View) (info : Flags) (buffer : Option (List Byte)) :
    (v.onFragment info buffer).core
      = { v.core with seen := v.core.seen.fragment info (buffer.getD []) } := by
  have hlog : (v.log (.callback (.onFragment info buffer) v.dispatching)).core
      = { v.core with seen := v.core.seen.fragment info (buffer.getD []) } := by
    rw [core_log]
    simp [Seen.record, dataPieces]
  simp only [onFragment]
  split_ifs
  · exact hlog
  · rw [core_defaultOnFragment, hlog]

/-- Delivering a piece closes nothing and takes no other piece. -/
lemma core_sendFragment (v : View) (info : Flags) (buffer : Option (List Byte)) :
    (v.sendFragment info buffer).received = v.received ∧
      (v.sendFragment info buffer).core.pieces = v.core.pieces := by
  rw [sendFragment]
  split_ifs
  · have hcore := core_onFragment { v with dispatching := v.dispatching + 1 } info buffer
    have hpieces := congrArg Core.pieces hcore
    exact ⟨congrArg Core.received hcore, hpieces⟩
  · exact ⟨rfl, rfl⟩

/-- Closing, as long as no close has been received. -/
lemma core_close (v : View) (code : ℤ) (h : v.received = false) :
    (v.close code).core
      = { v.core with received := true, seen := v.core.seen.record (.closing code) } := by
  rw [close, if_neg (by simp [h]), core_log]
  simp [core, dataPieces, seen]

end View

/-! ## Closing

The connection is failed, or a close frame is answered. -/

/-- **`_error_close`** sets `CLOSE_RECEIVED` and leaves the status in the trace. -/
lemma core_errorClose {s : Cws} (h : s.closeState.received = false) (env : Env) (code : ℤ)
    (reason : Option (List Byte)) (len : ℕ) :
    (errorClose env s code reason len).core
      = { s.core with received := true, seen := s.core.seen.record (.closing code) } :=
  (congrArg View.core (view_errorClose env s code reason len)).trans (View.core_close _ code h)

/-- `on_close` says nothing about what has been received. -/
lemma core_cbOnClose (env : Env) (s : Cws) (code : ℤ) (text : Option (List Byte)) (len : ℕ) :
    (cbOnClose env s code text len).core = s.core :=
  (congrArg View.core (view_cbOnClose env s code text len)).trans
    (View.core_call _ _ fun _ _ => rfl)

/-- After a close frame, no status says anything more. -/
lemma Seen.record_closing {S : Seen} (h : S.isClosed = true) (code : ℤ) :
    S.record (.closing code) = S := by
  simp [record, h]

/-- **A close frame** closes the connection, whatever is in it. -/
theorem core_handleClose {s : Cws} (h : s.closeState.received = false)
    (hs : s.core.seen.isClosed = true) (env : Env) (len : ℕ) :
    (handleClose env s len).core = { s.core with received := true } := by
  have hclose (s' : Cws) (hs' : s'.core = s.core) (code : ℤ) (reason : Option (List Byte))
      (n : ℕ) : (errorClose env s' code reason n).core = { s.core with received := true } := by
    have h' : s'.closeState.received = false := (congrArg Core.received hs').trans h
    rw [core_errorClose h', hs', Seen.record_closing hs]
  have haccept (s' : Cws) (hs' : s'.core = s.core) (status : ℤ) (reason : Option (List Byte))
      (n : ℕ) : (acceptClose env s' status reason n).core = { s.core with received := true } :=
    hclose _ ((core_cbOnClose ..).trans hs') _ _ _
  have hwrite : (s.log (.controlWrite len (len + 1))).core = s.core := by
    rw [Cws.core, view_log rfl, View.core_log_write]
    rfl
  simp only [handleClose]
  split_ifs
  · exact hclose s rfl _ _ _
  · exact hclose s rfl _ _ _
  · exact hclose _ hwrite _ _ _
  · exact haccept _ hwrite _ _ _
  · exact haccept s rfl _ _ _

/-! ## Data frames

A piece of payload, taken or refused. -/

@[simp] lemma core_enterDispatch (s : Cws) : s.enterDispatch.core = s.core := rfl

@[simp] lemma core_leaveDispatch (s : Cws) : s.leaveDispatch.core = s.core := rfl

/-- A call of `on_fragment` is how a fragment is received. -/
lemma core_cbOnFragment (env : Env) (s : Cws) (info : Flags) (buffer : Option (List Byte)) :
    (cbOnFragment env s info buffer).core
      = { s.core with seen := s.core.seen.fragment info (buffer.getD []) } :=
  (congrArg View.core (view_cbOnFragment env s info buffer)).trans (View.core_onFragment ..)

/-- The markers after a piece. -/
lemma nextInfo_finalInfo (k : Kind) (begun last : Bool) :
    (finalInfo k begun last &&& ~~~cwsNonctrlMask ||| cwsCont) &&& ~~~cwsFirst
      = if last then cwsCont ||| cwsLast else cwsCont := by
  cases k <;> cases begun <;> cases last <;> rfl

/-- A call of `on_fragment` is left out only for an empty piece in the middle of a message. -/
lemma Piece.sentInfo_eq {p : Piece} {k : Kind} {begun : Bool} (hinfo : p.info = pieceInfo k begun) :
    p.sentInfo = finalInfo k begun (decide p.Final) := by
  rw [sentInfo, finalInfo, hinfo]
  simp only [decide_eq_true_eq]

/-- The call is not left out for a first or a last piece. -/
lemma mustCall_finalInfo (k : Kind) (begun last : Bool) :
    (cwsFirst ||| cwsLast) &&& finalInfo k begun last ≠ 0 ↔ ¬ (begun = true ∧ last = false) := by
  cases k <;> cases begun <;> cases last <;>
    simp [finalInfo, pieceInfo, kindFlag, cwsFirst, cwsLast, cwsText, cwsBinary, cwsCont]

/-- The receive state after a piece that leaves `f` of its frame. -/
def Recv.afterPiece (r : Recv) (f : CwsFrame) : Recv :=
  { r with
    frame := if f.payloadLen = 0 then none else some f
    fragmentInfo := if f.payloadLen = 0 ∧ f.fin then 0 else cwsCont
    streamType := if f.payloadLen = 0 ∧ f.fin then 0 else r.streamType }

/-- What has been received after a piece `p` of a message, of which `buf` is delivered. -/
def Seen.afterPiece (S : Seen) (k : Kind) (begun : Bool) (d p buf : List Byte) (last : Bool) :
    Seen :=
  ({ S with items := S.items ++ startItem k begun, wire := S.wire ++ p } : Seen).extend k
    (d ++ buf) last

section
variable (S : Seen) (k : Kind) (begun : Bool) (d p buf : List Byte) (last : Bool)

/-- The message begins with its first piece and is there with its last. -/
lemma Seen.items_afterPiece : (S.afterPiece k begun d p buf last).items
    = S.items ++ startItem k begun ++ if last then [.message k (S.wire ++ p)] else [] := by
  cases last <;> simp [afterPiece, extend]

/-- A message is completed by its last piece. -/
lemma Seen.messages_afterPiece : messages (S.afterPiece k begun d p buf last).items
    = messages S.items ++ if last then [(k, S.wire ++ p)] else [] := by
  cases begun <;> cases last <;> simp [afterPiece, extend, startItem, messages]

/-- What has been delivered of it is complete then, too. -/
lemma Seen.deliveries_afterPiece : (S.afterPiece k begun d p buf last).deliveries
    = S.deliveries ++ if last then [(k, d ++ buf)] else [] := by
  cases last <;> simp [afterPiece, extend]

lemma Seen.current_afterPiece : (S.afterPiece k begun d p buf last).current
    = if last then none else some (k, d ++ buf) := by
  cases last <;> simp [afterPiece, extend]

lemma Seen.wire_afterPiece : (S.afterPiece k begun d p buf last).wire
    = if last then [] else S.wire ++ p := by
  cases last <;> simp [afterPiece, extend]

end

/-- **`_send_data_frame`** for a piece `p` of a message. -/
theorem core_sendDataFrame {s : Cws} {S : Seen} {k : Kind} {begun : Bool} {d p : List Byte}
    (hr : Ready s.recv S k begun d) (hseen : s.core.seen = { S with wire := S.wire ++ p })
    (env : Env) (f : CwsFrame) (buffer : Option (List Byte)) :
    (sendDataFrame env s f buffer).core =
      { s.core with
        recv := s.recv.afterPiece f
        seen := S.afterPiece k begun d p (buffer.getD []) (f.payloadLen = 0 ∧ f.fin) } := by
  generalize hlast : decide (f.payloadLen = 0 ∧ f.fin = true) = last
  have hinfo : (if f.payloadLen = 0 ∧ f.fin = true then s.recv.fragmentInfo ||| cwsLast
      else s.recv.fragmentInfo) = finalInfo k begun last := by
    rw [hr.fragmentInfo, finalInfo, ← hlast]
    simp only [decide_eq_true_eq]
  have hend : ∀ s' : Cws, s'.core = { s.core with
        recv := { s.recv with fragmentInfo := finalInfo k begun last }
        seen := S.afterPiece k begun d p (buffer.getD []) last } →
      (if cwsLast &&& (if last then cwsCont ||| cwsLast else cwsCont) ≠ 0 then
        s'.setRecv { s'.recv with
          frame := if f.payloadLen = 0 then none else some f, fragmentInfo := 0, streamType := 0 }
      else
        s'.setRecv { s'.recv with
          frame := if f.payloadLen = 0 then none else some f
          fragmentInfo := if last then cwsCont ||| cwsLast else cwsCont }).core =
      { s.core with
        recv := s.recv.afterPiece f, seen := S.afterPiece k begun d p (buffer.getD []) last } := by
    intro s' hs'
    have hrecv : s'.recv = { s.recv with fragmentInfo := finalInfo k begun last } :=
      recv_of_core hs'
    cases last with
    | true =>
        have hdone : f.payloadLen = 0 ∧ f.fin = true := by simpa using hlast
        rw [if_pos rfl, if_pos (by simp [cwsLast, cwsCont]), core_setRecv, hs', hrecv]
        simp [Recv.afterPiece, hdone]
    | false =>
        have hdone : ¬ (f.payloadLen = 0 ∧ f.fin = true) := by simpa using hlast
        rw [if_neg Bool.false_ne_true, if_neg (by simp [cwsLast, cwsCont]), core_setRecv, hs',
          hrecv]
        simp only [Recv.afterPiece, if_neg hdone]
  simp only [sendDataFrame, hinfo, nextInfo_finalInfo, mustCall_finalInfo]
  refine hend _ ?_
  generalize hb : (if buffer.getD [] = [] then none else buffer) = b
  have hget : b.getD [] = buffer.getD [] := by
    rw [← hb]
    split_ifs with h
    · rw [h]
      rfl
    · rfl
  split_ifs with hcall
  · rw [core_leaveDispatch, core_cbOnFragment, core_enterDispatch, core_setRecv]
    simp only [hseen, hget, Seen.fragment_ready hr, Seen.afterPiece]
  · obtain ⟨hnone, hmid⟩ := not_or.mp hcall
    obtain ⟨rfl, rfl⟩ := not_not.mp hmid
    have hnil : buffer.getD [] = [] := by rw [← hget, not_not.mp hnone]; rfl
    have hquiet := Seen.fragment_nil hr p
    rw [Seen.fragment_ready hr] at hquiet
    rw [hnil, Seen.afterPiece, hquiet, ← hseen, core_setRecv]

/-- The payload of a piece is taken off the wire. -/
lemma core_log_payload (s : Cws) (p : Piece) :
    (s.log (.payload p)).core = { s.core with
      seen := { s.core.seen with wire := s.core.seen.wire ++ p.bytes }
      pieces := s.core.pieces ++ [p] } := by
  rw [Cws.core, view_log rfl, View.core_log]
  rfl

/-- **`_process_data_frame`** on a piece it refuses. -/
theorem core_processDataFrame_refused {s : Cws} {f : CwsFrame} {buf : List Byte}
    (h : s.closeState.received = false) (hres : (s.recv.piece f buf).result.rv < 0) (env : Env) :
    (processDataFrame env s f buf).2 = buf ∧
      (processDataFrame env s f buf).1.core =
        { recv := { s.recv with utf8 := (s.recv.piece f buf).result.utf8 }
          received := true
          seen := { s.core.seen with wire := s.core.seen.wire ++ (s.recv.piece f buf).bytes }
          pieces := s.core.pieces ++ [s.recv.piece f buf] } := by
  simp only [processDataFrame, if_pos hres, true_and]
  rw [core_errorClose (by exact h), core_setRecv, core_log_payload]
  simp [Seen.record, protocolError, Cws.log]

/-- **`_process_data_frame`** on a piece it takes. -/
theorem core_processDataFrame {s : Cws} {f : CwsFrame} {buf : List Byte} {k : Kind} {begun : Bool}
    {d : List Byte} (hr : Ready s.recv s.core.seen k begun d)
    (hres : ¬ (s.recv.piece f buf).result.rv < 0) (env : Env) :
    let p := s.recv.piece f buf
    let f' : CwsFrame := { f with payloadLen := f.payloadLen - p.bytes.length }
    (processDataFrame env s f buf).2 = buf.drop p.bytes.length ∧
      (processDataFrame env s f buf).1.core =
        { recv := Recv.afterPiece { s.recv with utf8 := p.result.utf8 } f'
          received := s.closeState.received
          seen := s.core.seen.afterPiece k begun d p.bytes (p.result.toSend.getD [])
            (f'.payloadLen = 0 ∧ f'.fin)
          pieces := s.core.pieces ++ [p] } := by
  intro p f'
  simp only [processDataFrame, if_neg hres]
  refine ⟨rfl, ?_⟩
  have hr' : Ready { s.recv with frame := some f', utf8 := p.result.utf8 } s.core.seen k begun d :=
    hr.congr rfl rfl
  have hcore := core_log_payload s p
  rw [core_sendDataFrame (p := p.bytes) hr' (by rw [core_setRecv, hcore]), core_setRecv, hcore]
  rfl

/-! ## Control frames

A part of a control frame, or all of it. -/

lemma core_cbOnPing (env : Env) (s : Cws) (buf : List Byte) :
    (cbOnPing env s buf).core = s.core := by
  rw [Cws.core, view_cbOnPing, View.core_log]
  simp [Seen.record, dataPieces, Cws.core]

lemma core_cbOnPong (env : Env) (s : Cws) (buf : List Byte) : (cbOnPong env s buf).core = s.core :=
  (congrArg View.core (view_cbOnPong env s buf)).trans (View.core_call _ _ fun _ _ => rfl)

/-- A control frame is received when it is complete. -/
lemma core_log_controlFrame (s : Cws) (opcode : ℕ) (p : List Byte) :
    (s.log (.controlFrame opcode p)).core
      = { s.core with seen := s.core.seen.control opcode p } := by
  rw [Cws.core, view_log rfl, View.core_log]
  simp [Seen.record, dataPieces, Cws.core]

lemma core_log_controlWrite (s : Cws) (i j : ℕ) : (s.log (.controlWrite i j)).core = s.core := by
  rw [Cws.core, view_log rfl, View.core_log_write]
  rfl

/-- A close frame closes the connection. -/
lemma Seen.isClosed_control {S : Seen} {opcode : ℕ} (h9 : opcode ≠ 9) (h10 : opcode ≠ 10)
    (p : List Byte) : (S.control opcode p).isClosed = true := by
  simp [control, isClosed, h9, h10, Item.isClosing]

lemma Seen.isClosed_control_of_open {S : Seen} {opcode : ℕ} (h : opcode = 9 ∨ opcode = 10)
    (p : List Byte) : (S.control opcode p).isClosed = S.isClosed := by
  rcases h with rfl | rfl <;> simp [control, isClosed, Item.isClosing]

lemma Seen.isClosed_afterPiece (S : Seen) (k : Kind) (begun : Bool) (d p buf : List Byte)
    (last : Bool) : (S.afterPiece k begun d p buf last).isClosed = S.isClosed := by
  cases begun <;> cases last <;>
    simp [afterPiece, extend, isClosed, startItem, Item.isClosing]

/-- **`_process_control_frame`**: the frame is not complete yet, or it is a ping or a pong, or it
is a close frame. -/
theorem core_processControlFrame {s : Cws} (h : s.closeState.received = false) (env : Env)
    (f : CwsFrame) (buf : List Byte) :
    let control := s.recv.control ++ buf.take (controlTake s.recv f buf)
    let r := processControlFrame env s f buf
    r.2 = buf.drop (controlTake s.recv f buf) ∧
      (control.length ≠ f.payloadLen ∧
          r.1.core = { s.core with recv := { s.recv with control } } ∨
        control.length = f.payloadLen ∧ (f.opcode = 9 ∨ f.opcode = 10) ∧
          r.1.core = { s.core with
            recv := s.recv.afterControl, seen := s.core.seen.control f.opcode control } ∨
        control.length = f.payloadLen ∧ ¬ (f.opcode = 9 ∨ f.opcode = 10) ∧
          r.1.core = { s.core with
            recv := { s.recv with control, frame := none }, received := true
            seen := s.core.seen.control f.opcode control }) := by
  intro control
  generalize hs₁ : (s.setRecv { s.recv with control }).log (.controlWrite s.recv.control.length
    (s.recv.control.length + controlTake s.recv f buf)) = s₁
  have hcore : s₁.core = { s.core with recv := { s.recv with control } } := by
    rw [← hs₁, core_log_controlWrite, core_setRecv]
  have hcontrol : s₁.recv.control = control := congrArg (·.recv.control) hcore
  simp only [processControlFrame]
  rw [hs₁, hcontrol]
  by_cases hlen : control.length = f.payloadLen
  · rw [if_pos hlen]
    generalize hs₂ : s₁.log (.controlFrame f.opcode control) = s₂
    have hlog : s₂.core = { s.core with
        recv := { s.recv with control }, seen := s.core.seen.control f.opcode control } := by
      rw [← hs₂, core_log_controlFrame, hcore]
    have hend (s' : Cws) (hs' : s'.core = s₂.core) : (s'.setRecv s'.recv.afterControl).core =
        { s.core with
          recv := s.recv.afterControl, seen := s.core.seen.control f.opcode control } := by
      have hrecv : s'.recv = { s.recv with control } := recv_of_core (hs'.trans hlog)
      rw [core_setRecv, hs', hlog, hrecv]
      rfl
    by_cases h9 : f.opcode = 9
    · rw [if_pos (show f.opcode = wsOpcodePing from h9)]
      exact ⟨rfl, .inr (.inl ⟨hlen, .inl h9, hend _ (core_cbOnPing ..)⟩)⟩
    · rw [if_neg (show ¬ f.opcode = wsOpcodePing from h9)]
      by_cases h10 : f.opcode = 10
      · rw [if_pos (show f.opcode = wsOpcodePong from h10)]
        exact ⟨rfl, .inr (.inl ⟨hlen, .inr h10, hend _ (core_cbOnPong ..)⟩)⟩
      · rw [if_neg (show ¬ f.opcode = wsOpcodePong from h10)]
        refine ⟨rfl, .inr (.inr ⟨hlen, not_or.mpr ⟨h9, h10⟩, ?_⟩)⟩
        have hclosed : s₂.core.seen.isClosed = true := by
          rw [hlog]
          exact Seen.isClosed_control h9 h10 control
        have hopen₂ : s₂.closeState.received = false := (congrArg Core.received hlog).trans h
        have hclose := core_handleClose hopen₂ hclosed env f.payloadLen
        rw [hlog] at hclose
        rw [core_setRecv, hclose, recv_of_core hclose]
  · rw [if_neg hlen]
    exact ⟨rfl, .inl ⟨hlen, hcore⟩⟩

end CurlWs
