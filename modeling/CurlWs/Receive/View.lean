import CurlWs.Model.Run

/-!
# What the receive path works on

The public functions and the drain of the queue leave alone everything the receive path reads: the
receive state, the accumulation of the default handler, the nesting count and `CLOSE_RECEIVED`.
`Cws.view` collects these, with the part of the trace the receive path writes.

**Why a view.**  A callback may call any public function, and these queue frames, change the close
state and the output.  Nothing of that is in the view.  So every call of a user function is one
event as far as the view is concerned, and what is proved about the receive path holds for any
application.

**The order.**  First the small operations, then the functions of the sending side, each leaving the
view as it is, then a public function as a whole.  The callbacks and the functions of `handlers.c`
come last, each with its counterpart on views.

## Main results

* **`view_apiCall`**, **`view_sendCb`** — a call of a public function and a drain do not change the
  view.
* **`view_userCallback`** — so whatever a callback does, all that is seen of it here is that it was
  called.
-/

namespace CurlWs

/-- The events the receive path writes. -/
def Event.isReceive : Event → Bool
  | .callback .. | .closing .. | .payload .. | .controlFrame .. | .controlWrite .. => true
  | .queued .. | .allocFailed .. | .closeCall .. | .closeState .. | .sent .. => false

/-- What the receive path works on. -/
structure View where
  cfg : Cfg
  recv : Recv
  streamType : Flags
  streamBuffer : List Byte
  dispatching : UInt8
  headerState : HeaderMap
  received : Bool
  trace : List Event

/-- Record an event. -/
def View.log (v : View) (e : Event) : View := { v with trace := v.trace ++ [e] }

/-- The view of a connection. -/
def Cws.view (s : Cws) : View where
  cfg := s.cfg
  recv := s.recv
  streamType := s.streamType
  streamBuffer := s.streamBuffer
  dispatching := s.dispatching
  headerState := s.headerState
  received := s.closeState.received
  trace := s.trace.filter Event.isReceive

/-! ## The small operations

Events of the sending side are not in the view. -/

/-- An event of the receive path is seen. -/
lemma view_log {e : Event} (h : e.isReceive = true) (s : Cws) :
    (s.log e).view = s.view.log e := by
  simp [Cws.view, Cws.log, View.log, h]

/-- An event of the sending side is not. -/
lemma view_log_send {e : Event} (h : e.isReceive = false) (s : Cws) : (s.log e).view = s.view := by
  simp [Cws.view, Cws.log, h]

@[simp] lemma view_tick (s : Cws) : s.tick.view = s.view := rfl

@[simp] lemma view_unpauseSend (s : Cws) : s.unpauseSend.view = s.view := rfl

@[simp] lemma view_verboseClose (s : Cws) : s.verboseClose.view = s.view := by
  rw [Cws.verboseClose, view_log_send rfl]

/-! ## The sending side

No function that queues or drains is seen. -/

/-- **`send_frame`** is not seen. -/
@[simp] lemma view_sendFrame (env : Env) (s : Cws) (f : CwsFrame) :
    (sendFrame env s f).2.view = s.view := by
  rw [sendFrame]
  split_ifs with h
  · rw [view_unpauseSend, view_log_send rfl]
    rfl
  · rw [view_log_send rfl, view_tick]

@[simp] lemma view_frameSenderControl (env : Env) (s : Cws) (options : Flags)
    (data : Option (List Byte)) (len : ℕ) :
    (frameSenderControl env s options data len).2.view = s.view := by
  simp only [frameSenderControl]
  split_ifs <;> simp

@[simp] lemma view_frameSenderData (env : Env) (s : Cws) (options : Flags)
    (data : Option (List Byte)) (len : ℕ) :
    (frameSenderData env s options data len).2.view = s.view := by
  simp only [frameSenderData]
  split
  · rfl
  · cases dataOpcode s.lastSentDataFrameInfo options with
    | error e => rfl
    | ok opcode =>
        simp only
        split
        · rfl
        · rw [view_sendFrame, view_tick]
          rfl

lemma view_dataBlockLoop (env : Env) (fuel : ℕ) : ∀ (s : Cws) (options : Flags)
    (buffer : List Byte) (len : ℕ),
    (dataBlockLoop env fuel s options buffer len).2.view = s.view := by
  induction fuel with
  | zero =>
      intro s options buffer len
      exact view_frameSenderData ..
  | succ fuel ih =>
      intro s options buffer len
      simp only [dataBlockLoop]
      split_ifs
      · exact view_frameSenderData ..
      · rw [ih, view_frameSenderData]
      · exact view_frameSenderData ..

@[simp] lemma view_dataBlockSender (env : Env) (s : Cws) (options : Flags)
    (data : Option (List Byte)) (len : ℕ) :
    (dataBlockSender env s options data len).2.view = s.view := by
  simp only [dataBlockSender]
  split_ifs
  · rfl
  · rfl
  · rcases data with _ | buffer
    · exact view_frameSenderData ..
    · rcases len with _ | len
      · exact view_frameSenderData ..
      · exact view_dataBlockLoop ..

@[simp] lemma view_sendStream (env : Env) (s : Cws) (type info : Flags)
    (data : Option (List Byte)) (len : ℕ) :
    (sendStream env s type info data len).2.view = s.view := by
  simp only [sendStream]
  split_ifs <;> simp

@[simp] lemma view_cwsClose (env : Env) (s : Cws) (code : ℤ) (reason : Option (List Byte))
    (len : ℕ) : (cwsClose env s code reason len).2.view = s.view := by
  have hlog : (s.log (.closeCall code reason len s.closeState.queued)).view = s.view :=
    view_log_send rfl s
  have hqueued (s : Cws) :
      ({ s with closeState := { s.closeState with queued := true } } : Cws).view = s.view := rfl
  simp only [cwsClose]
  split
  · exact hlog
  · cases normalizeCloseInputs code reason len with
    | error e => exact hlog
    | ok c =>
        simp only
        split_ifs <;> simp [hqueued, hlog]

/-- **A call of a public function** does not change the view. -/
@[simp] theorem view_apiCall (env : Env) (s : Cws) (c : ApiCall) :
    (apiCall env s c).2.view = s.view := by
  cases c with
  | ping data len => exact view_frameSenderControl ..
  | pong data len => exact view_frameSenderControl ..
  | close code reason len => exact view_cwsClose ..
  | sendBlkBinary data len =>
      simp only [apiCall, cwsSendBlkBinary]
      split_ifs <;> simp
  | sendBlkText text len =>
      rcases text with _ | text <;> simp only [apiCall, cwsSendBlkText] <;> split_ifs <;> simp
  | sendStrmBinary info data len => exact view_sendStream ..
  | sendStrmText info text len =>
      rcases text with _ | text
      · exact view_sendStream ..
      · simp only [apiCall, cwsSendStrmText]
        split
        · split <;> simp
        · exact view_sendStream ..
  | destroy =>
      simp only [apiCall, cwsDestroy]
      split_ifs <;> rfl

/-- Any number of calls, one after the other. -/
@[simp] lemma view_apiCalls (env : Env) (calls : List ApiCall) : ∀ s : Cws,
    (apiCalls env s calls).view = s.view := by
  induction calls with
  | nil => intro s; rfl
  | cons c calls ih => intro s; exact (ih _).trans (view_apiCall env s c)

@[simp] lemma view_closeSent (s : Cws) : (closeSent s).view = s.view :=
  view_verboseClose { s with closeState := { s.closeState with sent := true } }

/-- The loop that fills curl's buffer. -/
lemma view_fillLoop (fuel : ℕ) : ∀ (s : Cws) (len dataToSend : ℕ),
    (fillLoop fuel s len dataToSend).2.view = s.view := by
  induction fuel with
  | zero => intro s len dataToSend; rfl
  | succ fuel ih =>
      intro s len dataToSend
      by_cases h : len = 0 ∨ dataToSend = 0
      · rw [fillLoop_stop _ h]
      · rcases hs : s.send with _ | ⟨head, rest⟩
        · simp only [fillLoop, hs]
        · rw [fillLoop_cons hs fuel (by omega) (by omega) rfl]
          simp only
          split_ifs
          · exact view_closeSent s
          · exact ih ..
          · exact ih ..

/-- **A drain of the queue** does not change the view. -/
@[simp] theorem view_sendCb (s : Cws) (len : ℕ) : (sendCb s len).2.view = s.view := by
  simp only [sendCb, fillOutgoingBuffer]
  split_ifs
  · rfl
  · exact view_verboseClose _
  · rfl
  · rw [view_log_send rfl]
    split
    · rfl
    · exact view_fillLoop ..

/-! ## Callbacks

The handlers of the source, as functions of views. -/

namespace View

/-- A user function is called, if there is one. -/
def call (v : View) (installed : Bool) (c : Callback) : View :=
  if installed then v.log (.callback c v.dispatching) else v

/-- A complete message from the default fragment handler. -/
def message (v : View) (isBinary : Bool) (buffer : Option (List Byte)) : View :=
  if isBinary then v.call v.cfg.cb.onBinary (.onBinary buffer)
  else v.call v.cfg.cb.onText (.onText buffer)

/-- A fragment is added to what the default handler has. -/
def append (v : View) (info : Flags) (buffer : Option (List Byte)) : View :=
  let v :=
    if cwsFirst &&& info ≠ 0 then
      { v with streamType := (cwsBinary ||| cwsText) &&& info, streamBuffer := [] }
    else v
  { v with streamBuffer := v.streamBuffer ++ buffer.getD [] }

/-- The default fragment handler. -/
def defaultOnFragment (v : View) (info : Flags) (buffer : Option (List Byte)) : View :=
  if cwsFirst ||| cwsLast = (cwsFirst ||| cwsLast) &&& info then
    v.message (cwsBinary &&& info ≠ 0) buffer
  else
    let v := v.append info buffer
    if cwsLast &&& info ≠ 0 then
      let v := v.message (cwsBinary &&& v.streamType ≠ 0) (bufferPtr v.streamBuffer)
      { v with streamBuffer := [] }
    else v

/-- A fragment goes to the user or to the default handler. -/
def onFragment (v : View) (info : Flags) (buffer : Option (List Byte)) : View :=
  let u := v.log (.callback (.onFragment info buffer) v.dispatching)
  if v.cfg.cb.onFragment then u else u.defaultOnFragment info buffer

/-- The connection is failed, or the server's close is answered. -/
def close (v : View) (code : ℤ) : View :=
  if v.received then v else { v with received := true }.log (.closing code)

end View

/-- The answer to the value a callback returns is a close, which is output. -/
@[simp] lemma view_processRv (env : Env) (s : Cws) (code : ℤ) :
    (processRv env s code).view = s.view := by
  simp only [processRv]
  split_ifs <;> simp

/-- **A callback**: all that is seen of it here is that it was called. -/
theorem view_userCallback (env : Env) (s : Cws) (c : Callback) :
    (userCallback env s c).view = s.view.log (.callback c s.dispatching) := by
  rw [userCallback, view_processRv, view_apiCalls, view_tick, view_log rfl]

/-- A function that may not be installed. -/
lemma view_cbOnConnect (env : Env) (s : Cws) (protocols : Option (List Byte)) :
    (cbOnConnect env s protocols).view
      = s.view.call s.cfg.cb.onConnect (.onConnect protocols) := by
  rw [cbOnConnect, View.call]
  split_ifs
  · exact view_userCallback ..
  · rfl

lemma view_cbOnText (env : Env) (s : Cws) (text : Option (List Byte)) :
    (cbOnText env s text).view = s.view.call s.cfg.cb.onText (.onText text) := by
  rw [cbOnText, View.call]
  split_ifs
  · exact view_userCallback ..
  · rfl

lemma view_cbOnBinary (env : Env) (s : Cws) (buf : Option (List Byte)) :
    (cbOnBinary env s buf).view = s.view.call s.cfg.cb.onBinary (.onBinary buf) := by
  rw [cbOnBinary, View.call]
  split_ifs
  · exact view_userCallback ..
  · rfl

lemma view_cbOnPong (env : Env) (s : Cws) (buf : List Byte) :
    (cbOnPong env s buf).view = s.view.call s.cfg.cb.onPong (.onPong buf) := by
  rw [cbOnPong, View.call]
  split_ifs
  · exact view_userCallback ..
  · rfl

/-- A ping is always answered, by the application or by default. -/
lemma view_cbOnPing (env : Env) (s : Cws) (buf : List Byte) :
    (cbOnPing env s buf).view = s.view.log (.callback (.onPing buf) s.dispatching) := by
  rw [cbOnPing]
  split_ifs
  · exact view_userCallback ..
  · exact (view_frameSenderControl ..).trans (view_log rfl s)

/-- The reason is NULL if it is empty. -/
lemma view_cbOnClose (env : Env) (s : Cws) (code : ℤ) (text : Option (List Byte)) (len : ℕ) :
    (cbOnClose env s code text len).view
      = s.view.call s.cfg.cb.onClose (.onClose code (closeReason text len)) := by
  rw [cbOnClose, View.call]
  split_ifs
  · exact view_userCallback ..
  · rfl

/-- A message goes to one of two functions. -/
lemma view_cbOnMessage (env : Env) (s : Cws) (isBinary : Bool) (buffer : Option (List Byte)) :
    (cbOnMessage env s isBinary buffer).view = s.view.message isBinary buffer := by
  rw [cbOnMessage, View.message]
  split_ifs
  · exact view_cbOnBinary ..
  · exact view_cbOnText ..

lemma view_appendFragment (s : Cws) (info : Flags) (buffer : Option (List Byte)) :
    (appendFragment s info buffer).view = s.view.append info buffer := by
  simp only [appendFragment, View.append]
  split_ifs <;> rfl

lemma view_defaultOnFragment (env : Env) (s : Cws) (info : Flags) (buffer : Option (List Byte)) :
    (defaultOnFragment env s info buffer).view = s.view.defaultOnFragment info buffer := by
  have hclear (s : Cws) :
      ({ s with streamBuffer := [] } : Cws).view = { s.view with streamBuffer := [] } := rfl
  simp only [defaultOnFragment, View.defaultOnFragment]
  split_ifs with h1 h2
  · exact view_cbOnMessage ..
  · rw [hclear, view_cbOnMessage, view_appendFragment, ← view_appendFragment]
    rfl
  · exact view_appendFragment ..

/-- **A fragment**, on views. -/
lemma view_cbOnFragment (env : Env) (s : Cws) (info : Flags) (buffer : Option (List Byte)) :
    (cbOnFragment env s info buffer).view = s.view.onFragment info buffer := by
  simp only [cbOnFragment, View.onFragment]
  split_ifs with h1 h2
  · exact view_userCallback ..
  · exact absurd h1 h2
  · rename_i h2
    exact absurd h2 h1
  · rw [view_defaultOnFragment, view_log rfl]
    rfl

/-- **`_error_close`**, on views. -/
lemma view_errorClose (env : Env) (s : Cws) (code : ℤ) (reason : Option (List Byte)) (len : ℕ) :
    (errorClose env s code reason len).view = s.view.close code := by
  simp only [errorClose, View.close]
  split_ifs with h1 h2 h2
  · rfl
  · exact absurd h1 h2
  · exact absurd h2 h1
  · rw [view_unpauseSend, view_cwsClose, view_verboseClose, view_log rfl]
    rfl

/-! ## The header lines

What the functions for single headers write. -/

/-- The functions for the headers write to `header_state` only. -/
lemma foldl_runChecker (line : List Byte) (s : Cws) :
    ∃ h, headerCheckers.foldl (runChecker line) s = { s with headerState := h } := by
  refine List.foldlRecOn (motive := fun s' => ∃ h, s' = { s with headerState := h }) headerCheckers
    (runChecker line) ⟨s.headerState, rfl⟩ ?_
  rintro s' ⟨h, rfl⟩ c hc
  rw [runChecker]
  split_ifs
  · simp only [headerCheckers, List.mem_cons, List.not_mem_nil, or_false] at hc
    rcases hc with rfl | rfl | rfl | rfl <;> exact ⟨_, rfl⟩
  · exact ⟨h, rfl⟩

end CurlWs
