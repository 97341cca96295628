import CurlWs.Model.Callbacks

/-!
# Receiving

`receive.c`.  Curl hands over the incoming bytes in arbitrary pieces; the functions below take the
bytes that are left of a piece and return those they leave, where the C functions move a pointer and
lower a length.

**One iteration** of the loop (`cwsProcessFrame`) does one of four things: it reads on in a header,
it reads on in a control frame, which is acted upon once it is complete, or it hands on the next
bytes of a data frame, or it fails the connection.  The bytes of a header are kept until
`frame_decode` no longer asks for more, those of a control frame until there are as many as its
header says, and of a data frame only the bytes of a character that has begun, at most three.

**Text** is validated piece by piece.  A character that is cut off by the end of a piece waits for
its rest in a buffer of its own (`Utf8Buffer`), and what is in front of it is handed on.

**Failing** a connection is `_error_close`: it sets `CLOSE_RECEIVED`, after which no byte is looked
at any more, and queues a close frame if none is queued yet.

**Callbacks** are entered with `dispatching` raised, except for `on_close`, which `_handle_close`
calls as it is.
-/

namespace CurlWs

/-- `_min_size_t`. -/
def minSizeT (a b : ℕ) : ℕ := if a < b then a else b

lemma minSizeT_eq (a b : ℕ) : minSizeT a b = min a b := by
  rw [minSizeT]
  split_ifs <;> omega

/-- `priv->dispatching++`. -/
def Cws.enterDispatch (s : Cws) : Cws := { s with dispatching := s.dispatching + 1 }

/-- `priv->dispatching--`. -/
def Cws.leaveDispatch (s : Cws) : Cws := { s with dispatching := s.dispatching - 1 }

/-- `_error_close`. -/
def errorClose (env : Env) (s : Cws) (code : ℤ) (reason : Option (List Byte)) (len : ℕ) : Cws :=
  if s.closeState.received then s
  else
    let s := { s with closeState := { s.closeState with received := true } }
    let s := (s.log (.closing code)).verboseClose
    (cwsClose env s code reason len).2.unpauseSend

/-! ## Headers

`header.needed` is how many bytes are asked for next.  It is zero at first, and also after a header
that was taken as a whole; both times two bytes are read. -/

/-- How many bytes `_process_frame_header` reads next. -/
def headerNeed (h : HeaderBuffer) : ℕ := if h.needed = 0 then wsFrameHeaderMin else h.needed

/-- `_process_frame_header`: the frame whose header is complete, if it is, and the bytes left.  The
bytes are left alone when the connection is failed. -/
def processFrameHeader (env : Env) (s : Cws) (buf : List Byte) :
    Option CwsFrame × Cws × List Byte :=
  let h := s.recv.header
  let needed := headerNeed h
  let min := minSizeT needed buf.length
  let h : HeaderBuffer := { buf := h.buf ++ buf.take min, needed := needed - min }
  let s := s.setRecv { s.recv with header := h }
  let d := frameDecode h.buf
  if d.rv ≠ 0 then (none, errorClose env s 1002 none 0, buf)
  else if d.delta < 0 then
    let h := { h with needed := (-d.delta).toNat }
    (none, s.setRecv { s.recv with header := h }, buf.drop min)
  else if frameValidate d.frame .s2c ≠ 0 then (none, errorClose env s 1002 none 0, buf)
  else
    (some d.frame, s.setRecv { s.recv with header := { h with buf := [] } }, buf.drop min)

/-! ## Control frames

Their payload is collected in `control.buf`, of 125 bytes, and the writes to it are recorded with
their indices. -/

/-- "invalid close payload length" -/
def invalidCloseLength : List Byte :=
  ascii ['i', 'n', 'v', 'a', 'l', 'i', 'd', ' ', 'c', 'l', 'o', 's', 'e', ' ', 'p', 'a', 'y', 'l',
    'o', 'a', 'd', ' ', 'l', 'e', 'n', 'g', 't', 'h']

/-- "invalid close reason" -/
def invalidCloseReason : List Byte :=
  ascii ['i', 'n', 'v', 'a', 'l', 'i', 'd', ' ', 'c', 'l', 'o', 's', 'e', ' ', 'r', 'e', 'a', 's',
    'o', 'n']

/-- The end of `_handle_close`: report the close, then answer it. -/
def acceptClose (env : Env) (s : Cws) (status : ℤ) (reason : Option (List Byte)) (len : ℕ) : Cws :=
  let s := cbOnClose env s status reason len
  errorClose env s (if status = 1005 then 0 else status) reason 0

/-- `_handle_close`, for a close frame of `len` payload bytes that are all in `recv.control`. -/
def handleClose (env : Env) (s : Cws) (len : ℕ) : Cws :=
  if len = 1 then errorClose env s 1002 (some invalidCloseLength) sizeMax
  else if 1 < len then
    let buf := s.recv.control
    let status : ℤ := ((buf.getD 0 0).toNat <<< 8 ||| (buf.getD 1 0).toNat : ℕ)
    if !isCloseCodeValid status then errorClose env s 1002 (some invalidCloseReason) sizeMax
    else
      -- the terminating NUL goes after the payload
      let s := s.log (.controlWrite len (len + 1))
      let text := (buf.drop 2).take (len - 2)
      if utf8Validate text ≠ some (len - 2) then errorClose env s 1007 none 0
      else acceptClose env s status (some text) (len - 2)
  else acceptClose env s 1005 none 0

/-- How many bytes `_process_control_frame` adds to those it has. -/
def controlTake (r : Recv) (f : CwsFrame) (buf : List Byte) : ℕ :=
  let used := r.control.length
  if used < f.payloadLen ∧ 0 < buf.length then minSizeT (f.payloadLen - used) buf.length else 0

/-- As many as are missing, or as there are. -/
lemma controlTake_eq (r : Recv) (f : CwsFrame) (buf : List Byte) :
    controlTake r f buf = min (f.payloadLen - r.control.length) buf.length := by
  rw [controlTake, minSizeT_eq]
  split_ifs <;> omega

/-- The end of `_process_control_frame` after a ping or a pong. -/
def Recv.afterControl (r : Recv) : Recv :=
  { r with frame := none, header := { buf := [], needed := wsFrameHeaderMin }, control := [] }

/-- `_process_control_frame`, with `recv.frame` pointing to `f`. -/
def processControlFrame (env : Env) (s : Cws) (f : CwsFrame) (buf : List Byte) :
    Cws × List Byte :=
  let used := s.recv.control.length
  let min := controlTake s.recv f buf
  let s := (s.setRecv { s.recv with control := s.recv.control ++ buf.take min }).log
    (.controlWrite used (used + min))
  let rest := buf.drop min
  if s.recv.control.length = f.payloadLen then
    let s := s.log (.controlFrame f.opcode s.recv.control)
    if f.opcode = wsOpcodePing then
      let s := (cbOnPing env s.enterDispatch s.recv.control).leaveDispatch
      (s.setRecv s.recv.afterControl, rest)
    else if f.opcode = wsOpcodePong then
      let s := (cbOnPong env s.enterDispatch s.recv.control).leaveDispatch
      (s.setRecv s.recv.afterControl, rest)
    else
      -- a close frame: the header and control fields are not reset
      let s := handleClose env s f.payloadLen
      (s.setRecv { s.recv with frame := none }, rest)
  else (s, rest)

/-! ## Data frames

The stream type and the fragment markers say how far a message has come; a data frame whose opcode
does not fit them fails the connection. -/

/-- What `_process_text_stream` leaves: its result, the bytes to send (`none` for NULL), and the
buffer of the character that has begun. -/
structure TextResult where
  rv : ℤ := 0
  toSend : Option (List Byte) := none
  utf8 : Utf8Buffer
  deriving DecidableEq, Repr

/-- `_process_text_stream`, except that its calls of `_error_close`, one before each -1 it returns
and each with code 1007, are left to the caller.  `f` is the frame `recv.frame` points to. -/
def processTextStream (u : Utf8Buffer) (f : CwsFrame) (buf : List Byte) : TextResult :=
  if 0 < u.needed then
    let len := minSizeT u.needed buf.length
    let u : Utf8Buffer := { buf := u.buf ++ buf.take len, needed := u.needed - len }
    if u.needed ≠ 0 then
      -- fail as soon as the character cannot be completed any more
      if utf8MaybeValid u.buf then { utf8 := u } else { rv := -1, utf8 := u }
    else if utf8Validate u.buf ≠ some u.used then { rv := -1, utf8 := u }
    else { toSend := some u.buf, utf8 := { u with buf := [] } }
  else
    match utf8Validate buf with
    | none => { rv := -1, utf8 := u }
    | some valid =>
        if valid < buf.length then
          let left := buf.drop valid
          -- the last bytes of the last frame must not be part of a character
          if f.fin ∧ f.payloadLen ≤ buf.length then { rv := -1, utf8 := u }
          else
            { toSend := some (buf.take valid)
              utf8 := { buf := left, needed := utf8GetSize (left.headD 0) - left.length } }
        else { toSend := some buf, utf8 := u }

/-- `_send_data_frame`, with `recv.frame` pointing to `f`. -/
def sendDataFrame (env : Env) (s : Cws) (f : CwsFrame) (buffer : Option (List Byte)) : Cws :=
  -- the last byte of the last frame ends the message
  let info :=
    if f.payloadLen = 0 ∧ f.fin then s.recv.fragmentInfo ||| cwsLast else s.recv.fragmentInfo
  let s := s.setRecv { s.recv with fragmentInfo := info }
  let buffer := if buffer.getD [] = [] then none else buffer
  let s :=
    if buffer ≠ none ∨ (cwsFirst ||| cwsLast) &&& info ≠ 0 then
      (cbOnFragment env s.enterDispatch info buffer).leaveDispatch
    else s
  -- expect a continuation next
  let info := (info &&& ~~~cwsNonctrlMask ||| cwsCont) &&& ~~~cwsFirst
  let frame := if f.payloadLen = 0 then none else some f
  if cwsLast &&& info ≠ 0 then
    s.setRecv { s.recv with frame, fragmentInfo := 0, streamType := 0 }
  else s.setRecv { s.recv with frame, fragmentInfo := info }

/-- The piece `_process_data_frame` takes off the front of `buf`. -/
def Recv.piece (r : Recv) (f : CwsFrame) (buf : List Byte) : Piece :=
  ⟨r.streamType, r.fragmentInfo, r.utf8, f, buf.take (minSizeT f.payloadLen buf.length)⟩

/-- What `_process_data_frame` makes of a piece before it sends it on: only text is looked at. -/
def Piece.result (p : Piece) : TextResult :=
  if p.stream = cwsText then processTextStream p.utf8 p.frame p.bytes
  else { toSend := some p.bytes, utf8 := p.utf8 }

/-- `_process_data_frame`, with `recv.frame` pointing to `f`. -/
def processDataFrame (env : Env) (s : Cws) (f : CwsFrame) (buf : List Byte) : Cws × List Byte :=
  let p := s.recv.piece f buf
  let s := s.log (.payload p)
  if p.result.rv < 0 then
    (errorClose env (s.setRecv { s.recv with utf8 := p.result.utf8 }) 1007 none 0, buf)
  else
    let f := { f with payloadLen := f.payloadLen - p.bytes.length }
    let s := s.setRecv { s.recv with frame := some f, utf8 := p.result.utf8 }
    (sendDataFrame env s f p.result.toSend, buf.drop p.bytes.length)

/-- The stream markers for a data frame whose header has just been read, `none` where the frame
does not fit the message in progress. -/
def openStream (r : Recv) (f : CwsFrame) : Option Recv :=
  if r.fragmentInfo = 0 ∧ f.opcode = wsOpcodeBinary then
    some { r with streamType := cwsBinary, fragmentInfo := cwsFirst ||| cwsBinary }
  else if r.fragmentInfo = 0 ∧ f.opcode = wsOpcodeText then
    some { r with streamType := cwsText, fragmentInfo := cwsFirst ||| cwsText }
  else if r.streamType ≠ 0 ∧ f.opcode = wsOpcodeContinuation then
    some { r with fragmentInfo := r.fragmentInfo &&& ~~~cwsNonctrlMask ||| cwsCont }
  else none

/-- The second half of `_cws_process_frame`: there is a completed header. -/
def processPayload (env : Env) (s : Cws) (f : CwsFrame) (buf : List Byte) : Cws × List Byte :=
  let s := s.setRecv { s.recv with frame := some f }
  if f.isControl then processControlFrame env s f buf else processDataFrame env s f buf

/-- `_cws_process_frame`. -/
def cwsProcessFrame (env : Env) (s : Cws) (buf : List Byte) : Cws × List Byte :=
  match s.recv.frame with
  | some f => processPayload env s f buf
  | none =>
      match processFrameHeader env s buf with
      | (none, s, buf) => (s, buf)
      | (some f, s, buf) =>
          if f.isControl then processPayload env s f buf
          else
            match openStream s.recv f with
            | none => (errorClose env s 1002 none 0, buf)
            | some r => processPayload env (s.setRecv r) f buf

/-- The loop of `_receive_cb`.  It stops when nothing is consumed, so the first argument, the
number of bytes, bounds the iterations. -/
def receiveLoop (env : Env) : ℕ → Cws → List Byte → Cws
  | 0, s, _ => s
  | fuel + 1, s, buf =>
      if 0 < buf.length then
        let r := cwsProcessFrame env s buf
        if r.2.length = buf.length ∨ r.1.closeState.received then r.1
        else receiveLoop env fuel r.1 r.2
      else s

/-- `_receive_cb`.  It returns the number of bytes it was given in every case. -/
def receiveCb (env : Env) (s : Cws) (buf : List Byte) : ℕ × Cws :=
  if buf = [] then (buf.length, s)
  else if s.cfg.followRedirects ∧ s.headerState.redirection then (buf.length, s)
  else if s.closeState.received then (buf.length, s)
  else (buf.length, receiveLoop env buf.length s buf)

end CurlWs
