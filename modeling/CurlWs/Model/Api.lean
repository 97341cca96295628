import CurlWs.Model.Senders

/-!
# The public functions

The parts of `curlws.c` that act on an open connection: the calls an application may make at any
time, from a callback as well as between two of them.  A NULL handle is not modelled, every function
is given the connection.

**Arguments.**  A pointer is the memory that can be read through it, and its length is a separate
argument, as in C; most functions take `SIZE_MAX` to mean that the text ends at its NUL. What they
check is in the order of the source, and the first check that fails gives the result code.

**Closing.**  `cws_close` sets `CLOSE_QUEUED` after the arguments have been accepted, whatever the
sender of control frames says.  A negative code asks for an urgent close.

**Life and death.**  `cws_create` is in `Model/Create`, and what a run starts with is `Cws.fresh` of
a configuration.  `cws_destroy` does nothing while a callback is being dispatched.  Otherwise it
frees the object, which is recorded in `freed` and changes nothing else: no later use of the object
is defined in C, and what the model does after that stands for nothing.  This goes for the rest of
the same step too, when `on_close`, which is called with `dispatching` at zero, destroys the handle
it is called for.
-/

namespace CurlWs

/-- `cws_ping`. -/
def cwsPing (env : Env) (s : Cws) (data : Option (List Byte)) (len : ℕ) : CWScode × Cws :=
  frameSenderControl env s cwsPingBit data len

/-- `cws_pong`. -/
def cwsPong (env : Env) (s : Cws) (data : Option (List Byte)) (len : ℕ) : CWScode × Cws :=
  frameSenderControl env s cwsPongBit data len

/-- What `_normalize_close_inputs` hands back. -/
structure CloseInputs where
  code : ℤ
  options : Flags
  len : ℕ
  deriving DecidableEq, Repr

/-- The reason text of `_normalize_close_inputs`: its length once `SIZE_MAX` is resolved, or the
code it is refused with. -/
def normalizeReason (reason : Option (List Byte)) (len : ℕ) : Except CWScode ℕ :=
  match reason with
  | none => .ok len
  | some r =>
      let len := if len = sizeMax then strlen r else len
      if 0 < len then
        if utf8Validate (r.take len) ≠ some len then .error .invalidUtf8
        else if wsCtlPayloadMax - 3 < len then .error .appDataLengthTooLong
        else .ok len
      else .ok len

/-- `_normalize_close_inputs`.  The reason pointer is passed through unchanged. -/
def normalizeCloseInputs (code : ℤ) (reason : Option (List Byte)) (len : ℕ) :
    Except CWScode CloseInputs :=
  let opts := if code < 0 then cwsCloseBit ||| cwsUrgent else cwsCloseBit
  let code := if code < 0 then (if code = -1 then 0 else 0 - code) else code
  match normalizeReason reason len with
  | .error e => .error e
  | .ok len =>
      if code = 0 then
        if 0 < len then .error .invalidCloseReasonCode else .ok ⟨code, opts, len⟩
      else if isCloseCodeValid code then .ok ⟨code, opts, len⟩
      else .error .invalidCloseReasonCode

/-- The payload `cws_close` builds in its local buffer, `none` when the code is zero. -/
def closePayload (code : ℤ) (reason : Option (List Byte)) (len : ℕ) : Option (List Byte) :=
  if code ≠ 0 then
    some (UInt8.ofNat (code.toNat >>> 8) :: UInt8.ofNat code.toNat :: (reason.getD []).take len)
  else none

/-- `cws_close`. -/
def cwsClose (env : Env) (s : Cws) (code : ℤ) (reason : Option (List Byte)) (len : ℕ) :
    CWScode × Cws :=
  let s := s.log (.closeCall code reason len s.closeState.queued)
  if reason = none ∧ 0 < len then (.badFunctionArgument, s)
  else
    match normalizeCloseInputs code reason len with
    | .error e => (e, s)
    | .ok c =>
        let len := if c.code ≠ 0 then c.len + 2 else c.len
        let r := frameSenderControl env s c.options (closePayload c.code reason c.len) len
        if r.2.closeState.queued then r
        else (r.1, { r.2 with closeState := { r.2.closeState with queued := true } }.verboseClose)

/-- `cws_send_blk_binary`. -/
def cwsSendBlkBinary (env : Env) (s : Cws) (data : Option (List Byte)) (len : ℕ) :
    CWScode × Cws :=
  if data = none ∧ 0 < len then (.badFunctionArgument, s)
  else dataBlockSender env s cwsBinary data len

/-- `cws_send_blk_text`. -/
def cwsSendBlkText (env : Env) (s : Cws) (text : Option (List Byte)) (len : ℕ) : CWScode × Cws :=
  match text with
  | none =>
      if 0 < len then (.badFunctionArgument, s) else dataBlockSender env s cwsText none len
  | some t =>
      if 0 < len then
        let len := if len = sizeMax then strlen t else len
        if utf8Validate (t.take len) ≠ some len then (.invalidUtf8, s)
        else dataBlockSender env s cwsText (some t) len
      else dataBlockSender env s cwsText (some t) len

/-- `_send_stream`. -/
def sendStream (env : Env) (s : Cws) (type info : Flags) (data : Option (List Byte)) (len : ℕ) :
    CWScode × Cws :=
  if data = none ∧ 0 < len then (.badFunctionArgument, s)
  else if info = 0 ∧ len = 0 then
    -- no payload and neither the start nor the end of a message: nothing to send
    if s.lastSentDataFrameInfo ≠ 0 then (.ok, s) else (.streamContinuityIssue, s)
  else
    let info := if cwsFirst &&& info ≠ 0 then info ||| type else info ||| cwsCont
    frameSenderData env s info data len

/-- `cws_send_strm_binary`. -/
def cwsSendStrmBinary (env : Env) (s : Cws) (info : Flags) (data : Option (List Byte)) (len : ℕ) :
    CWScode × Cws :=
  sendStream env s cwsBinary info data len

/-- `cws_send_strm_text`.  `utf8_validate` lowers `len` to the last whole character. -/
def cwsSendStrmText (env : Env) (s : Cws) (info : Flags) (text : Option (List Byte)) (len : ℕ) :
    CWScode × Cws :=
  match text with
  | none => sendStream env s cwsText info none len
  | some t =>
      if 0 < len then
        let len := if len = sizeMax then strlen t else len
        match utf8Validate (t.take len) with
        | none => (.invalidUtf8, s)
        | some len => sendStream env s cwsText info (some t) len
      else sendStream env s cwsText info (some t) len

/-- `cws_destroy`: nothing while a callback is being dispatched.  Otherwise the object is freed, and
nothing is said about what is done with it afterwards. -/
def cwsDestroy (s : Cws) : Cws :=
  if s.dispatching > 0 then s else { s with freed := true }

/-- A call of a public function. -/
def apiCall (env : Env) (s : Cws) : ApiCall → CWScode × Cws
  | .ping data len => cwsPing env s data len
  | .pong data len => cwsPong env s data len
  | .close code reason len => cwsClose env s code reason len
  | .sendBlkBinary data len => cwsSendBlkBinary env s data len
  | .sendBlkText text len => cwsSendBlkText env s text len
  | .sendStrmBinary info data len => cwsSendStrmBinary env s info data len
  | .sendStrmText info text len => cwsSendStrmText env s info text len
  | .destroy => (.ok, cwsDestroy s)

/-- Several calls in a row. -/
def apiCalls (env : Env) (s : Cws) (calls : List ApiCall) : Cws :=
  calls.foldl (fun s c => (apiCall env s c).2) s

end CurlWs
