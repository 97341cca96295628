import CurlWs.Model.Send

/-!
# Frame senders

`frame_senders.c` and `data_block_sender.c`: from the options of a call to a frame, and from a block
to the frames that carry it.

**Control frames** take one of three options and nothing else.  The bit for an urgent frame is
outside of the mask of what is allowed, so that the check in front of it refuses every urgent frame;
the code is kept as it is, with the field it would set.  After a close has been queued no control
frame is accepted.

**Data frames** have to fit the message in progress, which `last_sent_data_frame_info` remembers as
the options of the last data frame: a message begins after none or after a last one, and goes on
otherwise.  The options are remembered before `send_frame` has said whether there is memory, and
nothing is compared with the largest payload here.

**Blocks** are cut into frames of the largest payload.  The first has the type of the message, the
others are continuations, and the last has whatever is left.
-/

namespace CurlWs

/-- `frame_sender_control`. -/
def frameSenderControl (env : Env) (s : Cws) (options : Flags) (data : Option (List Byte))
    (len : ℕ) : CWScode × Cws :=
  let f : CwsFrame :=
    { fin := true, mask := true, isControl := true, isUrgent := cwsUrgent &&& options ≠ 0 }
  -- no special labels are allowed for a control message
  if options &&& ~~~cwsCtrlMask ≠ 0 then (.invalidOptions, s)
  else
    let opcode? :=
      if options &&& cwsCtrlMask = cwsCloseBit then some wsOpcodeClose
      else if options &&& cwsCtrlMask = cwsPingBit then some wsOpcodePing
      else if options &&& cwsCtrlMask = cwsPongBit then some wsOpcodePong
      else none
    match opcode? with
    | none => (.invalidOptions, s)
    | some opcode =>
        if s.closeState.queued then (.closedConnection, s)
        else
          let data := if data = none ∨ len = 0 then none else data
          let len := if data = none then 0 else len
          if wsCtlPayloadMax < len then (.appDataLengthTooLong, s)
          else
            sendFrame env s.tick
              { f with
                opcode, payload := data.getD [], payloadLen := len
                maskingKey := env.random s.clock }

/-- The opcode `frame_sender_data` gives a frame, or the code it refuses the options with. -/
def dataOpcode (lastinfo options : Flags) : Except CWScode ℕ :=
  if options &&& (cwsCont ||| cwsBinary ||| cwsText) = cwsCont then
    if cwsFirst &&& options ≠ 0 then .error .invalidOptions
    else if lastinfo = 0 ∨ cwsLast &&& lastinfo ≠ 0 then .error .streamContinuityIssue
    else .ok wsOpcodeContinuation
  else if options &&& (cwsCont ||| cwsBinary ||| cwsText) = cwsBinary ∨
      options &&& (cwsCont ||| cwsBinary ||| cwsText) = cwsText then
    if cwsFirst &&& options = 0 then .error .invalidOptions
    else if lastinfo ≠ 0 ∧ cwsLast &&& lastinfo = 0 then .error .streamContinuityIssue
    else .ok (if options &&& cwsText ≠ 0 then wsOpcodeText else wsOpcodeBinary)
  else .error .invalidOptions

/-- `frame_sender_data`. -/
def frameSenderData (env : Env) (s : Cws) (options : Flags) (data : Option (List Byte))
    (len : ℕ) : CWScode × Cws :=
  let f : CwsFrame := { fin := cwsLast &&& options ≠ 0, mask := true, isControl := false }
  let allowed := cwsNonctrlMask ||| cwsFirst ||| cwsLast
  let lastinfo := s.lastSentDataFrameInfo
  if options ≠ options &&& allowed then (.invalidOptions, s)
  else
    match dataOpcode lastinfo options with
    | .error e => (e, s)
    | .ok opcode =>
        if s.closeState.any then (.closedConnection, s)
        else
          let s := { s with lastSentDataFrameInfo := options }
          let data := if data = none ∨ len = 0 then none else data
          let len := if data = none then 0 else len
          sendFrame env s.tick
            { f with
              opcode, payload := data.getD [], payloadLen := len
              maskingKey := env.random s.clock }

/-- The `while` loop of `data_block_sender` and the call after it.  Every iteration takes at least
one byte off `len`, so the first argument bounds the iterations. -/
def dataBlockLoop (env : Env) : ℕ → Cws → Flags → List Byte → ℕ → CWScode × Cws
  | 0, s, options, buffer, len => frameSenderData env s (options ||| cwsLast) (some buffer) len
  | fuel + 1, s, options, buffer, len =>
      let max := s.cfg.maxPayloadSize
      if max < len then
        let r := frameSenderData env s options (some buffer) max
        if r.1 ≠ .ok then r
        else dataBlockLoop env fuel r.2 cwsCont (buffer.drop max) (len - max)
      else frameSenderData env s (options ||| cwsLast) (some buffer) len

/-- `data_block_sender`. -/
def dataBlockSender (env : Env) (s : Cws) (options : Flags) (data : Option (List Byte))
    (len : ℕ) : CWScode × Cws :=
  if options ≠ cwsBinary ∧ options ≠ cwsText then (.invalidOptions, s)
  else if s.closeState.any then (.closedConnection, s)
  else
    let options := options ||| cwsFirst
    match data, len with
    | none, _ => frameSenderData env s (options ||| cwsLast) none 0
    | some _, 0 => frameSenderData env s (options ||| cwsLast) none 0
    | some buffer, len => dataBlockLoop env len s options buffer len

end CurlWs
