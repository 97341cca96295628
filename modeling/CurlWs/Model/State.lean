import CurlWs.Model.Frame
import CurlWs.Model.Utf8

/-!
# The state of a connection

`struct cws_object` of `internal.h` with what it refers to, the calls the public interface offers,
and the surroundings of the library: the pool allocator, the random numbers and the user's
callbacks.

**The surroundings.**  A callback may call the public functions, and what it does may depend on
anything it has seen.  All of this is in `Env`, indexed by a clock that advances at every
consultation; a theorem about every `Env` is a theorem about every behaviour of the three, including
behaviour that reacts to earlier results, since each run fixes those.

**What is not in the source.**  Two fields of `Cws` are not in the source and nothing in the model
branches on them: `trace` records what happened, for statements about sequences of calls, and
`clock` is the index into `Env`.  `freed` records that `cws_destroy` released the object; the fields
keep their last values, as no later use of them is defined.

**What is not here.**  The handles of curl, the strings and lists that only `cws_create` reads, and
the pool itself, of which a connection only sees whether it has a block to give.  The first two are
in `Model/Create`, the third in `Model/Memory`.
-/

namespace CurlWs

/-! ## Sending

A frame in the queue, and the four bits of `close_state`.  The bits are never taken back once they
are set, and they are set in different orders: either side may close first. -/

/-- `struct cws_buf_queue`: one frame in the outgoing queue.  `buffer` holds the bytes
`frame_encode` wrote into the block. -/
structure BufQueue where
  isCloseFrame : Bool
  len : ℕ
  written : ℕ
  sent : ℕ
  buffer : List Byte
  deriving DecidableEq, Repr

/-- The bits of `close_state`. -/
structure CloseState where
  /-- `CLOSE_RECEIVED` -/
  received : Bool := false
  /-- `CLOSE_QUEUED` -/
  queued : Bool := false
  /-- `CLOSE_SENT` -/
  sent : Bool := false
  /-- `CLOSED` -/
  closed : Bool := false
  deriving DecidableEq, Repr

namespace CloseState

/-- `close_state` is not zero. -/
def any (c : CloseState) : Bool := c.received || c.queued || c.sent || c.closed

/-- `READY_TO_CLOSE`. -/
def readyToClose (c : CloseState) : Bool := c.sent && c.received && !c.closed

end CloseState

/-! ## Receiving

What is kept from one piece of the incoming bytes to the next. -/

/-- `struct utf8_buffer`: the bytes of a character that has begun, and how many are missing. -/
structure Utf8Buffer where
  buf : List Byte := []
  needed : ℕ := 0
  deriving DecidableEq, Repr

/-- `used` is the number of bytes held. -/
def Utf8Buffer.used (u : Utf8Buffer) : ℕ := u.buf.length

/-- `struct header`: the bytes of a frame header that has begun, and how many to read next. -/
structure HeaderBuffer where
  buf : List Byte := []
  needed : ℕ := 0
  deriving DecidableEq, Repr

/-- `struct recv`.  `control` is the part of `control.buf` in use.  `_frame` is only reached
through `frame`, so it has no field of its own. -/
structure Recv where
  streamType : Flags := 0
  fragmentInfo : Flags := 0
  utf8 : Utf8Buffer := {}
  frame : Option CwsFrame := none
  header : HeaderBuffer := {}
  control : List Byte := []
  deriving DecidableEq, Repr

/-- `struct header_map`. -/
structure HeaderMap where
  redirection : Bool := false
  accepted : Bool := false
  upgraded : Bool := false
  connectionWebsocket : Bool := false
  wsProtocolsReceived : Option (List Byte) := none
  deriving DecidableEq, Repr

/-! ## The user's side

The functions the user supplies, the functions the user may call, and what is fixed by the
configuration. -/

/-- A call of a user-supplied function, with its arguments.  A pointer and its length are the bytes
they describe, `none` for NULL. -/
inductive Callback where
  | onConnect (protocols : Option (List Byte))
  | onText (text : Option (List Byte))
  | onBinary (buffer : Option (List Byte))
  | onFragment (info : Flags) (buffer : Option (List Byte))
  | onPing (buffer : List Byte)
  | onPong (buffer : List Byte)
  | onClose (code : ℤ) (reason : Option (List Byte))
  deriving DecidableEq, Repr

/-- A call of a public function.  A pointer argument is the memory readable through it, and its
length argument is given separately, as in C. -/
inductive ApiCall where
  | ping (data : Option (List Byte)) (len : ℕ)
  | pong (data : Option (List Byte)) (len : ℕ)
  | close (code : ℤ) (reason : Option (List Byte)) (len : ℕ)
  | sendBlkBinary (data : Option (List Byte)) (len : ℕ)
  | sendBlkText (s : Option (List Byte)) (len : ℕ)
  | sendStrmBinary (info : Flags) (data : Option (List Byte)) (len : ℕ)
  | sendStrmText (info : Flags) (s : Option (List Byte)) (len : ℕ)
  | destroy
  deriving DecidableEq, Repr

/-- What a callback does: the public functions it calls, in order, and the value it returns. -/
structure Reaction where
  calls : List ApiCall := []
  rv : ℤ := 0
  deriving DecidableEq, Repr

/-- The surroundings, by the clock of the consultation. -/
structure Env where
  /-- Whether the pool has a block to give. -/
  alloc : ℕ → Bool
  /-- The masking key `cws_random` produces. -/
  random : ℕ → MaskingKey
  /-- What the user's function does when it is called. -/
  user : ℕ → Callback → Reaction

/-- Which callbacks the user has installed (`struct cws_config`). -/
structure Callbacks where
  onConnect : Bool := true
  onText : Bool := true
  onBinary : Bool := true
  onFragment : Bool := true
  onPing : Bool := true
  onPong : Bool := true
  onClose : Bool := true
  deriving DecidableEq, Repr

/-- `struct cfg_set` and what else is fixed once `cws_create` has returned.  `_config_memorypool`
replaces a maximum payload size of zero, so there is none. -/
structure Cfg where
  maxPayloadSize : ℕ := 1024
  maxPayloadSize_pos : 0 < maxPayloadSize := by decide
  followRedirects : Bool := false
  cb : Callbacks := {}
  expectedKeyHeader : List Byte := []

/-- What `_process_data_frame` is entered with: the stream type and the fragment markers, the
character in progress, the frame and the next bytes of its payload. -/
structure Piece where
  stream : Flags
  info : Flags
  utf8 : Utf8Buffer
  frame : CwsFrame
  bytes : List Byte
  deriving DecidableEq, Repr

/-- What happens in a run, for statements about it. -/
inductive Event where
  /-- A callback is entered; the second argument is `priv->dispatching` at that moment. -/
  | callback (c : Callback) (dispatching : UInt8)
  /-- `send_frame` put a frame in the queue. -/
  | queued (f : CwsFrame)
  /-- `send_frame` found no memory for a frame. -/
  | allocFailed (f : CwsFrame)
  /-- `cws_close` was entered; the last argument is `CLOSE_QUEUED` at that moment. -/
  | closeCall (code : ℤ) (reason : Option (List Byte)) (len : ℕ) (queued : Bool)
  /-- `verbose_close` reports a changed `close_state`. -/
  | closeState (c : CloseState)
  /-- `_error_close` sets `CLOSE_RECEIVED` and closes with this code. -/
  | closing (code : ℤ)
  /-- `_process_data_frame` is entered. -/
  | payload (piece : Piece)
  /-- `_process_control_frame` has a complete control frame. -/
  | controlFrame (opcode : ℕ) (payload : List Byte)
  /-- The indices from `start` up to `stop` of `recv.control.buf` are written. -/
  | controlWrite (start stop : ℕ)
  /-- `_send_cb` handed these bytes to curl. -/
  | sent (bytes : List Byte)
  deriving DecidableEq, Repr

/-- `struct cws_object`. -/
structure Cws where
  cfg : Cfg
  lastSentDataFrameInfo : Flags := 0
  send : List BufQueue := []
  recv : Recv := {}
  /-- The accumulation of `_default_on_fragment`. -/
  streamType : Flags := 0
  streamBuffer : List Byte := []
  dispatching : UInt8 := 0
  /-- The bit `CURLPAUSE_SEND` of `pause_flags`, the only one ever used. -/
  pauseSend : Bool := false
  headerState : HeaderMap := {}
  closeState : CloseState := {}
  freed : Bool := false
  clock : ℕ := 0
  trace : List Event := []

namespace Cws

/-- A connection as `cws_create` leaves it. -/
def fresh (cfg : Cfg) : Cws := { cfg }

/-- Record an event. -/
def log (s : Cws) (e : Event) : Cws := { s with trace := s.trace ++ [e] }

/-- Consult the surroundings once. -/
def tick (s : Cws) : Cws := { s with clock := s.clock + 1 }

/-- Replace the receive state. -/
def setRecv (s : Cws) (r : Recv) : Cws := { s with recv := r }

/-- `verbose_close`. -/
def verboseClose (s : Cws) : Cws := s.log (.closeState s.closeState)

/-- Clear `CURLPAUSE_SEND` if it is set, and tell curl. -/
def unpauseSend (s : Cws) : Cws := { s with pauseSend := false }

end Cws

end CurlWs
