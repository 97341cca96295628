import CurlWs.Model.State

/-!
# The outgoing queue

`send.c`: frames go in by `send_frame`, and curl takes bytes out by `_send_cb`.

**The queue.**  It is the list of its buffers from the head on.  `send_destroy` empties it, and the
`prev` pointers, which nothing reads, are not here.  A block of the pool that is handed out twice
would break this view; that it does not happen is the business of `memory.c`, and that the nodes in
memory really are such a list is shown in `Memory/QueueRuns`.

**Going in.**  A frame is encoded into its block at once.  An urgent one goes to the front, but
behind a head of which some bytes have been sent, and all others go to the end.  What `frame_encode`
returns is kept as `written` and not looked at: a frame that did not fit has zero there.

**Going out.**  The loop fills curl's buffer from the head on and goes over to the next frame while
there is room.  The last byte of a close frame ends the transmission: what is still in the queue is
freed.  An empty queue pauses the connection, or ends the upload when both close frames have gone
their way.
-/

namespace CurlWs

/-- Where `send_frame` links a new buffer into the queue. -/
def enqueue (queue : List BufQueue) (buf : BufQueue) (isUrgent : Bool) : List BufQueue :=
  match queue with
  | [] => [buf]
  | qP :: rest =>
      if isUrgent then
        -- a frame that is partially sent stays in front of the urgent one
        if 0 < qP.sent then qP :: buf :: rest else buf :: qP :: rest
      else qP :: rest ++ [buf]

/-- The size `send_frame` gives `frame_encode`. -/
def bufferSize (cfg : Cfg) (f : CwsFrame) : ℕ :=
  if f.isControl then wsCtlFrameMax else sizeAdd cfg.maxPayloadSize wsFrameHeaderMax

/-- The buffer `send_frame` fills for a frame. -/
def encodedBuf (cfg : Cfg) (f : CwsFrame) : BufQueue :=
  { isCloseFrame := f.opcode = wsOpcodeClose
    len := bufferSize cfg f
    written := (frameEncode f (bufferSize cfg f)).1
    sent := 0
    buffer := (frameEncode f (bufferSize cfg f)).2 }

/-- `send_frame`. -/
def sendFrame (env : Env) (s : Cws) (f : CwsFrame) : CWScode × Cws :=
  if env.alloc s.clock then
    let s := s.tick
    let s := { s with send := enqueue s.send (encodedBuf s.cfg f) f.isUrgent }
    (.ok, (s.log (.queued f)).unpauseSend)
  else (.outOfMemory, s.tick.log (.allocFailed f))

/-- What follows the last byte of a close frame: the rest of the queue is freed. -/
def closeSent (s : Cws) : Cws :=
  { ({ s with closeState := { s.closeState with sent := true } }).verboseClose with send := [] }

/-- The loop of `_fill_outgoing_buffer`: `len` bytes of room, `dataToSend` bytes left of the head.
Every iteration uses up room, so the first argument bounds the iterations. -/
def fillLoop : ℕ → Cws → ℕ → ℕ → List Byte × Cws
  | 0, s, _, _ => ([], s)
  | fuel + 1, s, len, dataToSend =>
      match s.send with
      | [] => ([], s)
      | head :: rest =>
          if 0 < len ∧ 0 < dataToSend then
            let lesser := if dataToSend < len then dataToSend else len
            let out := (head.buffer.drop head.sent).take lesser
            let len := len - lesser
            let dataToSend := dataToSend - lesser
            let head := { head with sent := head.sent + lesser }
            if head.sent = head.written then
              if head.isCloseFrame then (out, closeSent s)
              else
                let dataToSend := dataToSend + (rest.head?.map (·.written)).getD 0
                let r := fillLoop fuel { s with send := rest } len dataToSend
                (out ++ r.1, r.2)
            else
              let r := fillLoop fuel { s with send := head :: rest } len dataToSend
              (out ++ r.1, r.2)
          else ([], s)

/-- One iteration, which moves `k` bytes. -/
lemma fillLoop_cons {s : Cws} {head : BufQueue} {rest : List BufQueue} (hs : s.send = head :: rest)
    (fuel : ℕ) {len dataToSend : ℕ} (hlen : 0 < len) (hdata : 0 < dataToSend) {k : ℕ}
    (hk : k = min len dataToSend) :
    fillLoop (fuel + 1) s len dataToSend =
      let out := (head.buffer.drop head.sent).take k
      if head.sent + k = head.written then
        if head.isCloseFrame then (out, closeSent s)
        else
          let r := fillLoop fuel { s with send := rest } (len - k)
            (dataToSend - k + (rest.head?.map (·.written)).getD 0)
          (out ++ r.1, r.2)
      else
        let r := fillLoop fuel { s with send := { head with sent := head.sent + k } :: rest }
          (len - k) (dataToSend - k)
        (out ++ r.1, r.2) := by
  have hk' : (if dataToSend < len then dataToSend else len) = k := by
    rw [hk]
    split_ifs <;> omega
  simp only [fillLoop, hs, if_pos (And.intro hlen hdata), hk']

/-- The loop stops when there is no room, or nothing left of the head. -/
lemma fillLoop_stop {s : Cws} (fuel : ℕ) {len dataToSend : ℕ} (h : len = 0 ∨ dataToSend = 0) :
    fillLoop fuel s len dataToSend = ([], s) := by
  cases fuel with
  | zero => rfl
  | succ fuel =>
      rw [fillLoop]
      split
      · rfl
      · rw [if_neg (by omega)]

/-- `_fill_outgoing_buffer`, called only on a non-empty queue. -/
def fillOutgoingBuffer (s : Cws) (len : ℕ) : List Byte × Cws :=
  match s.send with
  | [] => ([], s)
  | head :: _ => fillLoop len s len (head.written - head.sent)

/-- `CURL_READFUNC_PAUSE`. -/
def curlReadfuncPause : ℕ := 0x10000001

/-- What `_send_cb` returns to curl, and the bytes it wrote into curl's buffer. -/
structure SendResult where
  rv : ℕ
  out : List Byte := []
  deriving DecidableEq, Repr

/-- `_send_cb`. -/
def sendCb (s : Cws) (len : ℕ) : SendResult × Cws :=
  if s.headerState.redirection then ({ rv := len }, s)
  else if s.send = [] then
    if s.closeState.readyToClose then
      ({ rv := 0 }, { s with closeState := { s.closeState with closed := true } }.verboseClose)
    else ({ rv := curlReadfuncPause }, { s with pauseSend := true })
  else
    let r := fillOutgoingBuffer s len
    ({ rv := r.1.length, out := r.1 }, r.2.log (.sent r.1))

end CurlWs
