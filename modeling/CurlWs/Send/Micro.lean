import CurlWs.Receive.View

/-!
# The sending side, step by step

Everything that happens to the queue, to `close_state` and to the stream-continuity state is a
sequence of small steps, whatever part of the library it happens in.  `Micro` lists them, with what
is known when each is taken.

**The sending side.**  `Cws.out` is that part of a connection, with the events the receive path does
not write.  What is left out of it can change at any time without a step.

**The steps.**  A frame is queued, or there is no memory for it; a close is ignored, queued or lost;
a bit of `close_state` is set; curl is paused or goes on; bytes of the head are sent, or its last
one.  Every constructor has the guards of the source with it, so an invariant is checked step by
step without the code at hand.  The other modules about sending do this, and `Steps` extends it to
any sequence.

**The functions.**  `frame_sender_control` and `frame_sender_data` build one frame and hand it to
`send_frame`.  Each is given as an equation first (`frameSenderControl_eq`, `frameSenderData_eq`),
and the public functions are put together from them.

**Draining.**  `_fill_outgoing_buffer` takes bytes off the head.  That only the head can have been
sent in part, and not whole, is `Tidy`; it holds along all steps, and the loop relies on it.

## Main results

* **`steps_apiCall`** — a call of a public function.
* **`steps_sendCb`** — a drain of the queue.
-/

namespace CurlWs

/-! ## The sending side

The state of it, the frames that may come, and the steps. -/

/-- The sending side of a connection, with the events the receive path does not write. -/
structure Out where
  cfg : Cfg
  lastInfo : Flags
  send : List BufQueue
  pauseSend : Bool
  closeState : CloseState
  trace : List Event

/-- The sending side of a connection. -/
def Cws.out (s : Cws) : Out where
  cfg := s.cfg
  lastInfo := s.lastSentDataFrameInfo
  send := s.send
  pauseSend := s.pauseSend
  closeState := s.closeState
  trace := s.trace.filter fun e => !e.isReceive

namespace Out

/-- Record an event. -/
def log (o : Out) (e : Event) : Out := { o with trace := o.trace ++ [e] }

/-- `send_frame`, when there is memory. -/
def push (o : Out) (f : CwsFrame) : Out :=
  { o with
    send := enqueue o.send (encodedBuf o.cfg f) f.isUrgent
    pauseSend := false
    trace := o.trace ++ [.queued f] }

/-- A changed `close_state` is reported. -/
def setClose (o : Out) (c : CloseState) : Out :=
  { o with closeState := c, trace := o.trace ++ [.closeState c] }

end Out

/-- The frames of `frame_sender_control`. -/
structure ControlFrame (f : CwsFrame) : Prop where
  fin : f.fin = true
  mask : f.mask = true
  isControl : f.isControl = true
  opcode : f.opcode = wsOpcodeClose ∨ f.opcode = wsOpcodePing ∨ f.opcode = wsOpcodePong
  len : f.payloadLen ≤ wsCtlPayloadMax

/-- The frames of `frame_sender_data`, for the options `options`. -/
structure DataFrame (lastInfo options : Flags) (f : CwsFrame) : Prop where
  fin : f.fin = decide (cwsLast &&& options ≠ 0)
  mask : f.mask = true
  isControl : f.isControl = false
  isUrgent : f.isUrgent = false
  opcode : dataOpcode lastInfo options = .ok f.opcode

/-- `cws_close` gets as far as building a frame. -/
def CloseAccepted (code : ℤ) (reason : Option (List Byte)) (len : ℕ) : Prop :=
  ¬ (reason = none ∧ 0 < len) ∧ ∃ c, normalizeCloseInputs code reason len = .ok c

/-- One step of the sending side. -/
inductive Micro (o : Out) : Out → Prop where
  /-- A ping or a pong is queued. -/
  | control {f : CwsFrame} (hq : o.closeState.queued = false) (hf : ControlFrame f)
      (hop : f.opcode ≠ wsOpcodeClose) : Micro o (o.push f)
  | controlFailed {f : CwsFrame} (hf : ControlFrame f) (hop : f.opcode ≠ wsOpcodeClose) :
      Micro o (o.log (.allocFailed f))
  /-- A data frame is queued. -/
  | data {f : CwsFrame} {options : Flags} (hany : o.closeState.any = false)
      (hf : DataFrame o.lastInfo options f) : Micro o (Out.push { o with lastInfo := options } f)
  | dataFailed {f : CwsFrame} {options : Flags} (hany : o.closeState.any = false)
      (hf : DataFrame o.lastInfo options f) :
      Micro o (Out.log { o with lastInfo := options } (.allocFailed f))
  /-- `cws_close` refuses its arguments, or there has been a close before. -/
  | closeIgnored (code : ℤ) (reason : Option (List Byte)) (len : ℕ)
      (h : o.closeState.queued = true ∨ ¬ CloseAccepted code reason len) :
      Micro o (o.log (.closeCall code reason len o.closeState.queued))
  /-- `cws_close` queues a close frame. -/
  | close (code : ℤ) (reason : Option (List Byte)) (len : ℕ) {f : CwsFrame}
      (hq : o.closeState.queued = false) (hcode : 0 ≤ code) (hf : ControlFrame f)
      (hop : f.opcode = wsOpcodeClose) (hurgent : f.isUrgent = false) :
      Micro o (((o.log (.closeCall code reason len false)).push f).setClose
        { o.closeState with queued := true })
  /-- `cws_close` queues nothing but sets `CLOSE_QUEUED`. -/
  | closeLost (code : ℤ) (reason : Option (List Byte)) (len : ℕ)
      (hq : o.closeState.queued = false) (hacc : CloseAccepted code reason len) (hcode : code < 0) :
      Micro o ((o.log (.closeCall code reason len false)).setClose
        { o.closeState with queued := true })
  | closeFailed (code : ℤ) (reason : Option (List Byte)) (len : ℕ) {f : CwsFrame}
      (hq : o.closeState.queued = false) (hcode : 0 ≤ code) (hop : f.opcode = wsOpcodeClose) :
      Micro o (((o.log (.closeCall code reason len false)).log (.allocFailed f)).setClose
        { o.closeState with queued := true })
  /-- `_error_close` sets `CLOSE_RECEIVED`. -/
  | received (h : o.closeState.received = false) :
      Micro o (o.setClose { o.closeState with received := true })
  | unpause : Micro o { o with pauseSend := false }
  /-- `_send_cb` finds nothing to send. -/
  | pause (hs : o.send = []) (hc : o.closeState.readyToClose = false) :
      Micro o { o with pauseSend := true }
  | closed (hs : o.send = []) (hc : o.closeState.readyToClose = true) :
      Micro o (o.setClose { o.closeState with closed := true })
  /-- Part of the head is sent. -/
  | advance {head : BufQueue} {rest : List BufQueue} {k : ℕ} (hs : o.send = head :: rest)
      (hk : 0 < k) (hlt : head.sent + k < head.written) :
      Micro o { o with send := { head with sent := head.sent + k } :: rest }
  /-- The last byte of the head is sent. -/
  | popped {head : BufQueue} {rest : List BufQueue} (hs : o.send = head :: rest)
      (hlt : head.sent < head.written) (hc : head.isCloseFrame = false) :
      Micro o { o with send := rest }
  | closeSent {head : BufQueue} {rest : List BufQueue} (hs : o.send = head :: rest)
      (hlt : head.sent < head.written) (hc : head.isCloseFrame = true) :
      Micro o { (o.setClose { o.closeState with sent := true }) with send := [] }
  | sent (bytes : List Byte) : Micro o (o.log (.sent bytes))

/-- Any number of steps. -/
abbrev Steps : Out → Out → Prop := Relation.ReflTransGen Micro

/-! ## The small operations

An event is part of the sending side or of the receive path. -/

lemma out_log_receive {e : Event} (h : e.isReceive = true) (s : Cws) : (s.log e).out = s.out := by
  simp [Cws.out, Cws.log, h]

lemma out_log {e : Event} (h : e.isReceive = false) (s : Cws) : (s.log e).out = s.out.log e := by
  simp [Cws.out, Cws.log, Out.log, h]

lemma out_unpauseSend (s : Cws) : s.unpauseSend.out = { s.out with pauseSend := false } := rfl

lemma out_verboseClose (s : Cws) : s.verboseClose.out = s.out.log (.closeState s.closeState) :=
  out_log rfl s

/-! ## The frames that are sent

The two frame senders, as equations and as steps. -/

/-- The pointer and the length a frame is built from: nothing to point to, or no length, is an empty
payload. -/
def payloadOf (data : Option (List Byte)) (len : ℕ) : List Byte × ℕ :=
  if data = none ∨ len = 0 then ([], 0) else (data.getD [], len)

/-- The branch of the source that sets both to zero. -/
lemma payloadOf_eq (data : Option (List Byte)) (len : ℕ) :
    (payloadOf data len).1 = (if data = none ∨ len = 0 then none else data).getD [] ∧
      (payloadOf data len).2
        = if (if data = none ∨ len = 0 then none else data) = none then 0 else len := by
  rw [payloadOf]
  split_ifs with h1 h2 h2
  · exact ⟨rfl, rfl⟩
  · exact absurd rfl h2
  · exact absurd (.inl h2) h1
  · exact ⟨rfl, rfl⟩

/-- The frame `frame_sender_control` builds. -/
def senderControlFrame (opcode : ℕ) (data : Option (List Byte)) (len : ℕ) (key : MaskingKey) :
    CwsFrame :=
  { fin := true, mask := true, isControl := true, isUrgent := false, opcode
    payload := (payloadOf data len).1, payloadLen := (payloadOf data len).2, maskingKey := key }

/-- The options of the three control frames. -/
inductive ControlOptions : Flags → ℕ → Prop where
  | close : ControlOptions cwsCloseBit wsOpcodeClose
  | ping : ControlOptions cwsPingBit wsOpcodePing
  | pong : ControlOptions cwsPongBit wsOpcodePong

/-- **`frame_sender_control`**, for what is not urgent. -/
theorem frameSenderControl_eq (env : Env) (s : Cws) {options : Flags} {opcode : ℕ}
    (hop : ControlOptions options opcode) (data : Option (List Byte)) (len : ℕ) :
    frameSenderControl env s options data len =
      if s.closeState.queued then (.closedConnection, s)
      else if wsCtlPayloadMax < (payloadOf data len).2 then (.appDataLengthTooLong, s)
      else sendFrame env s.tick (senderControlFrame opcode data len (env.random s.clock)) := by
  obtain ⟨hbytes, hlen⟩ := payloadOf_eq data len
  cases hop <;> simp only [frameSenderControl, senderControlFrame, hbytes, hlen] <;> rfl

/-- An urgent close frame is refused. -/
lemma frameSenderControl_urgent (env : Env) (s : Cws) (data : Option (List Byte)) (len : ℕ) :
    frameSenderControl env s (cwsCloseBit ||| cwsUrgent) data len = (.invalidOptions, s) := by
  rw [frameSenderControl]
  exact if_pos (by decide)

/-- The frame is one that a client may send. -/
lemma controlFrame_sender {options : Flags} {opcode : ℕ} (hop : ControlOptions options opcode)
    {data : Option (List Byte)} {len : ℕ} (hlen : (payloadOf data len).2 ≤ wsCtlPayloadMax)
    (key : MaskingKey) : ControlFrame (senderControlFrame opcode data len key) := by
  refine ⟨rfl, rfl, rfl, ?_, hlen⟩
  cases hop with
  | close => exact .inl rfl
  | ping => exact .inr (.inl rfl)
  | pong => exact .inr (.inr rfl)

/-- **`send_frame`**. -/
theorem out_sendFrame (env : Env) (s : Cws) (f : CwsFrame) :
    (sendFrame env s f).1 = .ok ∧ (sendFrame env s f).2.out = s.out.push f ∨
      (sendFrame env s f).1 = .outOfMemory ∧
        (sendFrame env s f).2.out = s.out.log (.allocFailed f) := by
  rw [sendFrame]
  split_ifs
  · refine .inl ⟨rfl, ?_⟩
    rw [out_unpauseSend, out_log rfl]
    rfl
  · exact .inr ⟨rfl, out_log rfl _⟩

/-- What `frame_sender_control` does, for what is not urgent. -/
lemma out_frameSenderControl (env : Env) (s : Cws) {options : Flags} {opcode : ℕ}
    (hop : ControlOptions options opcode) (data : Option (List Byte)) (len : ℕ) :
    let r := frameSenderControl env s options data len
    r.1 ≠ .ok ∧ r.2 = s ∧
        (s.closeState.queued = true ∨ wsCtlPayloadMax < (payloadOf data len).2) ∨
      s.closeState.queued = false ∧ ∃ f, ControlFrame f ∧ f.opcode = opcode ∧ f.isUrgent = false ∧
        (r.1 = .ok ∧ r.2.out = s.out.push f ∨
          r.1 = .outOfMemory ∧ r.2.out = s.out.log (.allocFailed f)) := by
  intro r
  have hr : r = _ := frameSenderControl_eq env s hop data len
  split_ifs at hr with hq hlen
  · rw [hr]
    exact .inl ⟨by simp, rfl, .inl hq⟩
  · rw [hr]
    exact .inl ⟨by simp, rfl, .inr hlen⟩
  · rw [hr]
    exact .inr ⟨Bool.eq_false_of_not_eq_true hq, _, controlFrame_sender hop (not_lt.mp hlen) _, rfl,
      rfl, out_sendFrame env s.tick _⟩

/-- The frame `frame_sender_data` builds. -/
def senderDataFrame (options : Flags) (opcode : ℕ) (data : Option (List Byte)) (len : ℕ)
    (key : MaskingKey) : CwsFrame :=
  { fin := cwsLast &&& options ≠ 0, mask := true, isControl := false, opcode
    payload := (payloadOf data len).1, payloadLen := (payloadOf data len).2, maskingKey := key }

/-- **`frame_sender_data`**. -/
theorem frameSenderData_eq (env : Env) (s : Cws) (options : Flags) (data : Option (List Byte))
    (len : ℕ) :
    frameSenderData env s options data len =
      if options ≠ options &&& (cwsNonctrlMask ||| cwsFirst ||| cwsLast) then (.invalidOptions, s)
      else
        match dataOpcode s.lastSentDataFrameInfo options with
        | .error e => (e, s)
        | .ok opcode =>
            if s.closeState.any then (.closedConnection, s)
            else
              sendFrame env (Cws.tick { s with lastSentDataFrameInfo := options })
                (senderDataFrame options opcode data len (env.random s.clock)) := by
  obtain ⟨hbytes, hlen⟩ := payloadOf_eq data len
  cases hop : dataOpcode s.lastSentDataFrameInfo options with
  | error e => simp only [frameSenderData, hop]
  | ok opcode => simp only [frameSenderData, senderDataFrame, hop, hbytes, hlen]

/-- The frame has the opcode and the fin bit of its options. -/
lemma dataFrame_sender {lastInfo options : Flags} {opcode : ℕ}
    (hop : dataOpcode lastInfo options = .ok opcode) (data : Option (List Byte)) (len : ℕ)
    (key : MaskingKey) : DataFrame lastInfo options (senderDataFrame options opcode data len key) :=
  ⟨rfl, rfl, rfl, rfl, hop⟩

/-! ## Steps

From one frame to a block, and to a close. -/

lemma steps_of_eq {o o' : Out} (h : o' = o) : Steps o o' := h ▸ .refl

/-- **`frame_sender_data`** is one step, or none. -/
lemma steps_frameSenderData (env : Env) (s : Cws) (options : Flags) (data : Option (List Byte))
    (len : ℕ) : Steps s.out (frameSenderData env s options data len).2.out := by
  rw [frameSenderData_eq]
  by_cases hopt : options ≠ options &&& (cwsNonctrlMask ||| cwsFirst ||| cwsLast)
  · rw [if_pos hopt]
  · rw [if_neg hopt]
    cases hop : dataOpcode s.lastSentDataFrameInfo options with
    | error e => exact .refl
    | ok opcode =>
        simp only
        split_ifs with hany
        · exact .refl
        · have hany' : s.out.closeState.any = false := Bool.eq_false_of_not_eq_true hany
          have hf := dataFrame_sender hop data len (env.random s.clock)
          rcases out_sendFrame env (Cws.tick { s with lastSentDataFrameInfo := options })
            (senderDataFrame options opcode data len (env.random s.clock)) with ⟨-, h⟩ | ⟨-, h⟩
          · rw [h]
            exact .single (.data hany' hf)
          · rw [h]
            exact .single (.dataFailed hany' hf)

lemma steps_dataBlockLoop (env : Env) (fuel : ℕ) : ∀ (s : Cws) (options : Flags)
    (buffer : List Byte) (len : ℕ),
      Steps s.out (dataBlockLoop env fuel s options buffer len).2.out := by
  induction fuel with
  | zero =>
      intro s options buffer len
      exact steps_frameSenderData ..
  | succ fuel ih =>
      intro s options buffer len
      simp only [dataBlockLoop]
      split_ifs
      · exact steps_frameSenderData ..
      · exact (steps_frameSenderData ..).trans (ih ..)
      · exact steps_frameSenderData ..

lemma steps_dataBlockSender (env : Env) (s : Cws) (options : Flags) (data : Option (List Byte))
    (len : ℕ) : Steps s.out (dataBlockSender env s options data len).2.out := by
  simp only [dataBlockSender]
  split_ifs
  · exact .refl
  · exact .refl
  · rcases data with _ | buffer
    · exact steps_frameSenderData ..
    · rcases len with _ | len
      · exact steps_frameSenderData ..
      · exact steps_dataBlockLoop ..

lemma steps_sendStream (env : Env) (s : Cws) (type info : Flags) (data : Option (List Byte))
    (len : ℕ) : Steps s.out (sendStream env s type info data len).2.out := by
  simp only [sendStream]
  split_ifs
  · exact .refl
  · exact .refl
  · exact .refl
  · exact steps_frameSenderData ..
  · exact steps_frameSenderData ..

/-- A ping or a pong. -/
lemma steps_frameSenderControl (env : Env) (s : Cws) {options : Flags} {opcode : ℕ}
    (hop : ControlOptions options opcode) (hclose : opcode ≠ wsOpcodeClose)
    (data : Option (List Byte)) (len : ℕ) :
    Steps s.out (frameSenderControl env s options data len).2.out := by
  rcases out_frameSenderControl env s hop data len with
    ⟨-, h, -⟩ | ⟨hq, f, hf, hfop, -, ⟨-, h⟩ | ⟨-, h⟩⟩
  · rw [h]
  · rw [h]
    exact .single (.control hq hf (hfop ▸ hclose))
  · rw [h]
    exact .single (.controlFailed hf (hfop ▸ hclose))

/-- The reason of an accepted close leaves room for the code. -/
lemma normalizeReason_len {reason : Option (List Byte)} {len n : ℕ}
    (hnull : ¬ (reason = none ∧ 0 < len)) (h : normalizeReason reason len = .ok n) :
    n ≤ wsCtlPayloadMax - 3 := by
  rcases reason with _ | r
  · have h0 : len = 0 := by
      by_contra hne
      exact hnull ⟨rfl, Nat.pos_of_ne_zero hne⟩
    rw [normalizeReason, h0] at h
    cases h
    exact Nat.zero_le _
  · simp only [normalizeReason] at h
    split_ifs at h with h1 h2 h3
    all_goals cases h
    all_goals omega

/-- What `_normalize_close_inputs` hands back. -/
lemma normalizeCloseInputs_ok {code : ℤ} {reason : Option (List Byte)} {len : ℕ} {c : CloseInputs}
    (hnull : ¬ (reason = none ∧ 0 < len)) (h : normalizeCloseInputs code reason len = .ok c) :
    c.options = (if code < 0 then cwsCloseBit ||| cwsUrgent else cwsCloseBit) ∧
      c.len ≤ wsCtlPayloadMax - 3 ∧ (c.code = 0 → c.len = 0) := by
  simp only [normalizeCloseInputs] at h
  cases hr : normalizeReason reason len with
  | error e =>
      rw [hr] at h
      cases h
  | ok n =>
      have hn := normalizeReason_len hnull hr
      rw [hr] at h
      generalize (if code < 0 then (if code = -1 then 0 else 0 - code) else code) = code' at h
      generalize (if code < 0 then cwsCloseBit ||| cwsUrgent else cwsCloseBit) = options at h ⊢
      simp only at h
      split_ifs at h with h1 h2 h3
      · cases h
        exact ⟨rfl, hn, fun _ => Nat.eq_zero_of_not_pos h2⟩
      · cases h
        exact ⟨rfl, hn, fun h0 => absurd h0 h1⟩

lemma payloadOf_len_le (data : Option (List Byte)) (len : ℕ) : (payloadOf data len).2 ≤ len := by
  rw [payloadOf]
  split_ifs
  · exact Nat.zero_le _
  · exact le_rfl

/-- A change of `close_state` is reported at once. -/
lemma out_setClose (s : Cws) (c : CloseState) :
    ({ s with closeState := c } : Cws).verboseClose.out = s.out.setClose c := by
  rw [out_verboseClose]
  rfl

/-- **`cws_close`** is one step. -/
theorem micro_cwsClose (env : Env) (s : Cws) (code : ℤ) (reason : Option (List Byte)) (len : ℕ) :
    Micro s.out (cwsClose env s code reason len).2.out := by
  generalize hs₁ : s.log (.closeCall code reason len s.closeState.queued) = s₁
  have hout : s₁.out = s.out.log (.closeCall code reason len s.closeState.queued) := by
    rw [← hs₁, out_log rfl]
  have hstate : s₁.closeState = s.closeState := by rw [← hs₁]; rfl
  simp only [cwsClose, hs₁]
  by_cases hnull : reason = none ∧ 0 < len
  · rw [if_pos hnull, hout]
    exact .closeIgnored code reason len (.inr fun h => h.1 hnull)
  · rw [if_neg hnull]
    cases hnorm : normalizeCloseInputs code reason len with
    | error e =>
        simp only
        rw [hout]
        refine .closeIgnored code reason len (.inr ?_)
        rintro ⟨_, c, hc⟩
        rw [hnorm] at hc
        cases hc
    | ok c =>
        obtain ⟨hoptions, hlen, hempty⟩ := normalizeCloseInputs_ok hnull hnorm
        have hshort : ∀ payload : Option (List Byte),
            (payloadOf payload (if c.code ≠ 0 then c.len + 2 else c.len)).2 ≤ wsCtlPayloadMax := by
          intro payload
          refine (payloadOf_len_le payload _).trans ?_
          simp only [wsCtlPayloadMax] at hlen ⊢
          split_ifs <;> omega
        simp only [apply_ite Prod.snd, apply_ite Cws.out, out_setClose]
        rw [hoptions]
        by_cases hcode : code < 0
        · -- the urgent form is refused by `frame_sender_control`
          rw [if_pos hcode, frameSenderControl_urgent]
          simp only [hstate]
          split_ifs with hq
          · rw [hout]
            exact .closeIgnored code reason len (.inl hq)
          · have hq' := Bool.eq_false_of_not_eq_true hq
            rw [hout, hq']
            exact .closeLost code reason len hq' ⟨hnull, c, hnorm⟩ hcode
        · rw [if_neg hcode]
          have hcode' := not_lt.mp hcode
          rcases out_frameSenderControl env s₁ .close (closePayload c.code reason c.len) _ with
            ⟨-, h, hwhy⟩ | ⟨hq, f, hf, hop, hurgent, hr⟩
          · have hq := hwhy.resolve_right (not_lt.mpr (hshort _))
            rw [h, if_pos hq, hout]
            rw [hstate] at hq
            exact .closeIgnored code reason len (.inl hq)
          · rw [hstate] at hq
            rw [hout, hq] at hr
            rcases hr with ⟨-, h⟩ | ⟨-, h⟩
            · have hc := congrArg Out.closeState h
              change Cws.closeState _ = s.closeState at hc
              rw [hc, if_neg (by simp [hq]), h]
              exact .close code reason len hq hcode' hf hop hurgent
            · have hc := congrArg Out.closeState h
              change Cws.closeState _ = s.closeState at hc
              rw [hc, if_neg (by simp [hq]), h]
              exact .closeFailed code reason len hq hcode' hop

/-! ## Calls of public functions

Each call is a sequence of steps, a refused one of none. -/

lemma steps_cwsSendBlkBinary (env : Env) (s : Cws) (data : Option (List Byte)) (len : ℕ) :
    Steps s.out (cwsSendBlkBinary env s data len).2.out := by
  rw [cwsSendBlkBinary]
  split_ifs
  · exact .refl
  · exact steps_dataBlockSender ..

lemma steps_cwsSendBlkText (env : Env) (s : Cws) (text : Option (List Byte)) (len : ℕ) :
    Steps s.out (cwsSendBlkText env s text len).2.out := by
  cases text with
  | none =>
      simp only [cwsSendBlkText]
      split_ifs
      · exact .refl
      · exact steps_dataBlockSender ..
  | some t =>
      simp only [cwsSendBlkText]
      generalize (if len = sizeMax then strlen t else len) = n
      split_ifs
      · exact .refl
      · exact steps_dataBlockSender ..
      · exact steps_dataBlockSender ..

lemma steps_cwsSendStrmText (env : Env) (s : Cws) (info : Flags) (text : Option (List Byte))
    (len : ℕ) : Steps s.out (cwsSendStrmText env s info text len).2.out := by
  cases text with
  | none => exact steps_sendStream ..
  | some t =>
      simp only [cwsSendStrmText]
      by_cases hlen : 0 < len
      · rw [if_pos hlen]
        cases utf8Validate (t.take (if len = sizeMax then strlen t else len)) with
        | none => exact .refl
        | some n => exact steps_sendStream ..
      · rw [if_neg hlen]
        exact steps_sendStream ..

lemma out_cwsDestroy (s : Cws) : (cwsDestroy s).out = s.out := by
  rw [cwsDestroy]
  split_ifs <;> rfl

/-- **A call of a public function** is a sequence of steps. -/
theorem steps_apiCall (env : Env) (s : Cws) (c : ApiCall) :
    Steps s.out (apiCall env s c).2.out := by
  cases c with
  | ping data len => exact steps_frameSenderControl env s .ping (by decide) data len
  | pong data len => exact steps_frameSenderControl env s .pong (by decide) data len
  | close code reason len => exact .single (micro_cwsClose env s code reason len)
  | sendBlkBinary data len => exact steps_cwsSendBlkBinary ..
  | sendBlkText text len => exact steps_cwsSendBlkText ..
  | sendStrmBinary info data len => exact steps_sendStream ..
  | sendStrmText info text len => exact steps_cwsSendStrmText ..
  | destroy => exact steps_of_eq (out_cwsDestroy s)

/-! ## Draining

The queue while curl takes bytes off it. -/

/-- Only the head of the queue can have been sent in part, and it has not been sent whole. -/
def Tidy : List BufQueue → Prop
  | [] => True
  | head :: rest => (head.sent = 0 ∨ head.sent < head.written) ∧ ∀ b ∈ rest, b.sent = 0

@[simp] lemma tidy_nil : Tidy [] := trivial

lemma tidy_of_sent_eq_zero {queue : List BufQueue} (h : ∀ b ∈ queue, b.sent = 0) : Tidy queue := by
  cases queue with
  | nil => exact tidy_nil
  | cons head rest =>
      exact ⟨.inl (h head List.mem_cons_self), fun b hb => h b (List.mem_cons_of_mem _ hb)⟩

lemma Tidy.tail {head : BufQueue} {rest : List BufQueue} (h : Tidy (head :: rest)) : Tidy rest :=
  tidy_of_sent_eq_zero h.2

/-- A new buffer does not disturb the order of the queue. -/
lemma Tidy.enqueue {queue : List BufQueue} (h : Tidy queue) {b : BufQueue} (hb : b.sent = 0)
    (isUrgent : Bool) : Tidy (enqueue queue b isUrgent) := by
  cases queue with
  | nil => exact ⟨.inl hb, fun b' hb' => absurd hb' List.not_mem_nil⟩
  | cons head rest =>
      obtain ⟨hhead, hrest⟩ := h
      simp only [CurlWs.enqueue]
      split_ifs with hu hs
      · refine ⟨hhead, fun b' hb' => ?_⟩
        rcases List.mem_cons.mp hb' with rfl | hb'
        · exact hb
        · exact hrest b' hb'
      · refine ⟨.inl hb, fun b' hb' => ?_⟩
        rcases List.mem_cons.mp hb' with rfl | hb'
        · exact Nat.eq_zero_of_not_pos hs
        · exact hrest b' hb'
      · refine ⟨hhead, fun b' hb' => ?_⟩
        rcases List.mem_append.mp hb' with hb' | hb'
        · exact hrest b' hb'
        · rw [List.mem_singleton.mp hb']
          exact hb

/-- **One step** keeps the queue tidy. -/
lemma Micro.tidy {o o' : Out} (h : Micro o o') (ht : Tidy o.send) : Tidy o'.send := by
  cases h with
  | control | data | close => exact ht.enqueue rfl _
  | advance hs hk hlt =>
      rw [hs] at ht
      exact ⟨.inr hlt, ht.2⟩
  | popped hs =>
      rw [hs] at ht
      exact ht.tail
  | closeSent => exact tidy_nil
  | _ => exact ht

/-- **Any number of steps** do. -/
lemma Steps.tidy {o o' : Out} (h : Steps o o') (ht : Tidy o.send) : Tidy o'.send := by
  induction h with
  | refl => exact ht
  | tail _ hstep ih => exact hstep.tidy ih

/-- The loop of `_fill_outgoing_buffer`, entered with what is left of the head. -/
lemma steps_fillLoop (fuel : ℕ) : ∀ (s : Cws) (len dataToSend : ℕ), Tidy s.send →
    (∀ head ∈ s.send.head?, dataToSend = head.written - head.sent) →
    Steps s.out (fillLoop fuel s len dataToSend).2.out := by
  induction fuel with
  | zero =>
      intro s len dataToSend _ _
      exact .refl
  | succ fuel ih =>
      intro s len dataToSend ht hdata
      by_cases hroom : len = 0 ∨ dataToSend = 0
      · rw [fillLoop_stop _ hroom]
      cases hs : s.send with
      | nil =>
          rw [fillLoop, hs]
      | cons head rest =>
          rw [hs] at ht hdata
          have hleft : dataToSend = head.written - head.sent := hdata head rfl
          have hlt : head.sent < head.written := by omega
          rw [fillLoop_cons hs fuel (by omega) (by omega) (k := min len dataToSend) rfl]
          simp only
          split_ifs with hwhole hclose
          · have hout : (closeSent s).out =
                { (s.out.setClose { s.closeState with sent := true }) with send := [] } := by
              rw [← out_setClose]
              rfl
            simp only [hout]
            exact .single (.closeSent hs hlt hclose)
          · refine .head (Micro.popped hs hlt (Bool.eq_false_of_not_eq_true hclose)) ?_
            refine ih { s with send := rest } _ _ ht.tail fun next hnext => ?_
            have hzero := ht.2 next (List.mem_of_mem_head? hnext)
            change rest.head? = some next at hnext
            simp only [hnext, Option.map_some, Option.getD_some]
            omega
          · refine .head (Micro.advance (k := min len dataToSend) hs (by omega) (by omega)) ?_
            refine ih
              { s with send := { head with sent := head.sent + min len dataToSend } :: rest }
              _ _ ⟨.inr (show head.sent + _ < head.written by omega), ht.2⟩ fun head' hhead' => ?_
            cases hhead'
            show dataToSend - _ = head.written - (head.sent + _)
            omega

/-- **A drain of the queue** is a sequence of steps. -/
theorem steps_sendCb {s : Cws} (ht : Tidy s.send) (len : ℕ) : Steps s.out (sendCb s len).2.out := by
  rw [sendCb]
  split_ifs with hred hs hready
  · exact .refl
  · simp only [out_setClose]
    exact .single (.closed hs hready)
  · exact .single (.pause hs (Bool.eq_false_of_not_eq_true hready))
  · rw [out_log rfl, fillOutgoingBuffer]
    refine .tail ?_ (.sent _)
    cases hcons : s.send with
    | nil => exact .refl
    | cons head rest =>
        refine steps_fillLoop len s len _ ht fun head' hhead' => ?_
        rw [hcons] at hhead'
        cases hhead'
        rfl

end CurlWs
