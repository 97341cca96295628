import CurlWs.Send.Continuity

/-!
# What the public functions add to the trace

A call of a public function adds events of the sending side, and which frames it can queue depends
on the function only.

**Growing traces.**  `Emits Q` says that a trace has grown by events in `Q`.  It holds of nothing,
of one event, and of one part of the code after another, so a function has its lemma as soon as
those it calls have theirs.

**Opcodes.**  `Sending ops` are the events of the sending side that queue no frame but those with an
opcode in `ops`, and report a changed `close_state` only if close frames are among them.  A control
frame has the opcode of its options, a data frame one of three (`IsDataOpcode`), and `cws_close` the
opcode of a close frame.

**Uses.**  What a user function may not do is stated through this: not to close is to make no call
that queues a close frame, and not to answer pings is to make none that queues a pong.

* **`emits_apiCall`** — the events of a call.
-/

namespace CurlWs

/-- From one state to the other the trace has grown by events in `Q`. -/
def Emits (Q : Event → Prop) (s s' : Cws) : Prop :=
  ∃ evs, s'.trace = s.trace ++ evs ∧ ∀ e ∈ evs, Q e

section

variable {Q : Event → Prop} {s s₁ s₂ : Cws}

lemma emits_of_eq (h : s₁.trace = s.trace) : Emits Q s s₁ :=
  ⟨[], by rw [h, List.append_nil], fun _ he => absurd he List.not_mem_nil⟩

lemma emits_log {e : Event} (he : Q e) (s : Cws) : Emits Q s (s.log e) :=
  ⟨[e], rfl, fun _ hmem => List.mem_singleton.mp hmem ▸ he⟩

/-- One part of the code after the other. -/
lemma Emits.trans (h : Emits Q s s₁) (h' : Emits Q s₁ s₂) : Emits Q s s₂ := by
  obtain ⟨evs, htrace, hall⟩ := h
  obtain ⟨evs', htrace', hall'⟩ := h'
  refine ⟨evs ++ evs', ?_, fun e he => ?_⟩
  · rw [htrace', htrace, List.append_assoc]
  · rcases List.mem_append.mp he with he | he
    · exact hall e he
    · exact hall' e he

/-- Fewer events are more. -/
lemma Emits.mono {Q' : Event → Prop} (h : Emits Q s s₁) (hQ : ∀ e, Q e → Q' e) :
    Emits Q' s s₁ := by
  obtain ⟨evs, htrace, hall⟩ := h
  exact ⟨evs, htrace, fun e he => hQ e (hall e he)⟩

end

/-! ## Frames

From `send_frame` up to the functions that are called by the application. -/

/-- An event of the sending side that queues nothing but a frame with an opcode in `ops`, and
reports a changed `close_state` only if close frames are among them. -/
structure Sending (ops : ℕ → Prop) (e : Event) : Prop where
  outgoing : e.isReceive = false
  opcode : ∀ f, e = .queued f → ops f.opcode
  reports : e.reports ≠ none → ops wsOpcodeClose

/-- The opcodes of data frames. -/
def IsDataOpcode (opcode : ℕ) : Prop := controlOpcode opcode = some false

/-- **`send_frame`** queues the frame it is given, or refuses it. -/
lemma emits_sendFrame {ops : ℕ → Prop} {f : CwsFrame} (hop : ops f.opcode) (env : Env) (s : Cws) :
    Emits (Sending ops) s (sendFrame env s f).2 := by
  rw [sendFrame]
  split_ifs
  · refine ⟨[.queued f], rfl, fun e he => ?_⟩
    rw [List.mem_singleton.mp he]
    refine ⟨rfl, fun g hg => ?_, fun hne => absurd rfl hne⟩
    rw [← Event.queued.inj hg]
    exact hop
  · refine ⟨[.allocFailed f], rfl, fun e he => ?_⟩
    rw [List.mem_singleton.mp he]
    exact ⟨rfl, fun g hg => Event.noConfusion hg, fun hne => absurd rfl hne⟩

section

variable (env : Env) (s : Cws)

/-- **`frame_sender_control`** queues a frame of one opcode. -/
lemma emits_frameSenderControl {options : Flags} {opcode : ℕ} (hop : ControlOptions options opcode)
    (data : Option (List Byte)) (len : ℕ) :
    Emits (Sending (· = opcode)) s (frameSenderControl env s options data len).2 := by
  rw [frameSenderControl_eq env s hop]
  split_ifs
  · exact emits_of_eq rfl
  · exact emits_of_eq rfl
  · have htick : Emits (Sending (· = opcode)) s s.tick := emits_of_eq rfl
    exact htick.trans (@emits_sendFrame (· = opcode) _ rfl env s.tick)

/-- **`frame_sender_data`** queues data frames. -/
lemma emits_frameSenderData (options : Flags) (data : Option (List Byte)) (len : ℕ) :
    Emits (Sending IsDataOpcode) s (frameSenderData env s options data len).2 := by
  rw [frameSenderData_eq]
  by_cases hopt : options ≠ options &&& (cwsNonctrlMask ||| cwsFirst ||| cwsLast)
  · rw [if_pos hopt]
    exact emits_of_eq rfl
  · rw [if_neg hopt]
    cases hop : dataOpcode s.lastSentDataFrameInfo options with
    | error e => exact emits_of_eq rfl
    | ok opcode =>
        have hdata : IsDataOpcode opcode :=
          (dataFrame_sender hop data len (env.random s.clock)).controlOpcode
        simp only
        split_ifs
        · exact emits_of_eq rfl
        · have htick : Emits (Sending IsDataOpcode) s
              (Cws.tick { s with lastSentDataFrameInfo := options }) := emits_of_eq rfl
          exact htick.trans (emits_sendFrame hdata env _)

lemma emits_dataBlockLoop (fuel : ℕ) : ∀ (s : Cws) (options : Flags) (buffer : List Byte) (len : ℕ),
    Emits (Sending IsDataOpcode) s (dataBlockLoop env fuel s options buffer len).2 := by
  induction fuel with
  | zero =>
      intro s options buffer len
      exact emits_frameSenderData ..
  | succ fuel ih =>
      intro s options buffer len
      simp only [dataBlockLoop]
      split_ifs
      · exact emits_frameSenderData ..
      · exact (emits_frameSenderData ..).trans (ih ..)
      · exact emits_frameSenderData ..

lemma emits_dataBlockSender (options : Flags) (data : Option (List Byte)) (len : ℕ) :
    Emits (Sending IsDataOpcode) s (dataBlockSender env s options data len).2 := by
  simp only [dataBlockSender]
  split_ifs
  · exact emits_of_eq rfl
  · exact emits_of_eq rfl
  · rcases data with _ | buffer
    · exact emits_frameSenderData ..
    · rcases len with _ | len
      · exact emits_frameSenderData ..
      · exact emits_dataBlockLoop ..

lemma emits_sendStream (type info : Flags) (data : Option (List Byte)) (len : ℕ) :
    Emits (Sending IsDataOpcode) s (sendStream env s type info data len).2 := by
  simp only [sendStream]
  split_ifs
  · exact emits_of_eq rfl
  · exact emits_of_eq rfl
  · exact emits_of_eq rfl
  · exact emits_frameSenderData ..
  · exact emits_frameSenderData ..

lemma emits_verboseClose (c : CloseState) : Emits (Sending (· = wsOpcodeClose)) s
    ({ s with closeState := c } : Cws).verboseClose := by
  refine ⟨[.closeState c], rfl, fun e he => ?_⟩
  rw [List.mem_singleton.mp he]
  exact ⟨rfl, fun f hf => Event.noConfusion hf, fun _ => rfl⟩

/-- **`cws_close`** queues close frames only. -/
lemma emits_cwsClose (code : ℤ) (reason : Option (List Byte)) (len : ℕ) :
    Emits (Sending (· = wsOpcodeClose)) s (cwsClose env s code reason len).2 := by
  have hlog : Emits (Sending (· = wsOpcodeClose)) s
      (s.log (.closeCall code reason len s.closeState.queued)) :=
    emits_log ⟨rfl, fun f hf => Event.noConfusion hf, fun hne => absurd rfl hne⟩ s
  simp only [cwsClose]
  by_cases hnull : reason = none ∧ 0 < len
  · rw [if_pos hnull]
    exact hlog
  · rw [if_neg hnull]
    cases hnorm : normalizeCloseInputs code reason len with
    | error e => exact hlog
    | ok c =>
        obtain ⟨hoptions, -, -⟩ := normalizeCloseInputs_ok hnull hnorm
        have hframe : Emits (Sending (· = wsOpcodeClose)) s
            (frameSenderControl env (s.log (.closeCall code reason len s.closeState.queued))
              c.options (closePayload c.code reason c.len)
              (if c.code ≠ 0 then c.len + 2 else c.len)).2 := by
          rw [hoptions]
          split_ifs
          · rw [frameSenderControl_urgent]
            exact hlog
          · rw [frameSenderControl_urgent]
            exact hlog
          · exact hlog.trans (emits_frameSenderControl env _ .close _ _)
          · exact hlog.trans (emits_frameSenderControl env _ .close _ _)
        simp only
        split_ifs at hframe ⊢
        · exact hframe
        · exact hframe.trans (emits_verboseClose _ _)
        · exact hframe
        · exact hframe.trans (emits_verboseClose _ _)

/-- **`_error_close`** records its code, and otherwise adds what `cws_close` adds. -/
lemma emits_errorClose {Q : Event → Prop} {code : ℤ} (hclosing : Q (.closing code))
    (hclose : ∀ e, Sending (· = wsOpcodeClose) e → Q e) (reason : Option (List Byte)) (len : ℕ) :
    Emits Q s (errorClose env s code reason len) := by
  simp only [errorClose]
  split_ifs
  · exact emits_of_eq rfl
  · generalize hs₀ : ({ s with closeState := { s.closeState with received := true } } : Cws) = s₀
    have hstart : Emits Q s s₀ := by
      rw [← hs₀]
      exact emits_of_eq rfl
    have hlogged := hstart.trans (emits_log hclosing s₀)
    generalize s₀.log (.closing code) = s₁ at hlogged
    have hreport : Emits Q s s₁.verboseClose :=
      hlogged.trans ((emits_verboseClose s₁ s₁.closeState).mono hclose)
    have hqueue := hreport.trans ((emits_cwsClose env s₁.verboseClose code reason len).mono hclose)
    exact hqueue.trans (emits_of_eq rfl)

end

/-! ## Calls of public functions

What a call can queue, by its name. -/

/-- The opcodes of the frames a call can queue. -/
def ApiCall.queues : ApiCall → ℕ → Prop
  | .ping .. => (· = wsOpcodePing)
  | .pong .. => (· = wsOpcodePong)
  | .close .. => (· = wsOpcodeClose)
  | .sendBlkBinary .. | .sendBlkText .. | .sendStrmBinary .. | .sendStrmText .. => IsDataOpcode
  | .destroy => fun _ => False

/-- What the opcode of a frame says about the call that queues it. -/
lemma ApiCall.of_queues {c : ApiCall} {opcode : ℕ} (h : c.queues opcode) :
    (opcode = wsOpcodePing ∧ ∃ data len, c = .ping data len) ∨
      (opcode = wsOpcodePong ∧ ∃ data len, c = .pong data len) ∨
      (opcode = wsOpcodeClose ∧ ∃ code reason len, c = .close code reason len) ∨
      IsDataOpcode opcode := by
  cases c with
  | ping data len => exact .inl ⟨h, data, len, rfl⟩
  | pong data len => exact .inr (.inl ⟨h, data, len, rfl⟩)
  | close code reason len => exact .inr (.inr (.inl ⟨h, code, reason, len, rfl⟩))
  | destroy => exact absurd h id
  | _ => exact .inr (.inr (.inr h))

lemma ApiCall.queues_pong {c : ApiCall} (h : c.queues wsOpcodePong) :
    ∃ data len, c = .pong data len := by
  rcases of_queues h with ⟨hop, -⟩ | ⟨-, hc⟩ | ⟨hop, -⟩ | hop
  · exact absurd hop (by decide)
  · exact hc
  · exact absurd hop (by decide)
  · cases hop

lemma ApiCall.queues_close {c : ApiCall} (h : c.queues wsOpcodeClose) :
    ∃ code reason len, c = .close code reason len := by
  rcases of_queues h with ⟨hop, -⟩ | ⟨hop, -⟩ | ⟨-, hc⟩ | hop
  · exact absurd hop (by decide)
  · exact absurd hop (by decide)
  · exact hc
  · cases hop

/-- **A call of a public function** adds events of the sending side and queues frames of its own
opcodes. -/
theorem emits_apiCall (env : Env) (s : Cws) (c : ApiCall) :
    Emits (Sending c.queues) s (apiCall env s c).2 := by
  cases c with
  | ping data len => exact emits_frameSenderControl env s .ping data len
  | pong data len => exact emits_frameSenderControl env s .pong data len
  | close code reason len => exact emits_cwsClose env s code reason len
  | sendBlkBinary data len =>
      simp only [apiCall, cwsSendBlkBinary]
      split_ifs
      · exact emits_of_eq rfl
      · exact emits_dataBlockSender ..
  | sendBlkText text len =>
      cases text with
      | none =>
          simp only [apiCall, cwsSendBlkText]
          split_ifs
          · exact emits_of_eq rfl
          · exact emits_dataBlockSender ..
      | some t =>
          simp only [apiCall, cwsSendBlkText]
          generalize (if len = sizeMax then strlen t else len) = n
          split_ifs
          · exact emits_of_eq rfl
          · exact emits_dataBlockSender ..
          · exact emits_dataBlockSender ..
  | sendStrmBinary info data len => exact emits_sendStream ..
  | sendStrmText info text len =>
      cases text with
      | none => exact emits_sendStream ..
      | some t =>
          simp only [apiCall, cwsSendStrmText]
          by_cases hlen : 0 < len
          · rw [if_pos hlen]
            cases utf8Validate (t.take (if len = sizeMax then strlen t else len)) with
            | none => exact emits_of_eq rfl
            | some n => exact emits_sendStream ..
          · rw [if_neg hlen]
            exact emits_sendStream ..
  | destroy =>
      simp only [apiCall, cwsDestroy]
      split_ifs <;> exact emits_of_eq rfl

end CurlWs
