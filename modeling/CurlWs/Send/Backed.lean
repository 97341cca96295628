import CurlWs.Send.OrdinaryClose
import CurlWs.Send.Stream

/-!
# What is put behind the queue

With data that is there as far as its length says, and no way to make a frame urgent, whatever a
call or a callback does to the queue is to put whole frames behind what waits.

**Data that is there.**  A length and a pointer come from the application, and nothing in the code
can check that there are so many bytes.  `ApiCall.Backed` is that they are, for one call;
`Env.Backed` for all calls of the user's functions.  The reason of a close is cut at its length, and
a length of zero or of `SIZE_MAX` is handled by the code (`normalizeReason_readable`).

**Adding.**  `Adds` relates two states of a connection: the same configuration, the same bytes
handed to curl, and some frames more, each of which a client may send (`Plain`), behind the ones
that wait. It is kept along one function after another.

## Main results

* **`adds_apiCall`** — a call of a public function.
* **`along_adds`** — the receive path and the callbacks.
-/

namespace CurlWs

open Outbox WebSocket

/-! ## The frames that are queued

From `send_frame` up to whole calls, and then to the callbacks that make them. -/

/-- The data of a call is there, as far as its length says. -/
def ApiCall.Backed : ApiCall → Prop
  | .ping data len | .pong data len => InMemory data len
  | .sendBlkBinary data len | .sendStrmBinary _ data len => InMemory data len
  | .sendBlkText text len | .sendStrmText _ text len => InMemory text (textLen text len)
  | .close .. | .destroy => True

/-- A frame a client may send, to go behind all that waits. -/
structure Plain (f : CwsFrame) : Prop where
  sendable : Sendable f
  isUrgent : f.isUrgent = false

/-- From one state to the other frames have been queued, and nothing has left the queue. -/
structure Adds (s s' : Cws) : Prop where
  cfg : s'.cfg = s.cfg
  bytes : sentBytes s'.trace = sentBytes s.trace
  frames : ∃ fs, (∀ f ∈ fs, Plain f) ∧ queuedFrames s'.trace = queuedFrames s.trace ++ fs ∧
    s'.send = s.send ++ fs.map (encodedBuf s.cfg)

section

variable {s s₁ s₂ : Cws}

/-- Nothing has been queued. -/
lemma adds_nothing (hcfg : s₁.cfg = s.cfg) (hsend : s₁.send = s.send)
    (hframes : queuedFrames s₁.trace = queuedFrames s.trace)
    (hbytes : sentBytes s₁.trace = sentBytes s.trace) : Adds s s₁ := by
  refine ⟨hcfg, hbytes, [], List.forall_mem_nil _, ?_, ?_⟩
  · rw [hframes, List.append_nil]
  · rw [hsend, List.map_nil, List.append_nil]

lemma Adds.refl (s : Cws) : Adds s s := adds_nothing rfl rfl rfl rfl

/-- One part of the code after the other. -/
lemma Adds.trans (h : Adds s s₁) (h' : Adds s₁ s₂) : Adds s s₂ := by
  obtain ⟨fs, hfs, hframes, hsend⟩ := h.frames
  obtain ⟨fs', hfs', hframes', hsend'⟩ := h'.frames
  refine ⟨h'.cfg.trans h.cfg, h'.bytes.trans h.bytes, fs ++ fs', ?_, ?_, ?_⟩
  · intro f hf
    rcases List.mem_append.mp hf with hf | hf
    · exact hfs f hf
    · exact hfs' f hf
  · rw [hframes', hframes, List.append_assoc]
  · rw [hsend', hsend, h.cfg, List.map_append, List.append_assoc]

/-- Events that are neither frames nor bytes. -/
lemma adds_log {e : Event} (hq : e.queues = none) (hb : sentBytes [e] = []) (s : Cws) :
    Adds s (s.log e) := by
  refine adds_nothing rfl rfl (queuedFrames_concat hq s.trace) ?_
  rw [Cws.log, sentBytes_append, hb, List.append_nil]

end

/-- **`send_frame`**. -/
lemma adds_sendFrame (env : Env) (s : Cws) {f : CwsFrame} (hf : Plain f) :
    Adds s (sendFrame env s f).2 := by
  by_cases halloc : env.alloc s.clock = true
  · rw [sendFrame, if_pos halloc]
    refine ⟨rfl, ?_, [f], fun g hg => List.mem_singleton.mp hg ▸ hf, ?_, ?_⟩
    · show sentBytes (s.trace ++ [.queued f]) = _
      rw [sentBytes_append]
      exact List.append_nil _
    · exact queuedFrames_queued s.trace f
    · show enqueue s.send (encodedBuf s.cfg f) f.isUrgent = _
      rw [hf.isUrgent, enqueue_of_not_urgent]
      rfl
  · rw [sendFrame, if_neg halloc]
    have htick : Adds s s.tick := adds_nothing rfl rfl rfl rfl
    exact htick.trans (adds_log rfl rfl s.tick)

/-- NULL stands for no bytes, whatever the length. -/
lemma readable_payloadOf {data : Option (List Byte)} {len : ℕ} (h : ∀ d ∈ data, len ≤ d.length) :
    (payloadOf data len).2 ≤ (payloadOf data len).1.length := by
  rw [payloadOf]
  split_ifs with hnone
  · exact Nat.zero_le _
  · cases data with
    | none => exact absurd (.inl rfl) hnone
    | some d => exact h d rfl

section

variable (env : Env) (s : Cws)

/-- **`frame_sender_control`**. -/
lemma adds_frameSenderControl {options : Flags} {opcode : ℕ} (hop : ControlOptions options opcode)
    {data : Option (List Byte)} {len : ℕ} (hread : ∀ d ∈ data, len ≤ d.length) :
    Adds s (frameSenderControl env s options data len).2 := by
  rw [frameSenderControl_eq env s hop]
  split_ifs with hq hlong
  · exact .refl s
  · exact .refl s
  · have hlen := not_lt.mp hlong
    have hknown : controlOpcode opcode = some true := by cases hop <;> rfl
    have hf : Plain (senderControlFrame opcode data len (env.random s.clock)) := by
      refine ⟨⟨rfl, hknown, readable_payloadOf hread, hlen.trans_lt (by decide), ?_⟩, rfl⟩
      exact fun _ => ⟨rfl, hlen⟩
    have htick : Adds s s.tick := adds_nothing rfl rfl rfl rfl
    exact htick.trans (adds_sendFrame env s.tick hf)

/-- **`frame_sender_data`**. -/
lemma adds_frameSenderData (options : Flags) {data : Option (List Byte)} {len : ℕ}
    (hmem : InMemory data len) : Adds s (frameSenderData env s options data len).2 := by
  rw [frameSenderData_eq]
  by_cases hopt : options ≠ options &&& (cwsNonctrlMask ||| cwsFirst ||| cwsLast)
  · rw [if_pos hopt]
    exact .refl s
  · rw [if_neg hopt]
    cases hop : dataOpcode s.lastSentDataFrameInfo options with
    | error e => exact .refl s
    | ok opcode =>
        simp only
        split_ifs with hany
        · exact .refl s
        · have hf : Plain (senderDataFrame options opcode data len (env.random s.clock)) := by
            have hdata := dataFrame_sender hop data len (env.random s.clock)
            have hread := readable_payloadOf hmem.le
            refine ⟨⟨rfl, hdata.controlOpcode, hread, ?_, fun h => Bool.noConfusion h⟩, rfl⟩
            refine lt_of_le_of_lt (b := (givenBytes data len).length) ?_ hmem.lt
            exact (payloadOf_given hmem.le).2.le
          have hbegin : Adds s (Cws.tick { s with lastSentDataFrameInfo := options }) :=
            adds_nothing rfl rfl rfl rfl
          exact hbegin.trans (adds_sendFrame env _ hf)

/-- A part of what is there is there. -/
lemma InMemory.take {data : Option (List Byte)} {len n : ℕ} (h : InMemory data len) (hn : n ≤ len) :
    InMemory data n := fun d hd => ⟨hn.trans (h d hd).1, (h d hd).2⟩

/-- The loop cuts frame after frame off what is there. -/
lemma adds_dataBlockLoop (fuel : ℕ) : ∀ (s : Cws) (options : Flags) {buffer : List Byte} {len : ℕ},
    InMemory (some buffer) len → Adds s (dataBlockLoop env fuel s options buffer len).2 := by
  induction fuel with
  | zero =>
      intro s options buffer len hmem
      exact adds_frameSenderData env s _ hmem
  | succ fuel ih =>
      intro s options buffer len hmem
      simp only [dataBlockLoop]
      split_ifs with hmore hfail
      · exact adds_frameSenderData env s _ (hmem.take hmore.le)
      · refine (adds_frameSenderData env s _ (hmem.take hmore.le)).trans (ih _ _ ?_)
        intro d hd
        obtain rfl := Option.some.inj hd
        obtain ⟨hlen, hlt⟩ := hmem buffer rfl
        rw [List.length_drop]
        omega
      · exact adds_frameSenderData env s _ hmem

/-- **`data_block_sender`**. -/
lemma adds_dataBlockSender (options : Flags) {data : Option (List Byte)} {len : ℕ}
    (hmem : InMemory data len) : Adds s (dataBlockSender env s options data len).2 := by
  have hnone : InMemory none 0 := fun d hd => absurd hd (by simp)
  simp only [dataBlockSender]
  split_ifs
  · exact .refl s
  · exact .refl s
  · rcases data with _ | buffer
    · exact adds_frameSenderData env s _ hnone
    · rcases len with _ | len
      · exact adds_frameSenderData env s _ hnone
      · exact adds_dataBlockLoop env _ s _ hmem

/-- **`_send_stream`**. -/
lemma adds_sendStream (type info : Flags) {data : Option (List Byte)} {len : ℕ}
    (hmem : InMemory data len) : Adds s (sendStream env s type info data len).2 := by
  simp only [sendStream]
  split_ifs
  · exact .refl s
  · exact .refl s
  · exact .refl s
  · exact adds_frameSenderData env s _ hmem
  · exact adds_frameSenderData env s _ hmem

/-- The length of the reason of an accepted close. -/
lemma normalizeCloseInputs_len {code : ℤ} {reason : Option (List Byte)} {len : ℕ} {c : CloseInputs}
    (h : normalizeCloseInputs code reason len = .ok c) : normalizeReason reason len = .ok c.len := by
  simp only [normalizeCloseInputs] at h
  cases hr : normalizeReason reason len with
  | error e =>
      rw [hr] at h
      cases h
  | ok n =>
      rw [hr] at h
      generalize (if code < 0 then (if code = -1 then 0 else 0 - code) else code) = code' at h
      simp only at h
      split_ifs at h <;> cases h <;> rfl

/-- The reason of an accepted close is there. -/
lemma normalizeReason_readable {reason : Option (List Byte)} {len n : ℕ}
    (hnull : ¬ (reason = none ∧ 0 < len)) (h : normalizeReason reason len = .ok n) :
    n ≤ (reason.getD []).length := by
  cases reason with
  | none =>
      obtain rfl := Except.ok.inj h
      exact not_lt.mp fun hlen => hnull ⟨rfl, hlen⟩
  | some r =>
      simp only [normalizeReason] at h
      generalize (if len = sizeMax then strlen r else len) = m at h
      split_ifs at h with hpos hvalid hlong
      all_goals obtain rfl := Except.ok.inj h
      · have hle := utf8Validate_le (not_not.mp hvalid)
        rw [List.length_take] at hle
        exact hle.trans (min_le_right _ _)
      · exact (not_lt.mp hpos).trans (Nat.zero_le _)

/-- What `cws_close` hands to `frame_sender_control` is there. -/
lemma closePayload_readable {code : ℤ} {reason : Option (List Byte)} {len : ℕ}
    (h : len ≤ (reason.getD []).length) :
    ∀ d ∈ closePayload code reason len, (if code ≠ 0 then len + 2 else len) ≤ d.length := by
  intro d hd
  rw [closePayload] at hd
  split_ifs at hd ⊢
  · obtain rfl := Option.some.inj hd
    rw [List.length_cons, List.length_cons, List.length_take, min_eq_left h]
  · cases hd

lemma adds_verboseClose (c : CloseState) :
    Adds s ({ s with closeState := c } : Cws).verboseClose := by
  have hset : Adds s { s with closeState := c } := adds_nothing rfl rfl rfl rfl
  exact hset.trans (adds_log rfl rfl _)

/-- **`cws_close`**. -/
lemma adds_cwsClose (code : ℤ) (reason : Option (List Byte)) (len : ℕ) :
    Adds s (cwsClose env s code reason len).2 := by
  have hlog : Adds s (s.log (.closeCall code reason len s.closeState.queued)) := adds_log rfl rfl s
  simp only [cwsClose]
  by_cases hnull : reason = none ∧ 0 < len
  · rw [if_pos hnull]
    exact hlog
  · rw [if_neg hnull]
    cases hnorm : normalizeCloseInputs code reason len with
    | error e => exact hlog
    | ok c =>
        obtain ⟨hoptions, -, -⟩ := normalizeCloseInputs_ok hnull hnorm
        have hread : ∀ d ∈ closePayload c.code reason c.len,
            (if c.code ≠ 0 then c.len + 2 else c.len) ≤ d.length :=
          closePayload_readable (normalizeReason_readable hnull (normalizeCloseInputs_len hnorm))
        have hframe : Adds s
            (frameSenderControl env (s.log (.closeCall code reason len s.closeState.queued))
              c.options (closePayload c.code reason c.len)
              (if c.code ≠ 0 then c.len + 2 else c.len)).2 := by
          rw [hoptions]
          by_cases hcode : code < 0
          · rw [if_pos hcode, frameSenderControl_urgent]
            exact hlog
          · rw [if_neg hcode]
            exact hlog.trans (adds_frameSenderControl env _ .close hread)
        simp only
        by_cases hq : (frameSenderControl env
            (s.log (.closeCall code reason len s.closeState.queued)) c.options
            (closePayload c.code reason c.len)
            (if c.code ≠ 0 then c.len + 2 else c.len)).2.closeState.queued = true
        · rw [if_pos hq]
          exact hframe
        · rw [if_neg hq]
          exact hframe.trans (adds_verboseClose _ _)

/-- **A call of a public function** adds frames behind all that waits. -/
theorem adds_apiCall {c : ApiCall} (hc : c.Backed) : Adds s (apiCall env s c).2 := by
  cases c with
  | ping data len => exact adds_frameSenderControl env s .ping hc.le
  | pong data len => exact adds_frameSenderControl env s .pong hc.le
  | close code reason len => exact adds_cwsClose env s code reason len
  | sendBlkBinary data len =>
      simp only [apiCall, cwsSendBlkBinary]
      split_ifs
      · exact .refl s
      · exact adds_dataBlockSender env s _ hc
  | sendBlkText text len =>
      cases text with
      | none =>
          simp only [apiCall, cwsSendBlkText]
          split_ifs
          · exact .refl s
          · exact adds_dataBlockSender env s _ hc
      | some t =>
          have hmem : InMemory (some t) (if len = sizeMax then strlen t else len) := hc
          simp only [apiCall, cwsSendBlkText]
          by_cases hlen : 0 < len
          · rw [if_pos hlen]
            generalize (if len = sizeMax then strlen t else len) = n at hmem
            split_ifs
            · exact .refl s
            · exact adds_dataBlockSender env s _ hmem
          · rw [if_neg hlen]
            exact adds_dataBlockSender env s _ (hmem.take (by omega))
  | sendStrmBinary info data len => exact adds_sendStream env s _ _ hc
  | sendStrmText info text len =>
      cases text with
      | none => exact adds_sendStream env s _ _ hc
      | some t =>
          rw [apiCall, cwsSendStrmText_some]
          split_ifs with hlen
          · cases hvalid : utf8Validate (t.take (textLen (some t) len)) with
            | none => exact .refl s
            | some n =>
                have hle := utf8Validate_le hvalid
                rw [List.length_take] at hle
                exact adds_sendStream env s _ _ ((hc : InMemory _ _).take (hle.trans (min_le_left _ _)))
          · exact adds_sendStream env s _ _ ((hc : InMemory _ _).take (by omega))
  | destroy =>
      simp only [apiCall, cwsDestroy]
      split_ifs
      · exact .refl s
      · exact adds_nothing rfl rfl rfl rfl

/-- **`_error_close`**. -/
lemma adds_errorClose (code : ℤ) (reason : Option (List Byte)) (len : ℕ) :
    Adds s (errorClose env s code reason len) := by
  simp only [errorClose]
  split_ifs
  · exact .refl s
  · generalize hs₀ : ({ s with closeState := { s.closeState with received := true } } : Cws) = s₀
    have hset : Adds s s₀ := by
      rw [← hs₀]
      exact adds_nothing rfl rfl rfl rfl
    have hlogged : Adds s (s₀.log (.closing code)).verboseClose :=
      hset.trans ((adds_log rfl rfl s₀).trans (adds_log rfl rfl _))
    exact (hlogged.trans (adds_cwsClose env _ code reason len)).trans (adds_nothing rfl rfl rfl rfl)

end

/-- The data of the calls the user functions make is there. -/
def Env.Backed (env : Env) : Prop := ∀ t c, ∀ call ∈ (env.user t c).calls, call.Backed

/-- **The receive path and the callbacks** add frames in the same way. -/
lemma along_adds {env : Env} (huser : env.Backed) : AlongCalls env ApiCall.Backed Adds where
  same := fun {s s'} hout htrace => by
    have hcfg : s'.cfg = s.cfg := congrArg Out.cfg hout
    have hsend : s'.send = s.send := congrArg Out.send hout
    exact adds_nothing hcfg hsend (by rw [htrace]) (by rw [htrace])
  note := fun {e} he _ s => by
    cases e with
    | queued | allocFailed | closeCall | closeState | sent => cases he
    | _ => exact adds_log rfl rfl s
  trans := Adds.trans
  api := fun s _ hc => adds_apiCall env s hc
  user := huser
  close := fun _ => trivial
  fail := fun s code reason len => adds_errorClose env s code reason len

/-- The answer to a ping, with what the user function does in its place. -/
lemma adds_ping {env : Env} (huser : env.Backed) (s : Cws) (i : ℕ) :
    Adds s (cbOnPing env (s.controlDone i wsOpcodePing).enterDispatch
      s.recv.control).leaveDispatch := by
  have hdone : Adds s (s.controlDone i wsOpcodePing) :=
    (adds_log rfl rfl s).trans (adds_log rfl rfl _)
  refine hdone.trans ((along_adds huser).guarded (g := (cbOnPing env · s.recv.control)) ?_ _)
  intro s'
  rw [cbOnPing]
  split_ifs
  · exact (along_adds huser).userCallback ..
  · refine (adds_log rfl rfl s').trans (adds_frameSenderControl env _ .pong fun d hd => ?_)
    exact (Option.some.inj hd) ▸ le_rfl

end CurlWs
