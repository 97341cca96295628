import CurlWs.Send.Blocks

/-!
# From the calls to the server

Messages and control frames are passed to the library, queued, drained in pieces of any size and
read by a server.  The way there goes through everything on the sending side: the frame senders, the
cutting into blocks, the encoder, the queue and the drains.

**What is sent.**  `ApiCall.sends` is the message or control frame that a call is for, and `passed`
are those of a run, in the order of the calls.  `Posted` relates one of them to the frames that
stand for it.

**Accepted runs.**  The actions are calls that return `CWSE_OK`, with their bytes in memory, and
drains of any size (`AcceptedRun`).  Each call queues the frames of what it sends
(`draining_apiCall`), and a run queues those of all of them, group by group (`draining_run`).

**What is read.**  A queue that has been drained has put out the frames queued, one after the other
(`output_drained`), and a server reads them back whole.  Put together again, the frames of a group
are what the call has sent, whatever comes behind (`Posted.reassemble`).

## Main results

* **`draining_apiCall`** — the frames an accepted call queues.
* **`sent_read_back`** — a server reads what was passed to the calls, in the order of the calls.
-/

namespace CurlWs

open Outbox WebSocket

/-! ## What a call sends

The items of the reference, and the frames that carry them. -/

/-- The message or control frame a call sends. -/
def ApiCall.sends : ApiCall → Option Item
  | .ping data len => some (.ping (givenBytes data len))
  | .pong data len => some (.pong (givenBytes data len))
  | .sendBlkBinary data len => some (.message .binary (givenBytes data len))
  | .sendBlkText text len => some (.message .text (givenBytes text (textLen text len)))
  | _ => none

/-- The memory a pointer refers to has the length that is given with it.  No object in memory is as
large as 2^63 bytes. -/
def InMemory (data : Option (List Byte)) (len : ℕ) : Prop :=
  ∀ d ∈ data, len ≤ d.length ∧ d.length < 2 ^ 63

/-- The arguments of a call are in memory. -/
def ApiCall.Readable : ApiCall → Prop
  | .ping data len => InMemory data len
  | .pong data len => InMemory data len
  | .sendBlkBinary data len => InMemory data len
  | .sendBlkText text len => InMemory text (textLen text len)
  | _ => True

lemma InMemory.le {data : Option (List Byte)} {len : ℕ} (h : InMemory data len) :
    ∀ d ∈ data, len ≤ d.length := fun d hd => (h d hd).1

lemma InMemory.lt {data : Option (List Byte)} {len : ℕ} (h : InMemory data len) :
    (givenBytes data len).length < 2 ^ 63 := by
  cases data with
  | none => simp [givenBytes]
  | some d =>
      obtain ⟨hle, hlt⟩ := h d rfl
      exact (length_givenBytes_le (some d) len).trans_lt (hle.trans_lt hlt)

/-- A control frame with the payload `p`. -/
structure Controls (opcode : ℕ) (p : List Byte) (f : CwsFrame) : Prop where
  opcode_eq : f.opcode = opcode
  fin_eq : f.fin = true
  mask : f.mask = true
  isControl : f.isControl = true
  isUrgent : f.isUrgent = false
  data : f.data = p
  len : f.payloadLen = p.length
  short : p.length ≤ wsCtlPayloadMax

/-- The frames that stand for what a call sends. -/
inductive Posted (M : ℕ) : Item → List CwsFrame → Prop where
  | message {k : Kind} {opcode : ℕ} {p : List Byte} {fs : List CwsFrame} (hk : Begins opcode k)
      (h : Block M opcode p fs) (hp : p.length < 2 ^ 63) : Posted M (.message k p) fs
  | ping {p : List Byte} {f : CwsFrame} (h : Controls wsOpcodePing p f) : Posted M (.ping p) [f]
  | pong {p : List Byte} {f : CwsFrame} (h : Controls wsOpcodePong p f) : Posted M (.pong p) [f]

/-- A frame that a server can read, and that is neither urgent nor a close frame. -/
structure Ordinary (f : CwsFrame) : Prop where
  sendable : Sendable f
  isUrgent : f.isUrgent = false
  opcode : f.opcode ≠ wsOpcodeClose

lemma readable_of_data {f : CwsFrame} {p : List Byte} (hdata : f.data = p)
    (hlen : f.payloadLen = p.length) : f.payloadLen ≤ f.payload.length := by
  rw [hlen, ← hdata, CwsFrame.data, List.length_take]
  exact Nat.min_le_right ..

/-- Such frames can be read, and none of them closes. -/
lemma Posted.ordinary {M : ℕ} {it : Item} {fs : List CwsFrame} (h : Posted M it fs) :
    ∀ f ∈ fs, Ordinary f := by
  intro g hg
  cases h with
  | @message k opcode p fs hk h hp =>
      obtain ⟨op, fin, q, hq, -, hlen, hop⟩ := block_mem h g hg
      have hopcode : g.opcode = opcode ∨ g.opcode = wsOpcodeContinuation := hq.opcode_eq ▸ hop
      have hknown : controlOpcode g.opcode = some false := by
        rcases hopcode with hop | hop
        · rw [hop]
          cases hk <;> rfl
        · rw [hop]
          rfl
      refine ⟨⟨hq.mask, hknown.trans (congrArg some hq.isControl.symm),
        readable_of_data hq.data hq.len, ?_, fun hc => ?_⟩, hq.isUrgent, fun hc => ?_⟩
      · rw [hq.len]
        exact hlen.trans_lt hp
      · exact absurd (hq.isControl.symm.trans hc) (by decide)
      · rw [hc] at hknown
        exact absurd hknown (by decide)
  | ping h | pong h =>
      rw [List.mem_singleton.mp hg]
      have hshort := h.len.trans_le h.short
      refine ⟨⟨h.mask, ?_, readable_of_data h.data h.len, ?_, fun _ => ⟨h.fin_eq, hshort⟩⟩,
        h.isUrgent, ?_⟩
      · rw [h.opcode_eq, h.isControl]
        rfl
      · exact hshort.trans_lt (by decide)
      · rw [h.opcode_eq]
        decide

/-! ## Runs

Calls that are accepted, and drains between them. -/

/-- The item an action is to send. -/
def Action.sends : Action → Option Item
  | .api c => c.sends
  | _ => none

/-- The items a run is to send, in the order of the calls. -/
def passed (acts : List Action) : List Item := acts.filterMap Action.sends

/-- An accepted call that sends something, or a drain. -/
def Accepted (env : Env) (s : Cws) : Action → Prop
  | .api c => c.sends ≠ none ∧ c.Readable ∧ (apiCall env s c).1 = .ok
  | .send len => 0 < len
  | _ => False

/-- A run of such actions. -/
def AcceptedRun (env : Env) : Cws → List Action → Prop
  | _, [] => True
  | s, a :: acts => Accepted env s a ∧ AcceptedRun env (step env s a) acts

/-- The frames that are queued. -/
def queuedBy (ops : List QueueOp) : List CwsFrame :=
  ops.filterMap fun
    | .frame f => some f
    | .fill _ => none

/-- The frames of both parts. -/
lemma queuedBy_append (ops ops' : List QueueOp) :
    queuedBy (ops ++ ops') = queuedBy ops ++ queuedBy ops' := List.filterMap_append

lemma queuedBy_frames (fs : List CwsFrame) : queuedBy (fs.map .frame) = fs := by
  rw [queuedBy, List.filterMap_map]
  exact List.filterMap_some

/-! ## One call

With enough memory, on a connection that is not closing and has no message open. -/

section

variable {cfg : Cfg} {env : Env} (halloc : ∀ t, env.alloc t = true)

include halloc

/-- A ping or a pong. -/
lemma draining_control {s : Cws} {ops : List QueueOp} (h : Draining cfg s ops) {options : Flags}
    {opcode : ℕ} (hop : ControlOptions options opcode) (hclose : opcode ≠ wsOpcodeClose)
    {data : Option (List Byte)} {len : ℕ} (hmem : InMemory data len)
    (hok : (frameSenderControl env s options data len).1 = .ok) :
    let r := frameSenderControl env s options data len
    ∃ f, Controls opcode (givenBytes data len) f ∧ Draining cfg r.2 (ops ++ [.frame f]) ∧
      r.2.lastSentDataFrameInfo = s.lastSentDataFrameInfo := by
  have hqueued : s.closeState.queued = false := by
    have hopen := h.stillOpen
    simp only [CloseState.any, Bool.or_eq_false_iff] at hopen
    exact hopen.1.1.2
  obtain ⟨hdata, hlen⟩ := payloadOf_given hmem.le
  simp only
  rw [frameSenderControl_eq env s hop, hqueued, if_neg (by decide)] at hok ⊢
  by_cases hlong : wsCtlPayloadMax < (payloadOf data len).2
  · rw [if_pos hlong] at hok
    cases hok
  rw [if_neg hlong]
  generalize hf : senderControlFrame opcode data len (env.random s.clock) = f
  have hshort := not_lt.mp hlong
  have hcontrols : Controls opcode (givenBytes data len) f := by
    rw [← hf]
    exact ⟨rfl, rfl, rfl, rfl, rfl, hdata, hlen, hlen ▸ hshort⟩
  have hfits : FitsBuffer cfg f := by
    rw [FitsBuffer, bufferSize, if_pos hcontrols.isControl, encodedLen, headerLen]
    have hbytes := hcontrols.len.trans_le hcontrols.short
    simp only [wsCtlFrameMax, wsFrameHeaderMin, wsFrameHeaderMask, wsCtlPayloadMax] at hbytes ⊢
    rw [if_pos hbytes]
    omega
  have hstate : Draining cfg s.tick ops := h.of_eq rfl rfl rfl rfl rfl
  obtain ⟨-, hnow, hinfo⟩ := hstate.frame halloc hfits (hcontrols.opcode_eq ▸ hclose)
  exact ⟨f, hcontrols, hnow, hinfo⟩

/-- **`data_block_sender`**, called for a message. -/
lemma draining_dataBlockSender (hcfg : cfg.Sizable) {s : Cws} {ops : List QueueOp}
    (h : Draining cfg s ops) (hopen : isOpen s.lastSentDataFrameInfo = false) {options : Flags}
    {opcode : ℕ} (hoptions : options = cwsBinary ∧ opcode = wsOpcodeBinary ∨
      options = cwsText ∧ opcode = wsOpcodeText)
    {data : Option (List Byte)} {len : ℕ} (hlen : ∀ d ∈ data, len ≤ d.length) :
    let r := dataBlockSender env s options data len
    ∃ fs, Block cfg.maxPayloadSize opcode (givenBytes data len) fs ∧
      Draining cfg r.2 (ops ++ fs.map .frame) ∧ isOpen r.2.lastSentDataFrameInfo = false := by
  have hknown : ¬ (options ≠ cwsBinary ∧ options ≠ cwsText) := by
    rcases hoptions with ⟨rfl, -⟩ | ⟨rfl, -⟩ <;> decide
  have hblock : BlockOptions (options ||| cwsFirst) opcode := by
    rcases hoptions with ⟨rfl, rfl⟩ | ⟨rfl, rfl⟩
    · exact .binary
    · exact .text
  have hstart : isOpen s.lastSentDataFrameInfo = decide (opcode = wsOpcodeContinuation) := by
    rw [hopen]
    rcases hoptions with ⟨-, rfl⟩ | ⟨-, rfl⟩ <;> rfl
  -- a message without bytes is one frame
  have hempty : givenBytes data len = [] → ∃ fs,
      Block cfg.maxPayloadSize opcode (givenBytes data len) fs ∧
      Draining cfg (frameSenderData env s (options ||| cwsFirst ||| cwsLast) none 0).2
        (ops ++ fs.map .frame) ∧
      isOpen
        (frameSenderData env s (options ||| cwsFirst ||| cwsLast) none 0).2.lastSentDataFrameInfo
          = false := by
    intro hnone
    obtain ⟨f, hf, -, hnow⟩ := draining_blockFrame halloc hcfg h hblock hstart true none
      (fun d hd => by cases hd) (Nat.zero_le _)
    rw [hnone]
    exact ⟨[f], .last (Nat.zero_le _) hf, hnow⟩
  simp only [dataBlockSender]
  rw [if_neg hknown, h.stillOpen, if_neg (by decide)]
  cases data with
  | none => exact hempty (List.take_nil)
  | some buffer =>
      cases len with
      | zero => exact hempty (List.take_zero)
      | succ n =>
          obtain ⟨fs, hfs, -, hnow⟩ := draining_dataBlockLoop halloc hcfg (n + 1) buffer (n + 1) h
            hblock hstart (hlen buffer rfl) le_rfl
          exact ⟨fs, hfs, hnow⟩

/-- **An accepted call** queues the frames of what it sends. -/
theorem draining_apiCall (hcfg : cfg.Sizable) {s : Cws} {ops : List QueueOp}
    (h : Draining cfg s ops) (hopen : isOpen s.lastSentDataFrameInfo = false) {c : ApiCall}
    {it : Item} (hsends : c.sends = some it) (hmem : c.Readable)
    (hok : (apiCall env s c).1 = .ok) :
    let s' := (apiCall env s c).2
    ∃ fs, Posted cfg.maxPayloadSize it fs ∧ Draining cfg s' (ops ++ fs.map .frame) ∧
      isOpen s'.lastSentDataFrameInfo = false := by
  cases c with
  | ping data len =>
      cases hsends
      obtain ⟨f, hf, hnow, hinfo⟩ := draining_control halloc h .ping (by decide) hmem hok
      exact ⟨[f], .ping hf, hnow, (congrArg isOpen hinfo).trans hopen⟩
  | pong data len =>
      cases hsends
      obtain ⟨f, hf, hnow, hinfo⟩ := draining_control halloc h .pong (by decide) hmem hok
      exact ⟨[f], .pong hf, hnow, (congrArg isOpen hinfo).trans hopen⟩
  | sendBlkBinary data len =>
      cases hsends
      simp only [apiCall, cwsSendBlkBinary] at hok ⊢
      split_ifs at hok ⊢
      obtain ⟨fs, hfs, hnow⟩ :=
        draining_dataBlockSender halloc hcfg h hopen (.inl ⟨rfl, rfl⟩) hmem.le
      exact ⟨fs, .message .binary hfs hmem.lt, hnow⟩
  | sendBlkText text len =>
      cases hsends
      have hsend : (apiCall env s (.sendBlkText text len)).2 =
          (dataBlockSender env s cwsText text (textLen text len)).2 := by
        cases text with
        | none =>
            simp only [apiCall, cwsSendBlkText] at hok ⊢
            split_ifs at hok ⊢
            rfl
        | some t =>
            simp only [apiCall, cwsSendBlkText, textLen] at hok ⊢
            generalize hn : (if len = sizeMax then strlen t else len) = n at hok ⊢
            split_ifs at hok ⊢ with hpos
            · rfl
            · have hzero : len = 0 := Nat.eq_zero_of_not_pos hpos
              rw [← hn, hzero]
              rfl
      obtain ⟨fs, hfs, hnow⟩ :=
        draining_dataBlockSender halloc hcfg h hopen (.inr ⟨rfl, rfl⟩) hmem.le
      rw [hsend]
      exact ⟨fs, .message .text hfs hmem.lt, hnow⟩
  | close | sendStrmBinary | sendStrmText | destroy => cases hsends

/-- **A run** queues the frames of what it sends. -/
theorem draining_run (hcfg : cfg.Sizable) (acts : List Action) : ∀ {s : Cws} {ops : List QueueOp},
    Draining cfg s ops → isOpen s.lastSentDataFrameInfo = false → AcceptedRun env s acts →
    ∃ ops' groups, Draining cfg (run env s acts) (ops ++ ops') ∧
      queuedBy ops' = groups.flatten ∧
      List.Forall₂ (Posted cfg.maxPayloadSize) (passed acts) groups := by
  induction acts with
  | nil =>
      intro s ops h _ _
      exact ⟨[], [], by rwa [List.append_nil], rfl, .nil⟩
  | cons a acts ih =>
      intro s ops h hopen hrun
      obtain ⟨haccepted, hrest⟩ := hrun
      cases a with
      | api c =>
          obtain ⟨hsends, hmem, hok⟩ := haccepted
          obtain ⟨it, hit⟩ := Option.ne_none_iff_exists'.mp hsends
          obtain ⟨fs, hfs, hnow, hopen'⟩ := draining_apiCall halloc hcfg h hopen hit hmem hok
          obtain ⟨ops', groups, hdone, hgroups, hall⟩ := ih hnow hopen' hrest
          refine ⟨fs.map .frame ++ ops', fs :: groups, by rwa [← List.append_assoc], ?_, ?_⟩
          · rw [queuedBy_append, queuedBy_frames, hgroups, List.flatten_cons]
          · rw [passed, List.filterMap_cons_some (show Action.sends (.api c) = some it from hit)]
            exact .cons hfs hall
      | send len =>
          obtain ⟨hdrain, hinfo⟩ := h.drain len
          obtain ⟨ops', groups, hdone, hgroups, hall⟩ :=
            ih hdrain ((congrArg isOpen hinfo).trans hopen) hrest
          exact ⟨.fill len :: ops', groups, by rwa [List.append_cons], hgroups, hall⟩
      | receive => cases haccepted
      | header => cases haccepted

end

/-! ## What the server reads

From the output of the queue back to the items. -/

lemma map_pushed (ops : List QueueOp) : ∀ n : ℕ,
    (pushed (numbered n ops)).map Prod.snd = queuedBy ops := by
  induction ops with
  | nil =>
      intro n
      rfl
  | cons op ops ih =>
      intro n
      cases op with
      | frame f => exact congrArg (f :: ·) (ih (n + 1))
      | fill len => exact ih n

/-- A drained queue has put out the queued frames, in their order. -/
lemma output_drained {ops : List QueueOp} (hord : ∀ f ∈ queuedBy ops, Ordinary f)
    (hidle : (outbox ops).waiting = []) :
    (outbox ops).output = (queuedBy ops).flatMap encoding := by
  have hall : ∀ x ∈ pushed (numbered 0 ops), Ordinary x.2 := by
    intro x hx
    refine hord x.2 ?_
    rw [← map_pushed ops 0]
    exact List.mem_map_of_mem hx
  have hdone : (outbox ops).done = pushed (numbered 0 ops) :=
    run_plain (fun x hx => (hall x hx).isUrgent) (fun x hx => decide_eq_false (hall x hx).opcode)
      hidle
  rw [output, hidle, hdone, ← map_pushed ops 0, List.flatMap_map]
  exact (congrArg (_ ++ ·) List.take_nil).trans (List.append_nil _)

/-- The first frame of a message has begun. -/
def isStart : Item → Bool
  | .start _ => true
  | _ => false

/-- What is made of a sequence of frames: messages, with their fragments joined, and control
frames. -/
def reassemble (fs : List Frame) : List Item := (items none fs).filter fun it => !isStart it

/-- How many frames an item takes. -/
def frameTotal (M : ℕ) : Item → ℕ
  | .message _ p => blockCount M p.length
  | _ => 1

/-- The frames that carry an item. -/
structure Carried (M : ℕ) (it : Item) (group : List Frame) : Prop where
  alone : reassemble group = [it]
  total : group.length = frameTotal M it
  short : ∀ f ∈ group, f.opcode ≤ wsOpcodeBinary → f.payload.length ≤ M

/-- The meaning of the frames of one call, whatever follows. -/
lemma Posted.reassemble {M : ℕ} {it : Item} {fs : List CwsFrame} (h : Posted M it fs)
    (gs : List Frame) :
    reassemble (fs.map CwsFrame.toFrame ++ gs) = it :: CurlWs.reassemble gs := by
  cases h with
  | message hk h hp =>
      rw [CurlWs.reassemble, block_items h hk]
      rfl
  | ping h | pong h =>
      have hshort := h.short
      simp only [wsCtlPayloadMax] at hshort
      simp [CurlWs.reassemble, items, Header.admissible, Header.isControl, Header.controlItems,
        Frame.header, CwsFrame.toFrame, h.opcode_eq, h.fin_eq, h.data, hshort, isStart,
        wsOpcodePing, wsOpcodePong]

/-- The frames of one call are as many and as long as they should be. -/
lemma Posted.carried {M : ℕ} (hM : 0 < M) {it : Item} {fs : List CwsFrame} (h : Posted M it fs) :
    Carried M it (fs.map CwsFrame.toFrame) := by
  refine ⟨?_, ?_, ?_⟩
  · have hitems := h.reassemble []
    rw [List.append_nil] at hitems
    exact hitems
  · rw [List.length_map]
    cases h with
    | message hk h hp => exact block_length hM h
    | ping | pong => rfl
  · intro f hf hop
    obtain ⟨g, hg, rfl⟩ := List.mem_map.mp hf
    cases h with
    | message hk h hp =>
        obtain ⟨op, fin, q, hq, hmax, -⟩ := block_mem h g hg
        show g.data.length ≤ M
        rw [hq.data]
        exact hmax
    | ping h | pong h =>
        rw [List.mem_singleton.mp hg] at hop
        exact absurd (h.opcode_eq.symm.trans_le hop) (by decide)

lemma ordinary_of_posted {M : ℕ} {its : List Item} {groups : List (List CwsFrame)}
    (h : List.Forall₂ (Posted M) its groups) : ∀ f ∈ groups.flatten, Ordinary f := by
  induction h with
  | nil => exact List.forall_mem_nil _
  | cons hposted _ ih =>
      intro f hf
      rw [List.flatten_cons] at hf
      exact (List.mem_append.mp hf).elim (hposted.ordinary f) (ih f)

/-- The meaning of the frames of several calls. -/
lemma reassemble_posted {M : ℕ} {its : List Item} {groups : List (List CwsFrame)}
    (h : List.Forall₂ (Posted M) its groups) :
    reassemble (groups.map (List.map CwsFrame.toFrame)).flatten = its := by
  induction h with
  | nil => rfl
  | cons hposted _ ih => rw [List.map_cons, List.flatten_cons, hposted.reassemble, ih]

/-- **What is passed is what is read.**  In every run of accepted calls and drains that leaves the
queue empty, the output is a sequence of valid frames; put together again they are the messages and
the control payloads that were passed, in the order of the calls, and every message is in frames of
at most `max_payload_size` bytes, as many as it takes. -/
theorem sent_read_back (env : Env) (cfg : Cfg) (acts : List Action) (hcfg : cfg.Sizable)
    (halloc : ∀ t, env.alloc t = true) (haccepted : AcceptedRun env (Cws.fresh cfg) acts)
    (hdrained : (run env (Cws.fresh cfg) acts).send = []) :
    ∃ groups : List (List Frame),
      parseOutput (sentBytes (run env (Cws.fresh cfg) acts).trace) = some groups.flatten ∧
      reassemble groups.flatten = passed acts ∧
      List.Forall₂ (Carried cfg.maxPayloadSize) (passed acts) groups := by
  obtain ⟨ops, groups, hdone, hgroups, hall⟩ :=
    draining_run halloc hcfg acts (draining_fresh cfg) rfl haccepted
  rw [List.nil_append] at hdone
  have hord : ∀ f ∈ queuedBy ops, Ordinary f := by
    rw [hgroups]
    exact ordinary_of_posted hall
  refine ⟨groups.map (List.map CwsFrame.toFrame), ?_, reassemble_posted hall, ?_⟩
  · rw [hdone.output, output_drained hord (hdone.waiting_eq_nil hdrained),
      parseOutput_encoding fun f hf => (hord f hf).sendable, hgroups, List.map_flatten]
  · exact List.forall₂_map_right_iff.mpr (hall.imp fun it fs h => h.carried cfg.maxPayloadSize_pos)

/-- Two letters in frames of one byte each, a ping, and drains in between. -/
theorem sent_read_back_split :
    let acts : List Action := [.api (.sendBlkText (some [0x41, 0x42]) 2), .send 3,
      .api (.ping (some [0x43]) 1), .send 10, .send 100]
    let s := run Env.quiet (Cws.fresh { maxPayloadSize := 1 }) acts
    ∃ groups : List (List Frame), parseOutput (sentBytes s.trace) = some groups.flatten ∧
      reassemble groups.flatten = [.message .text [0x41, 0x42], .ping [0x43]] := by
  intro acts s
  have haccepted : AcceptedRun Env.quiet (Cws.fresh { maxPayloadSize := 1 }) acts := by
    refine ⟨⟨Option.some_ne_none _, ?_, by decide +kernel⟩, Nat.succ_pos _,
      ⟨Option.some_ne_none _, ?_, by decide +kernel⟩, Nat.succ_pos _, Nat.succ_pos _, trivial⟩
    all_goals
      rintro d ⟨⟩
      decide
  obtain ⟨groups, hparse, hitems, -⟩ :=
    sent_read_back Env.quiet { maxPayloadSize := 1 } acts (by decide) (fun _ => rfl) haccepted
      (by decide +kernel)
  exact ⟨groups, hparse, hitems⟩

end CurlWs
