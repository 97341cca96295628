import CurlWs.Send.Continuity
import CurlWs.Send.Parse
import CurlWs.Send.Queue

/-!
# Blocks

`data_block_sender` cuts a message into frames of at most `max_payload_size` bytes.

**Without the sender.**  `Block` says what the frames of a message are: one frame, or a frame full
of bytes that is not the last and then the block of the rest, with the opcode of a continuation.
What they mean to a receiver is the message (`block_items`), and there are as many as the length
divided by the maximum, rounded up, or one for an empty message (`block_length`).

**The queue.**  `Draining` is the state of a connection while messages are sent, without any
closing: the buffers in the queue are those that the calls so far have left in the abstract queue
`outbox`, and what curl was given is its output.  A frame that fits joins the queue, and a drain of
any size takes bytes off its front (`Draining.drain`).

**The loop.**  With enough memory and frames that fit, the sender queues the frames of a block, each
with the options the one before leaves (`draining_blockFrame`), by induction over the bytes left.

## Main results

* **`block_items`**, **`block_length`** — what the frames of a block mean, and how many there are.
* **`draining_dataBlockLoop`** — the sender queues the frames of a message.
-/

namespace CurlWs

open Outbox WebSocket

/-! ## The frames of a message

A list of frames that stands for one message. -/

/-- A data frame with the payload `p`. -/
structure Carries (opcode : ℕ) (fin : Bool) (p : List Byte) (f : CwsFrame) : Prop where
  opcode_eq : f.opcode = opcode
  fin_eq : f.fin = fin
  mask : f.mask = true
  isControl : f.isControl = false
  isUrgent : f.isUrgent = false
  data : f.data = p
  len : f.payloadLen = p.length

/-- The frames of a message `p`, none with more than `M` bytes. -/
inductive Block (M : ℕ) : ℕ → List Byte → List CwsFrame → Prop where
  | last {opcode : ℕ} {p : List Byte} {f : CwsFrame} (hp : p.length ≤ M)
      (hf : Carries opcode true p f) : Block M opcode p [f]
  | more {opcode : ℕ} {p : List Byte} {f : CwsFrame} {fs : List CwsFrame} (hp : M < p.length)
      (hf : Carries opcode false (p.take M) f)
      (hrest : Block M wsOpcodeContinuation (p.drop M) fs) : Block M opcode p (f :: fs)

/-- How many frames a message takes. -/
def blockCount (M n : ℕ) : ℕ := if n = 0 then 1 else (n + M - 1) / M

lemma blockCount_le {M n : ℕ} (hM : 0 < M) (h : n ≤ M) : blockCount M n = 1 := by
  rw [blockCount]
  split_ifs with hn
  · rfl
  · rw [Nat.div_eq_of_lt_le] <;> omega

/-- A frame full of bytes, and the rest. -/
lemma blockCount_add {M n : ℕ} (hM : 0 < M) (h : M < n) :
    blockCount M n = blockCount M (n - M) + 1 := by
  rw [blockCount, blockCount, if_neg (by omega), if_neg (by omega), ← Nat.add_div_right _ hM]
  congr 1
  omega

/-- **The number of frames.** -/
theorem block_length {M : ℕ} (hM : 0 < M) {opcode : ℕ} {p : List Byte} {fs : List CwsFrame}
    (h : Block M opcode p fs) : fs.length = blockCount M p.length := by
  induction h with
  | last hp => exact (blockCount_le hM hp).symm
  | more hp _ _ ih =>
      rw [List.length_cons, ih, List.length_drop, blockCount_add hM hp]

/-- What holds of every frame of a message. -/
lemma block_mem {M opcode : ℕ} {p : List Byte} {fs : List CwsFrame} (h : Block M opcode p fs) :
    ∀ f ∈ fs, ∃ op fin q, Carries op fin q f ∧ q.length ≤ M ∧ q.length ≤ p.length ∧
      (op = opcode ∨ op = wsOpcodeContinuation) := by
  induction h with
  | @last op p f hp hf =>
      intro g hg
      rw [List.mem_singleton.mp hg]
      exact ⟨op, true, p, hf, hp, le_rfl, .inl rfl⟩
  | @more op p f fs hp hf _ ih =>
      intro g hg
      have htake : (p.take M).length = M := List.length_take_of_le hp.le
      rcases List.mem_cons.mp hg with rfl | hg
      · exact ⟨op, false, p.take M, hf, htake.le, by omega, .inl rfl⟩
      · obtain ⟨op', fin, q, hq, hM, hlen, hop⟩ := ih g hg
        rw [List.length_drop] at hlen
        exact ⟨op', fin, q, hq, hM, by omega, .inr (hop.elim id id)⟩

/-- The type of message a first opcode begins. -/
inductive Begins : ℕ → Kind → Prop where
  | text : Begins wsOpcodeText .text
  | binary : Begins wsOpcodeBinary .binary

/-- The rest of a message. -/
lemma block_items_rest {M : ℕ} {p : List Byte} {fs : List CwsFrame} {opcode : ℕ}
    (h : Block M opcode p fs) : opcode = wsOpcodeContinuation → ∀ (k : Kind) (q : List Byte)
    (gs : List Frame), items (some (k, q)) (fs.map CwsFrame.toFrame ++ gs) =
      .message k (q ++ p) :: items none gs := by
  induction h with
  | last hp hf =>
      rintro rfl k q gs
      simp [items, Header.admissible, Header.isControl, Frame.header, CwsFrame.toFrame,
        hf.opcode_eq, hf.fin_eq, hf.data, Header.starts, Header.joins, dataItems,
        wsOpcodeContinuation]
  | @more _ p f fs hp hf _ ih =>
      rintro rfl k q gs
      have hrest := ih rfl k (q ++ p.take M) gs
      rw [List.append_assoc, List.take_append_drop] at hrest
      rw [← hrest]
      simp [items, Header.admissible, Header.isControl, Frame.header, CwsFrame.toFrame,
        hf.opcode_eq, hf.fin_eq, hf.data, Header.starts, Header.joins, dataItems,
        wsOpcodeContinuation]

/-- **The meaning of the frames of a message.** -/
theorem block_items {M opcode : ℕ} {p : List Byte} {fs : List CwsFrame} (h : Block M opcode p fs)
    {k : Kind} (hk : Begins opcode k) (gs : List Frame) :
    items none (fs.map CwsFrame.toFrame ++ gs) = .start k :: .message k p :: items none gs := by
  cases h with
  | last hp hf =>
      cases hk <;>
        simp [items, Header.admissible, Header.isControl, Frame.header, CwsFrame.toFrame,
          hf.opcode_eq, hf.fin_eq, hf.data, Header.starts, Header.joins, dataItems, wsOpcodeText,
          wsOpcodeBinary]
  | more hp hf hrest =>
      have hcont := block_items_rest hrest rfl k (p.take M) gs
      rw [List.take_append_drop] at hcont
      rw [← hcont]
      cases hk <;>
        simp [items, Header.admissible, Header.isControl, Frame.header, CwsFrame.toFrame,
          hf.opcode_eq, hf.fin_eq, hf.data, Header.starts, Header.joins, dataItems, wsOpcodeText,
          wsOpcodeBinary]

/-! ## The state while messages are sent

What is in the queue, and what has left it. -/

/-- The bytes handed to curl. -/
def sentBytes (t : List Event) : List Byte :=
  t.flatMap fun
    | .sent bytes => bytes
    | _ => []

/-- The bytes of both parts. -/
lemma sentBytes_append (t t' : List Event) : sentBytes (t ++ t') = sentBytes t ++ sentBytes t' :=
  List.flatMap_append

/-- The calls `ops` have been made of the queue, there is no close frame among its buffers, and
neither side has begun to close. -/
structure Draining (cfg : Cfg) (s : Cws) (ops : List QueueOp) : Prop where
  holds : Holds cfg s (outbox ops)
  output : sentBytes s.trace = (outbox ops).output
  plain : ∀ b ∈ s.send, b.isCloseFrame = false
  stillOpen : s.closeState.any = false
  direct : s.headerState.redirection = false

/-- Nothing has been queued or sent. -/
lemma draining_fresh (cfg : Cfg) : Draining cfg (Cws.fresh cfg) [] :=
  ⟨holds_empty cfg, rfl, List.forall_mem_nil _, rfl, rfl⟩

/-- Only part of the state matters. -/
lemma Draining.of_eq {cfg : Cfg} {s s' : Cws} {ops : List QueueOp} (h : Draining cfg s ops)
    (hcfg : s'.cfg = s.cfg) (hsend : s'.send = s.send)
    (htrace : sentBytes s'.trace = sentBytes s.trace) (hclose : s'.closeState = s.closeState)
    (hheader : s'.headerState = s.headerState) : Draining cfg s' ops :=
  ⟨⟨hcfg.trans h.holds.cfg_eq, hsend.trans h.holds.queue, h.holds.fits⟩, htrace.trans h.output,
    hsend.symm ▸ h.plain, hclose.symm ▸ h.stillOpen, hheader.symm ▸ h.direct⟩

/-- An empty queue holds no messages. -/
lemma Draining.waiting_eq_nil {cfg : Cfg} {s : Cws} {ops : List QueueOp} (h : Draining cfg s ops)
    (hs : s.send = []) : (outbox ops).waiting = [] := by
  have hqueue := h.holds.queue
  rw [hs] at hqueue
  cases hw : (outbox ops).waiting with
  | nil => rfl
  | cons x w =>
      rw [hw] at hqueue
      exact absurd hqueue.symm (List.cons_ne_nil _ _)

lemma outbox_concat (ops : List QueueOp) (op : QueueOp) :
    outbox (ops ++ [op]) = (outbox ops).run (numbered (frameCount ops) [op]) := by
  rw [outbox, numbered_append, Outbox.run_append, Nat.zero_add]
  rfl

/-- Without a close frame a drain changes nothing but the queue. -/
lemma fillLoop_plain (fuel : ℕ) : ∀ {s : Cws} {len left : ℕ},
    (∀ b ∈ s.send, b.isCloseFrame = false) →
      ∃ q, (fillLoop fuel s len left).2 = { s with send := q } ∧
      ∀ b ∈ q, b.isCloseFrame = false := by
  induction fuel with
  | zero =>
      intro s len left h
      exact ⟨s.send, rfl, h⟩
  | succ fuel ih =>
      intro s len left h
      by_cases hroom : len = 0 ∨ left = 0
      · rw [fillLoop_stop _ hroom]
        exact ⟨s.send, rfl, h⟩
      cases hs : s.send with
      | nil =>
          have hnone : fillLoop (fuel + 1) s len left = ([], s) := by
            rw [fillLoop, hs]
          rw [hnone]
          exact ⟨s.send, rfl, h⟩
      | cons head rest =>
          rw [hs] at h
          have hhead := h head List.mem_cons_self
          have hrest : ∀ b ∈ rest, b.isCloseFrame = false :=
            fun b hb => h b (List.mem_cons_of_mem _ hb)
          rw [fillLoop_cons hs fuel (by omega) (by omega) (k := min len left) rfl]
          simp only [hhead, Bool.false_eq_true, if_false]
          split_ifs
          · exact ih (s := { s with send := rest }) hrest
          · refine ih (s := { s with send := _ :: rest }) fun b hb => ?_
            rcases List.mem_cons.mp hb with rfl | hb
            · rfl
            · exact hrest b hb

/-- **A drain** of any size. -/
lemma Draining.drain {cfg : Cfg} {s : Cws} {ops : List QueueOp} (h : Draining cfg s ops) (len : ℕ) :
    Draining cfg (sendCb s len).2 (ops ++ [.fill len]) ∧
      (sendCb s len).2.lastSentDataFrameInfo = s.lastSentDataFrameInfo := by
  obtain ⟨hholds, hout⟩ := holds_fillOutgoingBuffer h.holds len
  have hclosed : s.closeState.readyToClose = false := by
    have hopen := h.stillOpen
    simp only [CloseState.any, Bool.or_eq_false_iff] at hopen
    rw [CloseState.readyToClose, hopen.1.2]
    rfl
  have hbox : outbox (ops ++ [.fill len]) = Outbox.drain len (outbox ops) := outbox_concat ops _
  rw [sendCb, if_neg (by rw [h.direct]; decide)]
  by_cases hs : s.send = []
  · have hidle := h.waiting_eq_nil hs
    rw [if_pos hs, hclosed, if_neg (by decide)]
    have hsame : Draining cfg { s with pauseSend := true } ops := h.of_eq rfl rfl rfl rfl rfl
    refine ⟨⟨?_, ?_, hsame.plain, hsame.stillOpen, hsame.direct⟩, rfl⟩
    · rw [hbox, drain_of_nil hidle]
      exact hsame.holds
    · rw [hbox, drain_of_nil hidle]
      exact hsame.output
  · rw [if_neg hs]
    obtain ⟨q, hq, hplain⟩ : ∃ q, (fillOutgoingBuffer s len).2 = { s with send := q } ∧
        ∀ b ∈ q, b.isCloseFrame = false := by
      rw [fillOutgoingBuffer]
      cases hcons : s.send with
      | nil => exact absurd hcons hs
      | cons head rest => exact fillLoop_plain len h.plain
    simp only [hq] at hholds ⊢
    refine ⟨⟨?_, ?_, hplain, h.stillOpen, h.direct⟩, rfl⟩
    · rw [hbox]
      exact ⟨hholds.cfg_eq, hholds.queue, hholds.fits⟩
    · show sentBytes (s.trace ++ [.sent (fillOutgoingBuffer s len).1]) = _
      rw [hbox, hout, sentBytes_append, h.output]
      exact congrArg (_ ++ ·) (List.append_nil _)

/-! ## The frames of `data_block_sender` -/

/-- The options `data_block_sender` gives a frame that is not the last. -/
inductive BlockOptions : Flags → ℕ → Prop where
  | text : BlockOptions (cwsText ||| cwsFirst) wsOpcodeText
  | binary : BlockOptions (cwsBinary ||| cwsFirst) wsOpcodeBinary
  | cont : BlockOptions cwsCont wsOpcodeContinuation

/-- The options of a frame, with or without the mark of the last one. -/
def withLast (options : Flags) (last : Bool) : Flags :=
  if last then options ||| cwsLast else options

/-- The bytes a pointer and a length stand for. -/
def givenBytes (data : Option (List Byte)) (len : ℕ) : List Byte := (data.getD []).take len

/-- The length a text goes by: `SIZE_MAX` asks for `strlen`. -/
def textLen (text : Option (List Byte)) (len : ℕ) : ℕ :=
  match text with
  | none => len
  | some t => if len = sizeMax then strlen t else len

/-- `cws_send_strm_text`, of a text. -/
lemma cwsSendStrmText_some (env : Env) (s : Cws) (info : Flags) (t : List Byte) (len : ℕ) :
    cwsSendStrmText env s info (some t) len =
      if 0 < len then
        (utf8Validate (t.take (textLen (some t) len))).elim (.invalidUtf8, s)
          (sendStream env s cwsText info (some t))
      else sendStream env s cwsText info (some t) len := by
  simp only [cwsSendStrmText, textLen]
  cases utf8Validate (t.take (if len = sizeMax then strlen t else len)) with
  | none => rfl
  | some n => rfl

lemma length_givenBytes_le (data : Option (List Byte)) (len : ℕ) :
    (givenBytes data len).length ≤ len := by
  rw [givenBytes, List.length_take]
  exact Nat.min_le_left ..

/-- The bytes a frame takes from a pointer and a length are those given. -/
lemma payloadOf_given {data : Option (List Byte)} {len : ℕ} (h : ∀ d ∈ data, len ≤ d.length) :
    (payloadOf data len).1.take (payloadOf data len).2 = givenBytes data len ∧
      (payloadOf data len).2 = (givenBytes data len).length := by
  cases data with
  | none => simp [payloadOf, givenBytes]
  | some d =>
      by_cases h0 : len = 0
      · rw [payloadOf, if_pos (.inr h0), h0]
        exact ⟨rfl, rfl⟩
      · rw [payloadOf, if_neg (not_or.mpr ⟨Option.some_ne_none d, h0⟩)]
        exact ⟨rfl, (List.length_take_of_le (h d rfl)).symm⟩

section

variable {cfg : Cfg} {env : Env} (halloc : ∀ t, env.alloc t = true)

include halloc

/-- A frame is queued. -/
lemma Draining.frame {s : Cws} {ops : List QueueOp} (h : Draining cfg s ops) {f : CwsFrame}
    (hf : FitsBuffer cfg f) (hop : f.opcode ≠ wsOpcodeClose) :
    (sendFrame env s f).1 = .ok ∧ Draining cfg (sendFrame env s f).2 (ops ++ [.frame f]) ∧
      (sendFrame env s f).2.lastSentDataFrameInfo = s.lastSentDataFrameInfo := by
  have hbox : outbox (ops ++ [.frame f]) = (outbox ops).push (frameCount ops, f) :=
    outbox_concat ops _
  have hholds := holds_sendFrame h.holds (halloc _) (frameCount ops) hf
  have hstate : (sendFrame env s f).2 =
      (({ s.tick with send := enqueue s.send (encodedBuf s.cfg f) f.isUrgent } : Cws).log
        (.queued f)).unpauseSend := by
    rw [sendFrame, if_pos (halloc _)]
    rfl
  rw [hstate] at hholds
  refine ⟨by rw [sendFrame, if_pos (halloc _)], ?_, by rw [hstate]; rfl⟩
  rw [hstate]
  refine ⟨hbox ▸ hholds, ?_, fun b hb => ?_, h.stillOpen, h.direct⟩
  · rw [hbox, output_push]
    show sentBytes (s.trace ++ [.queued f]) = _
    rw [sentBytes_append]
    exact (List.append_nil _).trans h.output
  · rcases mem_enqueue.mp hb with rfl | hb
    · exact decide_eq_false hop
    · exact h.plain b hb

/-- One frame of a message. -/
lemma draining_blockFrame (hcfg : cfg.Sizable) {s : Cws} {ops : List QueueOp}
    (h : Draining cfg s ops) {options : Flags} {opcode : ℕ} (hoptions : BlockOptions options opcode)
    (hopen : isOpen s.lastSentDataFrameInfo = decide (opcode = wsOpcodeContinuation)) (last : Bool)
    (data : Option (List Byte)) {len : ℕ} (hlen : ∀ d ∈ data, len ≤ d.length)
    (hmax : len ≤ cfg.maxPayloadSize) :
    let r := frameSenderData env s (withLast options last) data len
    ∃ f, Carries opcode last (givenBytes data len) f ∧ r.1 = .ok ∧
      Draining cfg r.2 (ops ++ [.frame f]) ∧ isOpen r.2.lastSentDataFrameInfo = !last := by
  have hallowed : ¬ withLast options last ≠
      withLast options last &&& (cwsNonctrlMask ||| cwsFirst ||| cwsLast) := by
    cases hoptions <;> cases last <;> decide
  have hfin : decide (cwsLast &&& withLast options last ≠ 0) = last := by
    cases hoptions <;> cases last <;> decide
  have hnext : isOpen (withLast options last) = !last := by
    cases hoptions <;> cases last <;> decide
  have hop : dataOpcode s.lastSentDataFrameInfo (withLast options last) = .ok opcode := by
    cases hoptions with
    | cont =>
        have hmust := isOpen_eq_true.mp (hopen.trans (decide_eq_true rfl))
        cases last <;> simp only [dataOpcode, withLast, if_neg hmust] <;> rfl
    | text | binary =>
        have hmust := isOpen_eq_false.mp (hopen.trans (decide_eq_false (by decide)))
        have hmust' : ¬ (s.lastSentDataFrameInfo ≠ 0 ∧ cwsLast &&& s.lastSentDataFrameInfo = 0) :=
          fun hbad => hmust.elim hbad.1 fun hlast => hlast hbad.2
        cases last <;> simp only [dataOpcode, withLast, if_neg hmust'] <;> rfl
  obtain ⟨hdata, hcount⟩ := payloadOf_given hlen
  simp only
  rw [frameSenderData_eq, if_neg hallowed, hop]
  simp only [h.stillOpen, Bool.false_eq_true, if_false]
  generalize hf : senderDataFrame (withLast options last) opcode data len
    (env.random s.clock) = f
  have hcarries : Carries opcode last (givenBytes data len) f := by
    rw [← hf]
    exact ⟨rfl, hfin, rfl, rfl, rfl, hdata, hcount⟩
  have hfits : FitsBuffer cfg f := by
    have hhead := headerLen_bounds f
    have hbytes := hcarries.len
    have hshort := length_givenBytes_le data len
    rw [FitsBuffer, bufferSize_eq hcfg, hcarries.isControl, if_neg (by decide), encodedLen]
    simp only [wsFrameHeaderMax, wsFrameHeaderMin, wsFrameHeaderMask, wsFrameHeaderMaxPayloadSize]
    omega
  have hclose : f.opcode ≠ wsOpcodeClose := by
    rw [hcarries.opcode_eq]
    cases hoptions <;> decide
  have hstate : Draining cfg
      (Cws.tick { s with lastSentDataFrameInfo := withLast options last }) ops :=
    h.of_eq rfl rfl rfl rfl rfl
  obtain ⟨hok, hnow, hinfo⟩ := hstate.frame halloc hfits hclose
  refine ⟨f, hcarries, hok, hnow, ?_⟩
  rw [hinfo]
  exact hnext

/-- **`data_block_sender`** queues the frames of a message. -/
theorem draining_dataBlockLoop (hcfg : cfg.Sizable) (fuel : ℕ) : ∀ {s : Cws} {ops : List QueueOp}
    {options : Flags} {opcode : ℕ} (buffer : List Byte) (len : ℕ), Draining cfg s ops →
    BlockOptions options opcode →
    isOpen s.lastSentDataFrameInfo = decide (opcode = wsOpcodeContinuation) →
    len ≤ buffer.length → len ≤ fuel →
    let r := dataBlockLoop env fuel s options buffer len
    ∃ fs, Block cfg.maxPayloadSize opcode (buffer.take len) fs ∧ r.1 = .ok ∧
      Draining cfg r.2 (ops ++ fs.map .frame) ∧ isOpen r.2.lastSentDataFrameInfo = false := by
  have hlast : ∀ {s : Cws} {ops : List QueueOp} {options : Flags} {opcode : ℕ}
      {buffer : List Byte} {len : ℕ}, Draining cfg s ops → BlockOptions options opcode →
      isOpen s.lastSentDataFrameInfo = decide (opcode = wsOpcodeContinuation) →
      len ≤ buffer.length → len ≤ cfg.maxPayloadSize →
      let r := frameSenderData env s (options ||| cwsLast) (some buffer) len
      ∃ fs, Block cfg.maxPayloadSize opcode (buffer.take len) fs ∧ r.1 = .ok ∧
        Draining cfg r.2 (ops ++ fs.map .frame) ∧ isOpen r.2.lastSentDataFrameInfo = false := by
    intro s ops options opcode buffer len h hoptions hopen hlen hmax
    obtain ⟨f, hf, hr⟩ := draining_blockFrame halloc hcfg h hoptions hopen true
      (some buffer) (by rintro _ ⟨⟩; exact hlen) hmax
    exact ⟨[f], .last (by rw [List.length_take_of_le hlen]; exact hmax) hf, hr⟩
  induction fuel with
  | zero =>
      intro s ops options opcode buffer len h hoptions hopen hlen hfuel
      exact hlast h hoptions hopen hlen (by omega)
  | succ fuel ih =>
      intro s ops options opcode buffer len h hoptions hopen hlen hfuel
      have hpos := cfg.maxPayloadSize_pos
      have hcfgeq := h.holds.cfg_eq
      simp only [dataBlockLoop, hcfgeq]
      by_cases hmore : cfg.maxPayloadSize < len
      · rw [if_pos hmore]
        obtain ⟨f, hf, hok, hnow, hnext⟩ :=
          draining_blockFrame halloc hcfg h hoptions hopen false (some buffer)
            (by rintro _ ⟨⟩; omega) le_rfl
        have hok' : (frameSenderData env s options (some buffer) cfg.maxPayloadSize).1 = .ok := hok
        rw [if_neg (not_not.mpr hok')]
        obtain ⟨fs, hfs, hrok, hdone, hclosed⟩ := ih (buffer.drop cfg.maxPayloadSize)
          (len - cfg.maxPayloadSize) hnow .cont hnext (by rw [List.length_drop]; omega) (by omega)
        refine ⟨f :: fs, .more ?_ ?_ ?_, hrok, ?_, hclosed⟩
        · rwa [List.length_take_of_le hlen]
        · rw [List.take_take, Nat.min_eq_left hmore.le]
          exact hf
        · rwa [List.drop_take]
        · rwa [List.map_cons, List.append_cons]
      · rw [if_neg hmore]
        exact hlast h hoptions hopen hlen (by omega)

end

end CurlWs
