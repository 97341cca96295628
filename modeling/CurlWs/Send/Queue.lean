import CurlWs.Library.Outbox
import CurlWs.Send.Encode

/-!
# The outgoing queue refines a queue of messages

The buffers of `send_frame` are an `Outbox` whose messages are the frames, each with the number of
the call that queued it, and `_fill_outgoing_buffer` moves as many bytes as there is room for.

**The abstraction.**  An outbox knows its messages and how far the first has got; what is sent are
the bytes of the messages in their coding.  `buffers` is the queue of the source for such a list,
and `Holds` says that a connection has it.  Urgent frames go in front of all but the one that has
begun, in the source as in the outbox (`enqueue_buffers`).

**The operations.**  `send_frame` is a push, and `_fill_outgoing_buffer` a drain.  The loop of the
latter takes part of the head, all of it, or all of a close frame, which empties the queue
(`holds_more`, `holds_next`, `holds_last`); each is a drain by as many bytes.

**Interleavings.**  Any sequence of the two operations is a sequence of pushes and drains, the
frames numbered by their calls, so that equal frames are told apart.  What the library says about
the output of an outbox is then a statement about the source.

## Main results

* **`holds_sendFrame`**, **`holds_fillOutgoingBuffer`** — the two operations.
* **`queue_output`** — what comes out of the queue, in any interleaving of the two.
-/

namespace CurlWs

open Outbox
open scoped List

/-! ## The abstraction

Frames as messages, and buffers as what is left of them. -/

/-- A frame and the number of the call that queues it. -/
abbrev Queued := ℕ × CwsFrame

/-- How frames are sent. -/
def coding : Coding Queued Byte where
  bytes x := encoding x.2
  bytes_ne x := List.ne_nil_of_length_pos (by rw [length_encoding]; exact encodedLen_pos x.2)
  urgent x := x.2.isUrgent
  ends x := x.2.opcode = wsOpcodeClose

/-- The length of a message is that of its frame. -/
lemma size_coding (x : Queued) : (coding.bytes x).length = encodedLen x.2 := length_encoding x.2

/-- The buffers of a queue. -/
def buffers (cfg : Cfg) (begun : ℕ) : List Queued → List BufQueue
  | [] => []
  | x :: w => { encodedBuf cfg x.2 with sent := begun } :: w.map fun y => encodedBuf cfg y.2

lemma buffers_zero (cfg : Cfg) (w : List Queued) :
    buffers cfg 0 w = w.map fun y => encodedBuf cfg y.2 := by
  cases w <;> rfl

/-- The frame fits its buffer. -/
def FitsBuffer (cfg : Cfg) (f : CwsFrame) : Prop := encodedLen f ≤ bufferSize cfg f

lemma bufferSize_lt_modulus (cfg : Cfg) (f : CwsFrame) : bufferSize cfg f < sizeModulus := by
  rw [bufferSize]
  split_ifs
  · decide
  · exact Nat.mod_lt _ (by decide)

lemma written_of_fits {cfg : Cfg} {f : CwsFrame} (hf : FitsBuffer cfg f) :
    (encodedBuf cfg f).written = encodedLen f := by
  simp only [encodedBuf, frameEncode_of_le (bufferSize_lt_modulus cfg f) hf]

lemma buffer_of_fits {cfg : Cfg} {f : CwsFrame} (hf : FitsBuffer cfg f) :
    (encodedBuf cfg f).buffer = encoding f := by
  simp only [encodedBuf, frameEncode_of_le (bufferSize_lt_modulus cfg f) hf]

/-- **The abstraction relation**: the connection holds the messages of the outbox. -/
structure Holds (cfg : Cfg) (s : Cws) (o : Outbox coding) : Prop where
  cfg_eq : s.cfg = cfg
  queue : s.send = buffers cfg o.begun o.waiting
  fits : ∀ x ∈ o.waiting, FitsBuffer cfg x.2

/-- A new connection has nothing to send. -/
lemma holds_empty (cfg : Cfg) : Holds cfg (Cws.fresh cfg) (empty coding) :=
  ⟨rfl, rfl, List.forall_mem_nil _⟩

/-! ## The two operations

The source and the outbox, side by side. -/

/-- Where `send_frame` puts a buffer is where the message goes. -/
lemma enqueue_buffers (cfg : Cfg) (o : Outbox coding) (x : Queued) :
    enqueue (buffers cfg o.begun o.waiting) (encodedBuf cfg x.2) x.2.isUrgent =
      buffers cfg (o.push x).begun (o.push x).waiting := by
  show _ = buffers cfg o.begun (o.waiting.take (o.spot x) ++ x :: o.waiting.drop (o.spot x))
  by_cases hu : x.2.isUrgent = true
  · have hspot : o.spot x = o.started := if_pos hu
    rw [hspot, started, hu]
    cases hw : o.waiting with
    | nil =>
        rw [begun_of_nil hw]
        rfl
    | cons y w =>
        simp only [buffers, enqueue, if_true]
        rcases Nat.eq_zero_or_pos o.begun with hb | hb
        · rw [hb]
          rfl
        · rw [if_pos hb, if_neg hb.ne']
          rfl
  · have hspot : o.spot x = o.waiting.length := if_neg hu
    rw [hspot, List.take_length, List.drop_length, Bool.eq_false_of_not_eq_true hu]
    cases hw : o.waiting with
    | nil =>
        rw [begun_of_nil hw]
        rfl
    | cons y w =>
        simp [buffers, enqueue]

/-- **`send_frame`** adds a message. -/
theorem holds_sendFrame {cfg : Cfg} {env : Env} {s : Cws} {o : Outbox coding} (h : Holds cfg s o)
    (halloc : env.alloc s.clock = true) (n : ℕ) {f : CwsFrame} (hf : FitsBuffer cfg f) :
    Holds cfg (sendFrame env s f).2 (o.push (n, f)) := by
  obtain ⟨rfl, hqueue, hfits⟩ := h
  have hsend : (sendFrame env s f).2.send = enqueue s.send (encodedBuf s.cfg f) f.isUrgent := by
    rw [sendFrame, if_pos halloc]
    rfl
  have hcfg : (sendFrame env s f).2.cfg = s.cfg := by
    rw [sendFrame, if_pos halloc]
    rfl
  refine ⟨hcfg, ?_, fun x hx => ?_⟩
  · rw [hsend, hqueue]
    exact enqueue_buffers s.cfg o (n, f)
  · have hx' : x = (n, f) ∨ x ∈ o.waiting := by
      rw [← List.take_append_drop (o.spot (n, f)) o.waiting]
      simp only [push, List.mem_append, List.mem_cons] at hx ⊢
      tauto
    rcases hx' with rfl | hx'
    · exact hf
    · exact hfits x hx'

section
variable {cfg : Cfg} {s : Cws} {o : Outbox coding} {x : Queued} {w : List Queued} {k : ℕ}

/-- Part of the head leaves. -/
lemma holds_more (h : Holds cfg s o) (hw : o.waiting = x :: w)
    (hk : o.begun + k < (coding.bytes x).length) :
    Holds cfg
      { s with
        send := { encodedBuf cfg x.2 with sent := o.begun + k } ::
          w.map fun y => encodedBuf cfg y.2 } (drain k o) := by
  have hfits := h.fits
  rw [hw] at hfits
  rw [drain_more k hw hk]
  exact ⟨h.cfg_eq, rfl, hfits⟩

/-- The rest of the head leaves, and the next message is the head. -/
lemma holds_next (h : Holds cfg s o) (hw : o.waiting = x :: w) (hpos : 0 < k)
    (hk : o.begun + k = (coding.bytes x).length) (hends : ¬ coding.ends x = true) :
    Holds cfg { s with send := w.map fun y => encodedBuf cfg y.2 } (drain k o) := by
  rw [drain_rest hw hpos hk, if_neg hends]
  refine ⟨h.cfg_eq, (buffers_zero cfg w).symm, fun y hy => h.fits y ?_⟩
  rw [hw]
  exact List.mem_cons_of_mem x hy

/-- The rest of a close frame leaves, and nothing stays. -/
lemma holds_last (h : Holds cfg s o) (hw : o.waiting = x :: w) (hpos : 0 < k)
    (hk : o.begun + k = (coding.bytes x).length) (hends : coding.ends x = true) :
    (drain k o).waiting = [] ∧ Holds cfg (closeSent s) (drain k o) := by
  rw [drain_rest hw hpos hk, if_pos hends]
  exact ⟨rfl, h.cfg_eq, rfl, List.forall_mem_nil _⟩

/-- The bytes of the next head. -/
lemma length_first (hfits : ∀ y ∈ w, FitsBuffer cfg y.2) :
    ((w.map fun y => encodedBuf cfg y.2).head?.map (·.written)).getD 0
      = (coding.first w).length := by
  cases w with
  | nil => rfl
  | cons y w => exact (written_of_fits (hfits y List.mem_cons_self)).trans (size_coding y).symm

end

/-- The loop of `_fill_outgoing_buffer`, entered with what is left of the head. -/
lemma holds_fillLoop {cfg : Cfg} (fuel : ℕ) : ∀ {s : Cws} {o : Outbox coding} {len left : ℕ},
    Holds cfg s o → len ≤ fuel → left = (coding.first o.waiting).length - o.begun →
    Holds cfg (fillLoop fuel s len left).2 (drain len o) ∧
      (drain len o).output = o.output ++ (fillLoop fuel s len left).1 := by
  induction fuel with
  | zero =>
      intro s o len left h hlen _
      obtain rfl := Nat.le_zero.mp hlen
      exact ⟨h, (List.append_nil _).symm⟩
  | succ fuel ih =>
      intro s o len left h hlen hleft
      rcases Nat.eq_zero_or_pos len with rfl | hroom
      · rw [fillLoop_stop _ (.inl rfl)]
        exact ⟨h, (List.append_nil _).symm⟩
      have hqueue := h.queue
      cases hw : o.waiting with
      | nil =>
          rw [hw] at hqueue
          have hnone : fillLoop (fuel + 1) s len left = ([], s) := by
            rw [fillLoop, hqueue]
            rfl
          rw [hnone, drain_of_nil hw]
          exact ⟨h, (List.append_nil _).symm⟩
      | cons x w =>
          rw [hw] at hqueue hleft
          have hx := h.fits x (hw ▸ List.mem_cons_self)
          have hbegun := begun_lt_first hw
          have hleft' : left = (coding.bytes x).length - o.begun := hleft
          rw [fillLoop_cons hqueue fuel hroom (by omega) rfl]
          have hwritten : (encodedBuf cfg x.2).written = (coding.bytes x).length :=
            (written_of_fits hx).trans (size_coding x).symm
          generalize hk : min len left = k
          have hsplit : drain len o = drain (len - k) (drain k o) := by
            rw [← drain_add, Nat.add_sub_cancel' (by omega)]
          have hout := output_drain hw (k := k) (by omega)
          have hbuffer : (encodedBuf cfg x.2).buffer = coding.bytes x := buffer_of_fits hx
          rw [← hbuffer] at hout
          simp only
          by_cases hwhole : o.begun + k = (encodedBuf cfg x.2).written
          · rw [if_pos hwhole]
            have hall := hwhole.trans hwritten
            by_cases hends : coding.ends x = true
            · obtain ⟨hnil, hnext⟩ := holds_last h hw (by omega) hall hends
              have hclose : (encodedBuf cfg x.2).isCloseFrame = true := hends
              rw [if_pos hclose, hsplit, drain_of_nil hnil]
              exact ⟨hnext, hout⟩
            · have hnext := holds_next h hw (by omega) hall hends
              have hclose : ¬ (encodedBuf cfg x.2).isCloseFrame = true := hends
              have hrest := drain_rest hw (by omega) hall
              rw [if_neg hends] at hrest
              rw [if_neg hclose, hsplit]
              refine (ih hnext (by omega) ?_).imp id ?_
              · rw [length_first fun y hy => h.fits y (hw ▸ List.mem_cons_of_mem x hy), hrest]
                show left - k + (coding.first w).length = (coding.first w).length - 0
                omega
              · intro hmore
                rw [hmore, hout, List.append_assoc]
          · rw [if_neg hwhole, hsplit]
            have hnext := holds_more h hw (k := k) (by omega)
            refine (ih hnext (by omega) ?_).imp id ?_
            · rw [drain_more k hw (by omega)]
              show left - k = (coding.bytes x).length - (o.begun + k)
              omega
            · intro hmore
              rw [hmore, hout, List.append_assoc]

/-- **`_fill_outgoing_buffer`** moves as many bytes as there is room for. -/
theorem holds_fillOutgoingBuffer {cfg : Cfg} {s : Cws} {o : Outbox coding} (h : Holds cfg s o)
    (len : ℕ) :
    Holds cfg (fillOutgoingBuffer s len).2 (drain len o) ∧
      (drain len o).output = o.output ++ (fillOutgoingBuffer s len).1 := by
  have hqueue := h.queue
  cases hw : o.waiting with
  | nil =>
      have hnone : fillOutgoingBuffer s len = ([], s) := by
        rw [fillOutgoingBuffer, hqueue, hw]
        rfl
      rw [hnone, drain_of_nil hw]
      exact ⟨h, (List.append_nil _).symm⟩
  | cons x w =>
      rw [hw] at hqueue
      have hx := h.fits x (hw ▸ List.mem_cons_self)
      have hfill : fillOutgoingBuffer s len =
          fillLoop len s len ((encodedBuf cfg x.2).written - o.begun) := by
        rw [fillOutgoingBuffer, hqueue]
        rfl
      rw [hfill]
      refine holds_fillLoop len h le_rfl ?_
      rw [written_of_fits hx, hw, ← size_coding]
      rfl

/-! ## Interleavings

Sequences of calls, and the numbers of the frames in them. -/

/-- A call of one of the two operations. -/
inductive QueueOp where
  | frame (f : CwsFrame)
  | fill (len : ℕ)

/-- A call, and the bytes it adds to the output. -/
def queueStep (env : Env) (r : Cws × List Byte) : QueueOp → Cws × List Byte
  | .frame f => ((sendFrame env r.1 f).2, r.2)
  | .fill len => ((fillOutgoingBuffer r.1 len).2, r.2 ++ (fillOutgoingBuffer r.1 len).1)

/-- Several calls. -/
def queueRun (env : Env) (r : Cws × List Byte) (ops : List QueueOp) : Cws × List Byte :=
  ops.foldl (queueStep env) r

/-- The frames queued by the calls, numbered from `n` on. -/
def numbered : ℕ → List QueueOp → List (Op Queued)
  | _, [] => []
  | n, .frame f :: ops => .push (n, f) :: numbered (n + 1) ops
  | n, .fill len :: ops => .drain len :: numbered n ops

/-- How many frames are queued. -/
def frameCount (ops : List QueueOp) : ℕ := (pushed (numbered 0 ops)).length

/-- The messages after the calls. -/
def outbox (ops : List QueueOp) : Outbox coding := (empty coding).run (numbered 0 ops)

lemma numbered_append (ops ops' : List QueueOp) : ∀ n : ℕ,
    numbered n (ops ++ ops') =
      numbered n ops ++ numbered (n + (pushed (numbered n ops)).length) ops' := by
  induction ops with
  | nil =>
      intro n
      rfl
  | cons op ops ih =>
      intro n
      cases op with
      | frame f =>
          have hlen : (pushed (numbered n (.frame f :: ops))).length =
              (pushed (numbered (n + 1) ops)).length + 1 := rfl
          rw [hlen, List.cons_append, numbered, ih, numbered, List.cons_append, Nat.add_right_comm,
            Nat.add_assoc]
      | fill len =>
          rw [List.cons_append, numbered, numbered, ih]
          rfl

/-- The numbers are those of the calls. -/
lemma numbers_pushed (ops : List QueueOp) : ∀ n : ℕ,
    (pushed (numbered n ops)).map Prod.fst = List.range' n (pushed (numbered n ops)).length := by
  induction ops with
  | nil =>
      intro n
      rfl
  | cons op ops ih =>
      intro n
      cases op with
      | frame f => exact congrArg (n :: ·) (ih (n + 1))
      | fill len => exact ih n

/-- No number is given twice. -/
lemma nodup_pushed (n : ℕ) (ops : List QueueOp) : (pushed (numbered n ops)).Nodup := by
  refine List.Nodup.of_map Prod.fst ?_
  rw [numbers_pushed]
  exact List.nodup_range'

lemma le_of_mem_pushed {n : ℕ} {ops : List QueueOp} {x : Queued}
    (hx : x ∈ pushed (numbered n ops)) : n ≤ x.1 := by
  have hmem := List.mem_map_of_mem (f := Prod.fst) hx
  rw [numbers_pushed, List.mem_range'_1] at hmem
  exact hmem.1

/-- **The queue is the outbox**, in every interleaving. -/
theorem holds_queueRun {env : Env} (halloc : ∀ t, env.alloc t = true) (cfg : Cfg)
    (ops : List QueueOp) (hfit : ∀ f, .frame f ∈ ops → FitsBuffer cfg f) :
    let r := queueRun env (Cws.fresh cfg, []) ops
    Holds cfg r.1 (outbox ops) ∧ r.2 = (outbox ops).output := by
  induction ops using List.reverseRecOn with
  | nil => exact ⟨holds_empty cfg, rfl⟩
  | append_singleton ops op ih =>
      obtain ⟨hholds, hout⟩ := ih fun f hf => hfit f (List.mem_append_left _ hf)
      have hop := List.mem_append_right ops (List.mem_singleton_self op)
      have hbox : outbox (ops ++ [op]) = (outbox ops).run (numbered (frameCount ops) [op]) := by
        rw [outbox, numbered_append, Outbox.run_append, Nat.zero_add]
        rfl
      simp only [queueRun, List.foldl_append, List.foldl_cons, List.foldl_nil] at hholds hout ⊢
      generalize List.foldl (queueStep env) (Cws.fresh cfg, []) ops = r at hholds hout ⊢
      rw [hbox]
      cases op with
      | frame f =>
          refine ⟨holds_sendFrame hholds (halloc _) (frameCount ops) (hfit f hop), ?_⟩
          exact hout.trans (output_push (outbox ops) (frameCount ops, f)).symm
      | fill len =>
          obtain ⟨hnext, hmore⟩ := holds_fillOutgoingBuffer hholds len
          exact ⟨hnext, (congrArg (· ++ _) hout).trans hmore.symm⟩

/-- The frames queued by the calls, in the order of the calls. -/
def calls (ops : List QueueOp) : List Queued := pushed (numbered 0 ops)

lemma numbered_frame (before after : List QueueOp) (f : CwsFrame) :
    numbered 0 (before ++ .frame f :: after) =
      numbered 0 before ++
        .push (frameCount before, f) :: numbered (frameCount before + 1) after := by
  rw [numbered_append, Nat.zero_add]
  rfl

lemma numbered_fill (before after : List QueueOp) (len : ℕ) :
    numbered 0 (before ++ .fill len :: after) =
      numbered 0 before ++ .drain len :: numbered (frameCount before) after := by
  rw [numbered_append, Nat.zero_add]
  rfl

/-- Where a drain stands among the calls. -/
lemma exists_fill {ops : List QueueOp} {len : ℕ} : ∀ {n : ℕ} {l l' : List (Op Queued)},
    numbered n ops = l ++ .drain len :: l' →
      ∃ before after, ops = before ++ .fill len :: after ∧ l = numbered n before := by
  induction ops with
  | nil =>
      intro n l l' h
      exact absurd h (by simp [numbered])
  | cons op ops ih =>
      intro n l l' h
      cases op with
      | frame f =>
          rcases l with _ | ⟨op', l⟩
          · cases (List.cons.inj h).1
          · obtain ⟨rfl, htail⟩ := List.cons.inj h
            obtain ⟨before, after, rfl, rfl⟩ := ih htail
            exact ⟨.frame f :: before, after, rfl, rfl⟩
      | fill len' =>
          rcases l with _ | ⟨op', l⟩
          · obtain ⟨hhead, -⟩ := List.cons.inj h
            cases hhead
            exact ⟨[], ops, rfl, rfl⟩
          · obtain ⟨rfl, htail⟩ := List.cons.inj h
            obtain ⟨before, after, rfl, rfl⟩ := ih htail
            exact ⟨.fill len' :: before, after, rfl, rfl⟩

/-- **What comes out of the queue.**  In every interleaving of `send_frame` and
`_fill_outgoing_buffer` the output consists of whole frames and a proper part of the one at the head
of the queue; every frame is sent, waiting, or was dropped behind a close frame; frames that are not
urgent are sent in the order of their calls, an urgent one before all but the frame that had begun;
and what is sent after a close frame was queued after it had been sent. -/
theorem queue_output (env : Env) (halloc : ∀ t, env.alloc t = true) (cfg : Cfg)
    (ops : List QueueOp) (hfit : ∀ f, .frame f ∈ ops → FitsBuffer cfg f) :
    let r := queueRun env (Cws.fresh cfg, []) ops
    let o := outbox ops
    (r.1.send = buffers cfg o.begun o.waiting ∧
      r.2 = o.done.flatMap (fun x => encoding x.2) ++ (coding.first o.waiting).take o.begun ∧
      ∀ x ∈ o.waiting.head?, o.begun < (encoding x.2).length) ∧
    ((o.done ++ o.waiting ++ o.dropped).Perm (calls ops) ∧ (calls ops).Nodup ∧
      ∀ y ∈ o.dropped, ∃ before len after x, ops = before ++ .fill len :: after ∧
        x.2.opcode = wsOpcodeClose ∧ [x, y] <+ (outbox before).waiting ∧
        x ∈ (outbox (before ++ [.fill len])).done) ∧
    ((o.done.filter fun x => !x.2.isUrgent) <+ calls ops) ∧
    (∀ before f after, ops = before ++ .frame f :: after → f.isUrgent = true →
      let b := outbox before
      (∀ y ∈ b.waiting.drop b.started, Precedes (frameCount before, f) y o.done) ∧
        ∀ y ∈ b.waiting.take b.started, Precedes y (frameCount before, f) o.done) ∧
    ∀ before len after x, ops = before ++ .fill len :: after → x.2.opcode = wsOpcodeClose →
      x ∉ (outbox before).done → x ∈ (outbox (before ++ [.fill len])).done →
      ∃ l d, (outbox (before ++ [.fill len])).done = l ++ [x] ∧ o.done = l ++ x :: d ∧
        ∀ y ∈ d, frameCount before ≤ y.1 := by
  intro r o
  obtain ⟨hholds, hout⟩ := holds_queueRun halloc cfg ops hfit
  have hsnoc : ∀ before len, outbox (before ++ [.fill len]) =
      (empty coding).run (numbered 0 before ++ [.drain len]) := by
    intro before len
    rw [outbox, numbered_fill]
    rfl
  refine ⟨⟨hholds.queue, hout, fun x hx => ?_⟩, ⟨run_perm _, nodup_pushed 0 ops, fun y hy => ?_⟩,
    ?_, ?_, ?_⟩
  · obtain ⟨w, hw⟩ := List.head?_eq_some_iff.mp hx
    exact begun_lt_first hw
  · obtain ⟨l, len, l', x, hsplit, hx, hsub, hdone⟩ := dropped_run (numbered 0 ops) hy
    obtain ⟨before, after, rfl, rfl⟩ := exists_fill hsplit
    exact ⟨before, len, after, x, rfl, of_decide_eq_true hx, hsub, (hsnoc before len).symm ▸ hdone⟩
  · have hdone : o.done <+ o.line := List.sublist_append_left _ _
    exact (hdone.filter _).trans (run_ordinary (c := coding) (numbered 0 ops))
  · rintro before f after rfl hu
    have hn := nodup_pushed 0 (before ++ .frame f :: after)
    rw [numbered_frame] at hn
    have hurgent : coding.urgent (frameCount before, f) = true := hu
    have h := urgent_run hurgent hn
    rw [← numbered_frame] at h
    exact h
  · rintro before len after x rfl hclose hnot hin
    rw [hsnoc] at hin
    have h := ended_run (c := coding) (decide_eq_true hclose) hnot hin
      (numbered (frameCount before) after)
    rw [← numbered_fill, ← hsnoc] at h
    obtain ⟨l, d, hl, hd, hmem⟩ := h
    exact ⟨l, d, hl, hd, fun y hy => le_of_mem_pushed (hmem y hy)⟩

instance (cfg : Cfg) (f : CwsFrame) : Decidable (FitsBuffer cfg f) :=
  inferInstanceAs (Decidable (_ ≤ _))

/-- An urgent ping between two others: the first had begun, so it stays in front. -/
theorem queue_output_urgent :
    let ping : CwsFrame := { fin := true, mask := true, isControl := true, opcode := wsOpcodePing }
    let urgent : CwsFrame := { ping with isUrgent := true }
    [(2, urgent), (1, ping)] <+
      (outbox [.frame ping, .frame ping, .fill 3, .frame urgent, .fill 100]).done := by
  intro ping urgent
  let ops : List QueueOp := [.frame ping, .frame ping, .fill 3, .frame urgent, .fill 100]
  have hfit : ∀ f, .frame f ∈ ops → FitsBuffer {} f := by
    intro f hf
    simp only [ops, List.mem_cons, QueueOp.frame.injEq, reduceCtorEq, List.not_mem_nil, or_false,
      false_or] at hf
    rcases hf with rfl | rfl | rfl <;> decide
  obtain ⟨-, -, -, h, -⟩ := queue_output .quiet (fun _ => rfl) {} ops hfit
  exact (h [.frame ping, .frame ping, .fill 3] urgent [.fill 100] rfl rfl).1 (1, ping)
    (by decide +kernel) (by decide +kernel)

end CurlWs
