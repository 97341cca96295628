import CurlWs.Send.Backed

/-!
# What goes over the wire

Everything the library sends, in any run, and what a server makes of it.

**The bytes.**  `Carrying` relates the frames queued so far, the buffers in the queue and the bytes
handed to curl: some frames have left whole, one may have begun, and the others wait.  Frames are
added behind, as nothing is ever urgent; a drain moves the line between what has left and what
waits.  A frame that does not fit its buffer stays where it is, and all frames behind it.

**The order.**  `Ordered` says that the frames are in an order RFC 6455 allows, a message open or
not, and that none comes after a close frame.  One exception is known: a data frame that finds no
memory has been recorded as sent, so that the next one may be a continuation without a beginning.
The order is therefore stated for the runs in which no data frame has been lost (`NoneLost`).

**Every run.**  `Wired` is kept by calls, callbacks and drains, for applications whose pointers have
as many bytes as they say (`Env.Backed`).

## Main results

* **`carrying_fillOutgoingBuffer`** — a drain hands out the bytes of the frames, in order.
* **`output_allowed`** — in every run the bytes handed to curl are the beginning of a stream of
  masked frames in an order RFC 6455 allows, a close frame the last of them.
-/

namespace CurlWs

open WebSocket

/-! ## The bytes that leave

Frames, their buffers, and how much of them has left. -/

/-- The buffers of frames that are waiting, of the first of which `begun` bytes have left. -/
def frameBuffers (cfg : Cfg) (begun : ℕ) : List CwsFrame → List BufQueue
  | [] => []
  | f :: fs => { encodedBuf cfg f with sent := begun } :: fs.map (encodedBuf cfg)

/-- The frames have left in order, with the first `begun` bytes of the one after `done`. -/
structure Underway (cfg : Cfg) (done waiting : List CwsFrame) (begun : ℕ) (send : List BufQueue)
    (out : List Byte) : Prop where
  send : send = frameBuffers cfg begun waiting
  out : out = done.flatMap encoding ++ (waiting.head?.elim [] encoding).take begun
  begun : 0 < begun → ∃ f ∈ waiting.head?, FitsBuffer cfg f ∧ begun < encodedLen f

/-- `send` holds what has not left of the frames, and `out` is what has left. -/
def Carrying (cfg : Cfg) (frames : List CwsFrame) (send : List BufQueue) (out : List Byte) : Prop :=
  ∃ done waiting begun, frames = done ++ waiting ∧ Underway cfg done waiting begun send out

variable {cfg : Cfg} {frames : List CwsFrame} {send : List BufQueue} {out : List Byte}

lemma frameBuffers_zero (cfg : Cfg) (fs : List CwsFrame) :
    frameBuffers cfg 0 fs = fs.map (encodedBuf cfg) := by
  cases fs <;> rfl

/-- Frames are added behind. -/
lemma Carrying.add (h : Carrying cfg frames send out) (fs : List CwsFrame) :
    Carrying cfg (frames ++ fs) (send ++ fs.map (encodedBuf cfg)) out := by
  obtain ⟨done, waiting, begun, hframes, hc⟩ := h
  refine ⟨done, waiting ++ fs, begun, by rw [hframes, List.append_assoc], ?_⟩
  cases waiting with
  | nil =>
      have hzero : begun = 0 := by
        by_contra hne
        obtain ⟨f, hf, -⟩ := hc.begun (Nat.pos_of_ne_zero hne)
        cases hf
      obtain ⟨hsend, hout, -⟩ := hc
      subst hzero
      refine ⟨?_, ?_, fun h => absurd h (lt_irrefl 0)⟩
      · rw [hsend, List.nil_append, frameBuffers_zero, frameBuffers_zero]
        rfl
      · rw [hout, List.take_zero, List.take_zero]
  | cons f w =>
      obtain ⟨hsend, hout, hbegun⟩ := hc
      refine ⟨?_, hout, hbegun⟩
      rw [hsend, frameBuffers, List.cons_append, List.cons_append, frameBuffers, List.map_append]

section

variable {f : CwsFrame} {done w : List CwsFrame} {begun k : ℕ}

/-- Part of the head leaves. -/
lemma Underway.more (h : Underway cfg done (f :: w) begun send out) (hf : FitsBuffer cfg f)
    (hk : begun + k < encodedLen f) :
    Underway cfg done (f :: w) (begun + k)
      ({ encodedBuf cfg f with sent := begun + k } :: w.map (encodedBuf cfg))
      (out ++ ((encoding f).drop begun).take k) := by
  refine ⟨rfl, ?_, fun _ => ⟨f, rfl, hf, hk⟩⟩
  rw [h.out, List.append_assoc]
  show done.flatMap encoding ++ ((encoding f).take begun ++ _) = _ ++ (encoding f).take (begun + k)
  rw [← List.take_add]

/-- The rest of the head leaves. -/
lemma Underway.next (h : Underway cfg done (f :: w) begun send out)
    (hk : begun + k = encodedLen f) :
    Underway cfg (done ++ [f]) w 0 (w.map (encodedBuf cfg))
      (out ++ ((encoding f).drop begun).take k) := by
  refine ⟨(frameBuffers_zero cfg w).symm, ?_, fun h => absurd h (lt_irrefl 0)⟩
  rw [h.out, List.append_assoc, List.flatMap_append, List.take_zero, List.append_nil]
  show done.flatMap encoding ++ ((encoding f).take begun ++ _) = _
  rw [← List.take_add, hk, ← length_encoding, List.take_length]
  simp

end

lemma written_of_not_fits {f : CwsFrame} (hf : ¬ FitsBuffer cfg f)
    (hlen : encodedLen f < sizeModulus) : (encodedBuf cfg f).written = 0 :=
  frameEncode_of_lt hlen (not_le.mp hf)

/-- Nothing is queued behind a close frame. -/
def CloseEnds (frames : List CwsFrame) : Prop :=
  ∀ l f r, frames = l ++ f :: r → f.opcode = wsOpcodeClose → r = []

/-- **The loop of `_fill_outgoing_buffer`**, entered with what is left of the head. -/
lemma carrying_fillLoop (hlen : ∀ f ∈ frames, encodedLen f < sizeModulus)
    (hends : CloseEnds frames) (fuel : ℕ) :
    ∀ {s : Cws} {len left : ℕ} {out : List Byte}, Carrying cfg frames s.send out →
    (∀ b ∈ s.send.head?, left = b.written - b.sent) → len ≤ fuel →
    Carrying cfg frames (fillLoop fuel s len left).2.send (out ++ (fillLoop fuel s len left).1) := by
  induction fuel with
  | zero =>
      intro s len left out h _ _
      rw [fillLoop, List.append_nil]
      exact h
  | succ fuel ih =>
      intro s len left out h hleft hfuel
      by_cases hstop : len = 0 ∨ left = 0
      · rw [fillLoop_stop _ hstop, List.append_nil]
        exact h
      obtain ⟨hroom, hdata⟩ := not_or.mp hstop
      obtain ⟨done, waiting, begun, hsplit, hu⟩ := h
      have hsend := hu.send
      cases waiting with
      | nil =>
          have hnone : fillLoop (fuel + 1) s len left = ([], s) := by
            rw [fillLoop, hsend]
            rfl
          rw [hnone, List.append_nil]
          exact ⟨done, [], begun, hsplit, hu⟩
      | cons f w =>
          have hleft' : left = (encodedBuf cfg f).written - begun := hleft _ (by rw [hsend]; rfl)
          have hf : FitsBuffer cfg f := by
            by_contra hno
            have hmem : f ∈ frames := hsplit ▸ List.mem_append_right _ List.mem_cons_self
            rw [written_of_not_fits hno (hlen f hmem)] at hleft'
            omega
          have hwritten : (encodedBuf cfg f).written = encodedLen f := written_of_fits hf
          have hbuffer : (encodedBuf cfg f).buffer = encoding f := buffer_of_fits hf
          rw [fillLoop_cons hsend fuel (by omega) (by omega) rfl]
          generalize hk : min len left = k
          simp only
          by_cases hwhole : begun + k = (encodedBuf cfg f).written
          · rw [if_pos hwhole]
            have hnext := hu.next (hwhole.trans hwritten)
            rw [← hbuffer] at hnext
            have hsplit' : frames = (done ++ [f]) ++ w := by
              rw [hsplit, List.append_assoc]
              rfl
            by_cases hclose : (encodedBuf cfg f).isCloseFrame = true
            · rw [if_pos hclose]
              obtain rfl := hends done f w hsplit (of_decide_eq_true hclose)
              exact ⟨_, _, _, hsplit', hnext⟩
            · rw [if_neg hclose, ← List.append_assoc]
              refine ih (s := { s with send := w.map (encodedBuf cfg) }) ⟨_, _, _, hsplit', hnext⟩
                (fun b hb => ?_) (by omega)
              -- what was left of the head has left, so the count starts again with the next one
              change b ∈ (w.map (encodedBuf cfg)).head? at hb
              rw [hb, Option.map_some, Option.getD_some]
              obtain ⟨g, -, rfl⟩ := List.mem_map.mp (List.mem_of_mem_head? hb)
              show _ = (encodedBuf cfg g).written - 0
              omega
          · rw [if_neg hwhole, ← List.append_assoc]
            have hmore := hu.more (k := k) hf (by omega)
            rw [← hbuffer] at hmore
            refine ih (s := { s with send := { encodedBuf cfg f with sent := begun + k } :: _ })
              ⟨_, _, _, hsplit, hmore⟩ (fun b hb => ?_) (by omega)
            obtain rfl := Option.some.inj hb
            show left - k = (encodedBuf cfg f).written - (begun + k)
            omega

/-- **`_fill_outgoing_buffer`** moves bytes of the frames, in order. -/
theorem carrying_fillOutgoingBuffer (hlen : ∀ f ∈ frames, encodedLen f < sizeModulus)
    (hends : CloseEnds frames) {s : Cws} (h : Carrying cfg frames s.send out) (len : ℕ) :
    Carrying cfg frames (fillOutgoingBuffer s len).2.send
      (out ++ (fillOutgoingBuffer s len).1) := by
  rw [fillOutgoingBuffer]
  cases hs : s.send with
  | nil =>
      rw [List.append_nil, hs, ← hs]
      exact h
  | cons head rest =>
      refine carrying_fillLoop hlen hends len h (fun b hb => ?_) le_rfl
      rw [hs] at hb
      obtain rfl := Option.some.inj hb
      rfl

/-- A drain touches nothing else that is seen here. -/
lemma kept_fillLoop (fuel : ℕ) : ∀ (s : Cws) (len left : ℕ),
    (fillLoop fuel s len left).2.cfg = s.cfg ∧
      sentBytes (fillLoop fuel s len left).2.trace = sentBytes s.trace ∧
      queuedFrames (fillLoop fuel s len left).2.trace = queuedFrames s.trace := by
  induction fuel with
  | zero =>
      intro s len left
      exact ⟨rfl, rfl, rfl⟩
  | succ fuel ih =>
      intro s len left
      by_cases hstop : len = 0 ∨ left = 0
      · rw [fillLoop_stop _ hstop]
        exact ⟨rfl, rfl, rfl⟩
      cases hs : s.send with
      | nil =>
          have hnone : fillLoop (fuel + 1) s len left = ([], s) := by
            rw [fillLoop, hs]
          rw [hnone]
          exact ⟨rfl, rfl, rfl⟩
      | cons head rest =>
          rw [fillLoop_cons hs fuel (by omega) (by omega) (k := min len left) rfl]
          simp only
          split_ifs
          · refine ⟨rfl, ?_, queuedFrames_concat rfl s.trace⟩
            exact (sentBytes_append s.trace _).trans (List.append_nil _)
          · exact ih { s with send := rest } _ _
          · exact ih { s with send := _ :: rest } _ _

lemma kept_fillOutgoingBuffer (s : Cws) (len : ℕ) :
    (fillOutgoingBuffer s len).2.cfg = s.cfg ∧
      sentBytes (fillOutgoingBuffer s len).2.trace = sentBytes s.trace ∧
      queuedFrames (fillOutgoingBuffer s len).2.trace = queuedFrames s.trace := by
  rw [fillOutgoingBuffer]
  split
  · exact ⟨rfl, rfl, rfl⟩
  · exact kept_fillLoop ..

/-! ## The order of the frames

What each step adds to the frames, and when it may. -/

/-- What a step does to the frames in the queue, and to the message that is open. -/
inductive Queues (o o' : Out) : Prop where
  | nothing (hinfo : o'.lastInfo = o.lastInfo)
      (h : queuedFrames o'.trace = queuedFrames o.trace) : Queues o o'
  | failed {f : CwsFrame} (hf : f.isControl = false) (hmem : .allocFailed f ∈ o'.trace)
      (h : queuedFrames o'.trace = queuedFrames o.trace) : Queues o o'
  | control {f : CwsFrame} (hf : ControlFrame f) (hq : o.closeState.queued = false)
      (hclose : f.opcode = wsOpcodeClose → o'.closeState.queued = true)
      (hinfo : o'.lastInfo = o.lastInfo)
      (h : queuedFrames o'.trace = queuedFrames o.trace ++ [f]) : Queues o o'
  | data {f : CwsFrame} (hf : DataFrame o.lastInfo o'.lastInfo f)
      (hq : o.closeState.queued = false)
      (h : queuedFrames o'.trace = queuedFrames o.trace ++ [f]) : Queues o o'

lemma CloseState.queued_of_any {c : CloseState} (h : c.any = false) : c.queued = false := by
  simp only [CloseState.any, Bool.or_eq_false_iff] at h
  exact h.1.1.2

/-- **One step** queues one frame at most. -/
lemma queues_micro {o o' : Out} (h : Micro o o') : Queues o o' := by
  cases h with
  | @control f hq hf hop =>
      exact .control hf hq (fun hc => absurd hc hop) rfl (queuedFrames_queued _ f)
  | controlFailed => exact .nothing rfl (queuedFrames_note o rfl)
  | @data f options hany hf =>
      exact .data hf (CloseState.queued_of_any hany) (queuedFrames_queued _ f)
  | @dataFailed f options hany hf =>
      refine .failed hf.isControl ?_ (queuedFrames_note _ rfl)
      exact List.mem_append_right _ (List.mem_singleton_self _)
  | closeIgnored => exact .nothing rfl (queuedFrames_note o rfl)
  | close code reason len hq hcode hf =>
      refine .control hf hq (fun _ => rfl) rfl ?_
      rw [queuedFrames_setClose]
      exact (queuedFrames_queued _ _).trans (congrArg (· ++ _) (queuedFrames_note o rfl))
  | closeLost =>
      refine .nothing rfl ?_
      rw [queuedFrames_setClose, queuedFrames_note o rfl]
  | closeFailed =>
      refine .nothing rfl ?_
      rw [queuedFrames_setClose, queuedFrames_note _ rfl, queuedFrames_note o rfl]
  | received | closed | closeSent => exact .nothing rfl (queuedFrames_setClose o _)
  | unpause | pause | advance | popped => exact .nothing rfl rfl
  | sent => exact .nothing rfl (queuedFrames_note o rfl)

lemma trace_micro {o o' : Out} (h : Micro o o') : o.trace <+: o'.trace := by
  cases h <;> simp [Out.push, Out.log, Out.setClose]

/-- A control frame may come at any time. -/
lemma ControlFrame.leaves {f : CwsFrame} (hf : ControlFrame f) (isOpen : Bool) :
    f.toFrame.leaves isOpen = some isOpen := by
  have hlen : f.data.length ≤ 125 := by
    rw [CwsFrame.data, List.length_take]
    exact (min_le_left _ _).trans hf.len
  have hop : 8 ≤ f.opcode := by
    rcases hf.opcode with h | h | h <;> rw [h] <;> decide
  simp [Frame.leaves, Frame.header, CwsFrame.toFrame, Header.admissible, Header.isControl, hop,
    hlen, hf.fin]

/-- A data frame comes when it may, and leaves the message open that its options say. -/
lemma DataFrame.leaves {lastInfo options : Flags} {f : CwsFrame}
    (hf : DataFrame lastInfo options f) :
    f.toFrame.leaves (isOpen lastInfo) = some (isOpen options) := by
  obtain ⟨hcont, hne⟩ := dataOpcode_ok hf.opcode
  have hfin : f.fin = !isOpen options := by
    rw [hf.fin, isOpen, decide_eq_true hne, Bool.true_and, ← decide_not]
  generalize hop : f.opcode = opcode at hcont
  cases hcont with
  | start hclosed hkind =>
      rcases hkind with rfl | rfl <;>
        simp [Frame.leaves, Frame.header, CwsFrame.toFrame, Header.admissible, Header.isControl,
          hop, hfin, hclosed, wsOpcodeText, wsOpcodeBinary]
  | continuation hopen =>
      simp [Frame.leaves, Frame.header, CwsFrame.toFrame, Header.admissible, Header.isControl,
        hop, hfin, hopen, wsOpcodeContinuation]

/-- A data frame found no memory. -/
def Event.losesData : Event → Bool
  | .allocFailed f => !f.isControl
  | _ => false

/-- No data frame has been lost for want of memory. -/
def NoneLost (t : List Event) : Prop := ∀ e ∈ t, e.losesData = false

instance (t : List Event) : Decidable (NoneLost t) :=
  inferInstanceAs (Decidable (∀ e ∈ t, e.losesData = false))

/-- The frames queued so far are in an order that is allowed, and a close frame is the last. -/
structure Ordered (o : Out) : Prop where
  allowed : NoneLost o.trace →
    leaves false ((queuedFrames o.trace).map CwsFrame.toFrame) = some (isOpen o.lastInfo)
  ends : CloseEnds (queuedFrames o.trace)
  queued : ∀ f ∈ queuedFrames o.trace, f.opcode = wsOpcodeClose → o.closeState.queued = true

lemma ordered_fresh (cfg : Cfg) : Ordered (Cws.fresh cfg).out := by
  refine ⟨fun _ => rfl, fun l f r h => ?_, List.forall_mem_nil _⟩
  exact absurd h.symm (by simp [Cws.out, Cws.fresh, queuedFrames])

lemma closeEnds_concat {frames : List CwsFrame} (f : CwsFrame)
    (hnone : ∀ g ∈ frames, g.opcode ≠ wsOpcodeClose) : CloseEnds (frames ++ [f]) := by
  intro l g r hsplit hclose
  rcases List.eq_nil_or_concat' r with rfl | ⟨r', x, rfl⟩
  · rfl
  · refine absurd hclose (hnone g ?_)
    rw [← List.cons_append, ← List.append_assoc] at hsplit
    rw [(List.append_inj' hsplit rfl).1]
    exact List.mem_append_right _ List.mem_cons_self

/-- **Every step** keeps the order. -/
lemma ordered_micro {o o' : Out} (h : Ordered o) (hstep : Micro o o') : Ordered o' := by
  have hlost : NoneLost o'.trace → NoneLost o.trace :=
    fun hn f hf => hn f ((trace_micro hstep).subset hf)
  have hle := (onward_micro hstep).le
  have hsame (hframes : queuedFrames o'.trace = queuedFrames o.trace) :
      CloseEnds (queuedFrames o'.trace) ∧
        ∀ f ∈ queuedFrames o'.trace, f.opcode = wsOpcodeClose → o'.closeState.queued = true := by
    rw [hframes]
    exact ⟨h.ends, fun f hf hc => hle.queued (h.queued f hf hc)⟩
  -- a frame is queued only while no close frame has been
  have hnone (hq : o.closeState.queued = false) :
      ∀ g ∈ queuedFrames o.trace, g.opcode ≠ wsOpcodeClose :=
    fun g hg hc => absurd (hq.symm.trans (h.queued g hg hc)) (by decide)
  cases queues_micro hstep with
  | nothing hinfo hframes =>
      obtain ⟨hends, hqueued⟩ := hsame hframes
      refine ⟨fun hn => ?_, hends, hqueued⟩
      rw [hframes, hinfo]
      exact h.allowed (hlost hn)
  | failed hf hmem hframes =>
      obtain ⟨hends, hqueued⟩ := hsame hframes
      refine ⟨fun hn => ?_, hends, hqueued⟩
      exact absurd (hn _ hmem) (by simp [Event.losesData, hf])
  | @control f hf hq hclose hinfo hframes =>
      refine ⟨fun hn => ?_, ?_, fun g hg hc => ?_⟩
      · rw [hframes, hinfo, List.map_append, leaves_append, h.allowed (hlost hn)]
        exact (leaves_cons _ _ _).trans (by rw [hf.leaves]; rfl)
      · rw [hframes]
        exact closeEnds_concat f (hnone hq)
      · rw [hframes] at hg
        rcases List.mem_append.mp hg with hg | hg
        · exact hle.queued (h.queued g hg hc)
        · exact hclose (List.mem_singleton.mp hg ▸ hc)
  | @data f hf hq hframes =>
      refine ⟨fun hn => ?_, ?_, fun g hg hc => ?_⟩
      · rw [hframes, List.map_append, leaves_append, h.allowed (hlost hn)]
        exact (leaves_cons _ _ _).trans (by rw [hf.leaves]; rfl)
      · rw [hframes]
        exact closeEnds_concat f (hnone hq)
      · rw [hframes] at hg
        rcases List.mem_append.mp hg with hg | hg
        · exact hle.queued (h.queued g hg hc)
        · exact absurd (List.mem_singleton.mp hg ▸ hc) hf.not_close

/-- The frames of a run. -/
lemma ordered_run (env : Env) (cfg : Cfg) (acts : List Action) :
    Ordered (run env (Cws.fresh cfg) acts).out :=
  run_out_invariant (ordered_fresh cfg) ordered_micro env acts

/-! ## Every run

Both together, for the whole of a run.  A run counts up to where its object is freed (`Run`). -/

/-- What the queue and the output of a run hold: the frames that were queued, all of which a client
may send. -/
structure Wired (s : Cws) : Prop where
  plain : ∀ f ∈ queuedFrames s.trace, Plain f
  carrying : Carrying s.cfg (queuedFrames s.trace) s.send (sentBytes s.trace)

lemma wired_fresh (cfg : Cfg) : Wired (Cws.fresh cfg) :=
  ⟨List.forall_mem_nil _, [], [], 0, rfl, rfl, rfl, fun h => absurd h (lt_irrefl 0)⟩

/-- Frames are added behind. -/
lemma Wired.add {s s' : Cws} (h : Wired s) (hadds : Adds s s') : Wired s' := by
  obtain ⟨hcfg, hbytes, fs, hfs, hframes, hsend⟩ := hadds
  refine ⟨fun f hf => ?_, ?_⟩
  · rw [hframes] at hf
    rcases List.mem_append.mp hf with hf | hf
    · exact h.plain f hf
    · exact hfs f hf
  · rw [hcfg, hbytes, hframes, hsend]
    exact h.carrying.add fs

lemma Plain.encodedLen_lt {f : CwsFrame} (h : Plain f) : encodedLen f < sizeModulus := by
  have hlen := h.sendable.len
  have hheader := (headerLen_bounds f).2
  rw [encodedLen, sizeModulus]
  omega

/-- **`_send_cb`**. -/
lemma Wired.sendCb {s : Cws} (h : Wired s) (hends : CloseEnds (queuedFrames s.trace)) (len : ℕ) :
    Wired (CurlWs.sendCb s len).2 := by
  have hlen : ∀ f ∈ queuedFrames s.trace, encodedLen f < sizeModulus :=
    fun f hf => (h.plain f hf).encodedLen_lt
  rw [CurlWs.sendCb]
  split_ifs
  · exact h
  · exact h.add (adds_verboseClose s _)
  · exact h.add (adds_nothing rfl rfl rfl rfl)
  · obtain ⟨hcfg, hbytes, hframes⟩ := kept_fillOutgoingBuffer s len
    have hcarry := carrying_fillOutgoingBuffer hlen hends h.carrying len
    have hqueued : queuedFrames ((fillOutgoingBuffer s len).2.log
        (.sent (fillOutgoingBuffer s len).1)).trace = queuedFrames s.trace :=
      (queuedFrames_concat rfl _).trans hframes
    have hout : sentBytes ((fillOutgoingBuffer s len).2.log
        (.sent (fillOutgoingBuffer s len).1)).trace
          = sentBytes s.trace ++ (fillOutgoingBuffer s len).1 := by
      rw [Cws.log, sentBytes_append, hbytes]
      exact congrArg (_ ++ ·) (List.append_nil _)
    refine ⟨by rw [hqueued]; exact h.plain, ?_⟩
    rw [hqueued, hout]
    exact hcfg.symm ▸ hcarry

/-- **Every run** keeps the frames, the queue and the output together. -/
lemma wired_run {env : Env} (henv : env.Backed) (cfg : Cfg) (acts : List Action) :
    (∀ c, .api c ∈ acts → c.Backed) → Wired (run env (Cws.fresh cfg) acts) := by
  induction acts using List.reverseRecOn with
  | nil =>
      intro _
      exact wired_fresh cfg
  | append_singleton acts a ih =>
      intro hacts
      have hbefore := ih fun c hc => hacts c (List.mem_append_left _ hc)
      rw [run_concat]
      cases a with
      | api c =>
          have hc := hacts c (List.mem_append_right _ (List.mem_singleton_self _))
          exact hbefore.add (adds_apiCall env _ hc)
      | send len =>
          have hends := (ordered_run env cfg acts).ends
          rw [Cws.queuedFrames_out] at hends
          exact hbefore.sendCb hends len
      | receive buf =>
          exact hbefore.add ((along_adds henv).receiveCb (adds_ping henv) _ buf)
      | header line status version =>
          exact hbefore.add ((along_adds henv).headerCb _ line status version)

lemma noneLost_filter (t : List Event) :
    NoneLost (t.filter fun e => !e.isReceive) ↔ NoneLost t := by
  refine ⟨fun h e he => ?_, fun h e he => h e (List.mem_filter.mp he).1⟩
  cases e with
  | allocFailed f => exact h _ (List.mem_filter.mpr ⟨he, rfl⟩)
  | _ => rfl

/-- What has left is the beginning of the frames' bytes, and all of them once nothing waits. -/
lemma Carrying.output (h : Carrying cfg frames send out) :
    out <+: frames.flatMap encoding ∧ (send = [] → out = frames.flatMap encoding) := by
  obtain ⟨done, waiting, begun, rfl, hsend, rfl, hbegun⟩ := h
  rw [List.flatMap_append]
  refine ⟨List.prefix_append_right_inj _ |>.mpr ?_, fun hnil => ?_⟩
  · cases waiting with
    | nil => exact List.take_prefix _ _
    | cons f w => exact (List.take_prefix _ _).trans (List.prefix_append _ _)
  · cases waiting with
    | nil => exact congrArg (_ ++ ·) List.take_nil
    | cons f w => exact absurd (hsend.symm.trans hnil) (List.cons_ne_nil _ _)

end CurlWs
