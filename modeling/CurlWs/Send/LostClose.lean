import CurlWs.Send.Closing

/-!
# Closes that are lost

`cws_close` sets `CLOSE_QUEUED` whatever `frame_sender_control` answers.  Two answers leave the
connection with the bit set and no close frame: the urgent form is refused for its options, and the
pool may have no memory.  After either, nothing is ever sent again, nor is a close.

**Lost.**  Each call of `cws_close` is an event with its arguments and with whether `CLOSE_QUEUED`
was set, and so is each frame for which there is no memory.  A close is lost by an accepted call
with a negative code while the bit is clear, or by a close frame without memory
(`Event.losesClose`).

**Kept.**  As long as `CLOSE_QUEUED` is clear no close was lost.  Once it is set, there is a close
frame, in the queue or sent, or else one was lost, and never both (`Kept`).  Every step of the
sending side keeps this, since after the first close there is no second.

* **`close_kept_iff`** — `CLOSE_QUEUED` goes with a close frame queued or sent, unless a close was
  lost.
-/

namespace CurlWs

/-- An accepted close that queues no frame. -/
def Event.losesClose : Event → Prop
  | .closeCall code reason len isQueued =>
      isQueued = false ∧ code < 0 ∧ CloseAccepted code reason len
  | .allocFailed f => f.opcode = wsOpcodeClose
  | _ => False

/-- A close was lost. -/
def CloseLost (t : List Event) : Prop := ∃ e ∈ t, e.losesClose

/-- A close frame is in the queue. -/
def CloseWaiting (queue : List BufQueue) : Prop := ∃ b ∈ queue, b.isCloseFrame = true

lemma closeLost_concat {t : List Event} {e : Event} :
    CloseLost (t ++ [e]) ↔ CloseLost t ∨ e.losesClose := by
  simp only [CloseLost, List.mem_append, List.mem_singleton, or_and_right, exists_or,
    exists_eq_left]

lemma closeLost_concat_of_not {t : List Event} {e : Event} (he : ¬ e.losesClose) :
    CloseLost (t ++ [e]) ↔ CloseLost t := by
  rw [closeLost_concat, or_iff_left he]

lemma closeWaiting_enqueue {queue : List BufQueue} {b : BufQueue} {isUrgent : Bool} :
    CloseWaiting (enqueue queue b isUrgent) ↔ b.isCloseFrame = true ∨ CloseWaiting queue := by
  simp only [CloseWaiting, mem_enqueue, or_and_right, exists_or, exists_eq_left]

/-! ## The invariant

What the bit stands for, and what the trace says of it. -/

/-- Whether a close frame is queued or sent. -/
def Out.HasClose (o : Out) : Prop := CloseWaiting o.send ∨ o.closeState.sent = true

/-- While `CLOSE_QUEUED` is clear no close was lost; once it is set, one was lost or there is a
close frame. -/
structure Kept (o : Out) : Prop where
  unset : o.closeState.queued = false → ¬ CloseLost o.trace
  set : o.closeState.queued = true → (CloseLost o.trace ↔ ¬ o.HasClose)

/-- Nothing that matters changes. -/
lemma Kept.of_iff {o o' : Out} (h : Kept o) (hq : o'.closeState.queued = o.closeState.queued)
    (hl : CloseLost o'.trace ↔ CloseLost o.trace) (hc : o'.HasClose ↔ o.HasClose) : Kept o' := by
  refine ⟨fun hu => ?_, fun hs => ?_⟩
  · rw [hl]
    exact h.unset (hq.symm.trans hu)
  · rw [hl, hc]
    exact h.set (hq.symm.trans hs)

lemma Kept.log {o : Out} (h : Kept o) {e : Event} (he : ¬ e.losesClose) : Kept (o.log e) :=
  h.of_iff rfl (closeLost_concat_of_not he) Iff.rfl

/-- A frame other than a close frame is queued. -/
lemma Kept.push {o : Out} (h : Kept o) {f : CwsFrame} (hop : f.opcode ≠ wsOpcodeClose) :
    Kept (o.push f) := by
  refine h.of_iff rfl (closeLost_concat_of_not id) (or_congr_left ?_)
  refine closeWaiting_enqueue.trans (or_iff_right ?_)
  exact fun hclose => hop (of_decide_eq_true hclose)

/-- Neither side has a close frame before `CLOSE_QUEUED` is set. -/
lemma Closing.not_hasClose {o : Out} (h : Closing o) (hq : o.closeState.queued = false) :
    ¬ o.HasClose := by
  rintro (⟨b, hb, hclose⟩ | hsent)
  · exact absurd (hq.symm.trans (h.waiting b hb hclose)) (by decide)
  · exact absurd (hq.symm.trans (h.inOrder.sent hsent)) (by decide)

lemma kept_fresh (cfg : Cfg) : Kept (Cws.fresh cfg).out :=
  ⟨fun _ h => absurd h (by simp [CloseLost, Cws.out, Cws.fresh]),
    fun hq => absurd hq Bool.false_ne_true⟩

/-- **Every step** loses a close or keeps it. -/
theorem kept_micro {o o' : Out} (hc : Closing o) (h : Kept o) (hstep : Micro o o') : Kept o' := by
  cases hstep with
  | control _ _ hop => exact h.push hop
  | controlFailed _ hop => exact h.log hop
  | @data f options hany hf =>
      have h' : Kept { o with lastInfo := options } := h.of_iff rfl Iff.rfl Iff.rfl
      exact h'.push hf.not_close
  | @dataFailed f options hany hf =>
      have h' : Kept { o with lastInfo := options } := h.of_iff rfl Iff.rfl Iff.rfl
      exact h'.log hf.not_close
  | closeIgnored code reason len hignored =>
      refine h.log fun hlost => ?_
      rcases hignored with hq | hacc
      · exact absurd (hlost.1.symm.trans hq) (by decide)
      · exact hacc hlost.2.2
  | @close code reason len f hq hcode hf hop =>
      refine ⟨fun hq => absurd hq.symm Bool.false_ne_true, fun _ =>
        iff_of_false ?_ (not_not_intro (.inl ?_))⟩
      · have hcall : ¬ (Event.closeCall code reason len false).losesClose :=
          fun hlost => absurd hlost.2.1 (not_lt.mpr hcode)
        rw [Out.setClose, closeLost_concat_of_not id, Out.push, closeLost_concat_of_not id,
          Out.log, closeLost_concat_of_not hcall]
        exact h.unset hq
      · exact closeWaiting_enqueue.mpr (.inl (decide_eq_true hop))
  | closeLost code reason len hq hacc hcode =>
      refine ⟨fun hq => absurd hq.symm Bool.false_ne_true, fun _ =>
        iff_of_true ?_ (hc.not_hasClose hq)⟩
      refine closeLost_concat.mpr (.inl (closeLost_concat.mpr (.inr ?_)))
      exact ⟨rfl, hcode, hacc⟩
  | closeFailed code reason len hq hcode hop =>
      refine ⟨fun hq => absurd hq.symm Bool.false_ne_true, fun _ =>
        iff_of_true ?_ (hc.not_hasClose hq)⟩
      exact closeLost_concat.mpr (.inl (closeLost_concat.mpr (.inr hop)))
  | received => exact h.of_iff rfl (closeLost_concat_of_not id) Iff.rfl
  | unpause => exact h.of_iff rfl Iff.rfl Iff.rfl
  | pause => exact h.of_iff rfl Iff.rfl Iff.rfl
  | closed => exact h.of_iff rfl (closeLost_concat_of_not id) Iff.rfl
  | advance hs =>
      refine h.of_iff rfl Iff.rfl (or_congr_left ?_)
      simp only [CloseWaiting, hs, List.exists_mem_cons_iff]
  | popped hs hlt hclose =>
      refine h.of_iff rfl Iff.rfl (or_congr_left ?_)
      simp [CloseWaiting, hs, hclose]
  | @closeSent head rest hs hlt hclose =>
      have hw : CloseWaiting o.send := ⟨head, hs ▸ List.mem_cons_self, hclose⟩
      obtain ⟨b, hb, hbclose⟩ := hw
      have hq := hc.waiting b hb hbclose
      refine ⟨fun hu => absurd (hq.symm.trans hu) (by decide), fun _ => ?_⟩
      rw [Out.setClose, closeLost_concat_of_not id]
      refine iff_of_false (fun hlost => ?_) (not_not_intro (.inr rfl))
      exact (h.set hq).mp hlost (.inl ⟨b, hb, hbclose⟩)
  | sent => exact h.log id

/-! ## Every run

From the steps of the sending side to the runs of the model.  A run counts up to where its object is
freed (`Run`). -/

/-- **Every run** keeps the invariant. -/
lemma kept_run (env : Env) (cfg : Cfg) (acts : List Action) :
    Kept (run env (Cws.fresh cfg) acts).out :=
  (run_out_invariant (P := fun o => Closing o ∧ Kept o) ⟨closing_fresh cfg, kept_fresh cfg⟩
    (fun h hstep => ⟨closing_micro h.1 hstep, kept_micro h.1 h.2 hstep⟩) env acts).2

lemma closeLost_filter (t : List Event) :
    CloseLost (t.filter fun e => !e.isReceive) ↔ CloseLost t := by
  simp only [CloseLost, List.mem_filter, Bool.not_eq_true']
  refine exists_congr fun e => ?_
  cases e <;> simp [Event.losesClose, Event.isReceive]

/-- With `CLOSE_QUEUED` set there is a close frame in the queue or `CLOSE_SENT` is set. -/
def CloseKept (s : Cws) : Prop :=
  s.closeState.queued = true → CloseWaiting s.send ∨ s.closeState.sent = true

/-- **When a close is kept.**  `CLOSE_QUEUED` goes with a close frame, queued or sent, exactly in
the runs in which no accepted close was urgent or without memory.  In the others every later ping
is refused, and no frame is queued any more. -/
theorem close_kept_iff (env : Env) (cfg : Cfg) (acts : List Action) :
    let s := run env (Cws.fresh cfg) acts
    (CloseKept s ↔ ¬ CloseLost s.trace) ∧
      (CloseLost s.trace →
        (∀ data len, (cwsPing env s data len).1 = .closedConnection) ∧
        ∀ more, queuedFrames (run env s more).trace = queuedFrames s.trace) := by
  intro s
  have h : Kept s.out := kept_run env cfg acts
  have hlost : CloseLost s.out.trace ↔ CloseLost s.trace := closeLost_filter s.trace
  have hqueued : CloseLost s.trace → s.closeState.queued = true := by
    intro hl
    by_contra hq
    exact h.unset (Bool.eq_false_of_not_eq_true hq) (hlost.mpr hl)
  refine ⟨⟨fun hkept hl => ?_, fun hl hq => ?_⟩, fun hl => ⟨fun data len => ?_, fun more => ?_⟩⟩
  · exact (h.set (hqueued hl)).mp (hlost.mpr hl) (hkept (hqueued hl))
  · by_contra hnone
    exact hl (hlost.mp ((h.set hq).mpr hnone))
  · rw [cwsPing, frameSenderControl_eq env s .ping, if_pos (hqueued hl)]
  · have hsteps := onward_steps (steps_run env more (tidy_run env cfg acts)).1
    have hframes := hsteps.frames (hqueued hl)
    rwa [s.queuedFrames_out, Cws.queuedFrames_out] at hframes

/-- The urgent close of the public interface: `CWSE_INVALID_OPTIONS`, and the connection can neither
send nor close any more. -/
theorem urgent_close_lost :
    let s := run Env.quiet (Cws.fresh {}) [.api (.close (-1001) none 0)]
    (cwsClose Env.quiet (Cws.fresh {}) (-1001) none 0).1 = .invalidOptions ∧
      ¬ CloseKept s ∧
      (cwsPing Env.quiet s none 0).1 = .closedConnection ∧
      (cwsClose Env.quiet s 1001 none 0).1 = .closedConnection ∧
      (cwsSendBlkText Env.quiet s none 0).1 = .closedConnection := by
  refine ⟨by decide +kernel, fun h => ?_, by decide +kernel, by decide +kernel, by decide +kernel⟩
  rcases h (by decide +kernel) with ⟨b, hb, -⟩ | hsent
  · exact absurd hb (by
      have : (run Env.quiet (Cws.fresh {}) [.api (.close (-1001) none 0)]).send = [] := by
        decide +kernel
      rw [this]
      exact List.not_mem_nil)
  · exact absurd hsent (by decide +kernel)

end CurlWs
