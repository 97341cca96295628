import CurlWs.Library.Trace
import CurlWs.Send.Steps

/-!
# Closing

A connection is closed by the application, by the value a callback returns, by a close frame of the
server or by a failure, in any order and one inside another.  `close_state` records how far each
side has got, and gates what is sent.

**The history.**  Every queued frame and every change of `close_state` is an event, so that an order
can be read off the trace: `closeAt` is the state after a trace, and `Allowed` says what may come
next.  No frame is queued once `CLOSE_QUEUED` is set, no data frame once any bit is; a change clears
no bit and keeps the bits in order.

**One step.**  All that the sending side does is made of the steps of `Micro`, and each keeps the
invariant `Closing` (`closing_micro`).  What happens in a callback inside a callback is a sequence
of such steps like any other, so nesting needs no argument of its own.

**Later states.**  `Onward` compares a state with any later one: bits stay set, and once they are,
frames stop coming.

* **`closing_discipline`** — at most one close frame is queued, nothing is queued after it, and the
  bits of `close_state` are set in order and stay set.
-/

namespace CurlWs

open Trace

/-! ## What the trace says about `close_state`

Frames and reports, picked out of the events. -/

/-- The `close_state` an event reports. -/
def Event.reports : Event → Option CloseState
  | .closeState c => some c
  | _ => none

/-- `close_state` as last reported. -/
def closeAt (t : List Event) : CloseState := latest Event.reports {} t

/-- The frame an event puts in the queue. -/
def Event.queues : Event → Option CwsFrame
  | .queued f => some f
  | _ => none

/-- The frames put in the queue, oldest first. -/
def queuedFrames (t : List Event) : List CwsFrame := t.filterMap Event.queues

/-- The close frames among them. -/
def closeFrames (t : List Event) : List CwsFrame :=
  (queuedFrames t).filter fun f => f.opcode = wsOpcodeClose

/-- The data frames among them. -/
def dataFrames (t : List Event) : List CwsFrame := (queuedFrames t).filter fun f => !f.isControl

namespace CloseState

/-- No bit of `c` is cleared in `d`. -/
structure Le (c d : CloseState) : Prop where
  received : c.received = true → d.received = true
  queued : c.queued = true → d.queued = true
  sent : c.sent = true → d.sent = true
  closed : c.closed = true → d.closed = true

/-- A close frame is sent after it is queued, and a connection closed after one was sent and one
received. -/
structure InOrder (c : CloseState) : Prop where
  sent : c.sent = true → c.queued = true
  closed : c.closed = true → c.sent = true ∧ c.received = true

end CloseState

/-- What may happen after the events `earlier`. -/
def Allowed (earlier : List Event) : Event → Prop
  | .queued f =>
      (closeAt earlier).queued = false ∧ (f.isControl = false → (closeAt earlier).any = false)
  | .closeState c => (closeAt earlier).Le c ∧ c.InOrder
  | _ => True

/-- One event more. -/
lemma closeAt_concat (t : List Event) (e : Event) :
    closeAt (t ++ [e]) = e.reports.getD (closeAt t) := latest_concat ..

/-- An event that queues nothing. -/
lemma queuedFrames_concat {e : Event} (he : e.queues = none) (t : List Event) :
    queuedFrames (t ++ [e]) = queuedFrames t := by
  rw [queuedFrames, List.filterMap_append, List.filterMap_cons_none he, List.filterMap_nil,
    List.append_nil]
  rfl

lemma queuedFrames_queued (t : List Event) (f : CwsFrame) :
    queuedFrames (t ++ [.queued f]) = queuedFrames t ++ [f] := by
  rw [queuedFrames, List.filterMap_append]
  rfl

/-! ## The receive path reports nothing

Its events may be left out of a trace. -/

lemma closeAt_filter (t : List Event) :
    closeAt (t.filter fun e => !e.isReceive) = closeAt t := by
  refine latest_filter (fun e he => ?_) _ t
  rw [Bool.not_eq_false'] at he
  cases e <;> first | rfl | cases he

lemma queuedFrames_filter (t : List Event) :
    queuedFrames (t.filter fun e => !e.isReceive) = queuedFrames t := by
  rw [queuedFrames, List.filterMap_filter]
  refine List.filterMap_congr fun e _ => ?_
  cases e <;> rfl

lemma Cws.queuedFrames_out (s : Cws) : queuedFrames s.out.trace = queuedFrames s.trace :=
  queuedFrames_filter s.trace

lemma Cws.closeAt_out (s : Cws) : closeAt s.out.trace = closeAt s.trace := closeAt_filter s.trace

/-! ## The invariant

Of the sending side, with the history that has led to it. -/

/-- What holds of the sending side at all times. -/
structure Closing (o : Out) : Prop where
  now : o.closeState = closeAt o.trace
  once : (closeFrames o.trace).length ≤ o.closeState.queued.toNat
  inOrder : o.closeState.InOrder
  waiting : ∀ b ∈ o.send, b.isCloseFrame = true → o.closeState.queued = true
  history : Always Allowed o.trace

lemma length_enqueue (queue : List BufQueue) (b : BufQueue) (isUrgent : Bool) :
    (enqueue queue b isUrgent).length = queue.length + 1 := by
  cases queue with
  | nil => rfl
  | cons head rest =>
      simp only [enqueue]
      split_ifs <;> simp

/-- A new buffer joins the others, whatever its place. -/
lemma mem_enqueue {queue : List BufQueue} {b b' : BufQueue} {isUrgent : Bool} :
    b' ∈ enqueue queue b isUrgent ↔ b' = b ∨ b' ∈ queue := by
  cases queue with
  | nil => simp [enqueue]
  | cons head rest =>
      simp only [enqueue]
      split_ifs <;> simp <;> tauto

/-- Data frames are not close frames. -/
lemma DataFrame.not_close {lastInfo options : Flags} {f : CwsFrame}
    (hf : DataFrame lastInfo options f) : f.opcode ≠ wsOpcodeClose := by
  have hop := hf.opcode
  simp only [dataOpcode] at hop
  intro hclose
  rw [hclose] at hop
  split_ifs at hop <;> exact absurd hop (by decide)

namespace Closing

variable {o : Out} (h : Closing o)

include h

/-- An event that neither queues a frame nor reports `close_state`. -/
lemma log {e : Event} (hr : e.reports = none)
    (hq : closeFrames (o.trace ++ [e]) = closeFrames o.trace) (ha : Allowed o.trace e) :
    Closing (o.log e) := by
  refine ⟨?_, ?_, h.inOrder, h.waiting, always_concat.mpr ⟨h.history, ha⟩⟩
  · show o.closeState = closeAt (o.trace ++ [e])
    rw [closeAt_concat, hr]
    exact h.now
  · show (closeFrames (o.trace ++ [e])).length ≤ o.closeState.queued.toNat
    rw [hq]
    exact h.once

/-- An event that has nothing to do with `close_state` or the queue. -/
lemma note {e : Event} (hr : e.reports = none) (hq : e.queues = none) : Closing (o.log e) := by
  refine h.log hr (by rw [closeFrames, queuedFrames_concat hq, closeFrames]) ?_
  cases e with
  | queued | closeState => cases hq <;> cases hr
  | _ => trivial

/-- A frame other than a close frame is queued. -/
lemma push {f : CwsFrame} (hq : o.closeState.queued = false)
    (hd : f.isControl = false → o.closeState.any = false) (hop : f.opcode ≠ wsOpcodeClose) :
    Closing (o.push f) := by
  have ha : Allowed o.trace (.queued f) := by
    rw [Allowed, ← h.now]
    exact ⟨hq, hd⟩
  have hsame : closeFrames (o.trace ++ [.queued f]) = closeFrames o.trace := by
    rw [closeFrames, queuedFrames_queued, List.filter_append, List.filter_singleton]
    simp [closeFrames, hop]
  obtain ⟨hnow, honce, hin, -, hhist⟩ := h.log rfl hsame ha
  refine ⟨hnow, honce, hin, fun b hb hc => ?_, hhist⟩
  rcases mem_enqueue.mp hb with rfl | hb
  · exact absurd (of_decide_eq_true hc) hop
  · exact h.waiting b hb hc

/-- `close_state` changes as it may. -/
lemma setClose {c : CloseState} (hle : o.closeState.Le c) (hin : c.InOrder) :
    Closing (o.setClose c) := by
  refine ⟨?_, ?_, hin, fun b hb hc => hle.queued (h.waiting b hb hc), ?_⟩
  · show c = closeAt (o.trace ++ [.closeState c])
    rw [closeAt_concat]
    rfl
  · show (closeFrames (o.trace ++ [.closeState c])).length ≤ c.queued.toNat
    rw [closeFrames, queuedFrames_concat rfl]
    refine h.once.trans ?_
    cases hq : o.closeState.queued with
    | false => exact Nat.zero_le _
    | true => rw [hle.queued hq]
  · refine always_concat.mpr ⟨h.history, ?_, hin⟩
    rw [← h.now]
    exact hle

/-- `CLOSE_QUEUED` is set. -/
lemma setQueued : Closing (o.setClose { o.closeState with queued := true }) :=
  h.setClose ⟨id, fun _ => rfl, id, id⟩ ⟨fun _ => rfl, h.inOrder.closed⟩

/-- A close frame is queued, and `CLOSE_QUEUED` is set at once. -/
lemma pushClose {f : CwsFrame} (hq : o.closeState.queued = false) (hc : f.isControl = true) :
    Closing ((o.push f).setClose { o.closeState with queued := true }) := by
  have hfirst : closeFrames o.trace = [] := by
    have honce := h.once
    rw [hq] at honce
    exact List.length_eq_zero_iff.mp (Nat.le_zero.mp honce)
  have hnow : closeAt (o.trace ++ [Event.queued f]) = o.closeState := by
    rw [closeAt_concat, h.now]
    rfl
  refine ⟨?_, ?_, ⟨fun _ => rfl, h.inOrder.closed⟩, fun _ _ _ => rfl, ?_⟩
  · show _ = closeAt ((o.trace ++ [Event.queued f]) ++ [_])
    rw [closeAt_concat]
    rfl
  · show (closeFrames ((o.trace ++ [.queued f]) ++ [_])).length ≤ 1
    rw [closeFrames, queuedFrames_concat rfl, queuedFrames_queued, List.filter_append]
    change (closeFrames o.trace ++ _).length ≤ 1
    rw [hfirst, List.nil_append]
    exact List.length_filter_le _ [f]
  · refine always_concat.mpr ⟨always_concat.mpr ⟨h.history, ?_⟩, ?_, fun _ => rfl, h.inOrder.closed⟩
    · rw [Allowed, ← h.now]
      exact ⟨hq, fun hd => absurd (hc.symm.trans hd) (by decide)⟩
    · show (closeAt (o.trace ++ [Event.queued f])).Le _
      rw [hnow]
      exact ⟨id, fun _ => rfl, id, id⟩

end Closing

/-- Nothing has happened. -/
lemma closing_fresh (cfg : Cfg) : Closing (Cws.fresh cfg).out :=
  ⟨rfl, Nat.zero_le _,
    ⟨fun hs => absurd hs Bool.false_ne_true, fun hc => absurd hc Bool.false_ne_true⟩,
    List.forall_mem_nil _, always_nil _⟩

/-- What the invariant does not look at may change. -/
lemma Closing.of_eq {o o' : Out} (h : Closing o) (hc : o'.closeState = o.closeState)
    (ht : o'.trace = o.trace)
    (hs : ∀ b ∈ o'.send, b.isCloseFrame = true → ∃ b' ∈ o.send, b'.isCloseFrame = true) :
    Closing o' := by
  refine ⟨?_, ?_, ?_, fun b hb hclose => ?_, ?_⟩
  · rw [hc, ht]
    exact h.now
  · rw [hc, ht]
    exact h.once
  · rw [hc]
    exact h.inOrder
  · obtain ⟨b', hb', hclose'⟩ := hs b hb hclose
    rw [hc]
    exact h.waiting b' hb' hclose'
  · rw [ht]
    exact h.history

/-- **Every step** keeps to the order. -/
theorem closing_micro {o o' : Out} (h : Closing o) (hstep : Micro o o') : Closing o' := by
  cases hstep with
  | control hq hf hop =>
      exact h.push hq (fun hd => absurd (hf.isControl.symm.trans hd) (by decide)) hop
  | controlFailed => exact h.note rfl rfl
  | @data f options hany hf =>
      have hq : o.closeState.queued = false := by
        simp only [CloseState.any, Bool.or_eq_false_iff] at hany
        exact hany.1.1.2
      have h' : Closing { o with lastInfo := options } :=
        h.of_eq rfl rfl fun b hb hc => ⟨b, hb, hc⟩
      exact h'.push hq (fun _ => hany) hf.not_close
  | @dataFailed f options hany hf =>
      have h' : Closing { o with lastInfo := options } :=
        h.of_eq rfl rfl fun b hb hc => ⟨b, hb, hc⟩
      exact h'.note rfl rfl
  | closeIgnored => exact h.note rfl rfl
  | close code reason len hq hcode hf =>
      exact (h.note (e := .closeCall code reason len false) rfl rfl).pushClose hq
        hf.isControl
  | closeLost code reason len =>
      exact (h.note (e := .closeCall code reason len false) rfl rfl).setQueued
  | @closeFailed code reason len f =>
      have h' := h.note (e := .closeCall code reason len false) rfl rfl
      exact (h'.note (e := .allocFailed f) rfl rfl).setQueued
  | received =>
      exact h.setClose ⟨fun _ => rfl, id, id, id⟩
        ⟨h.inOrder.sent, fun hc => ⟨(h.inOrder.closed hc).1, rfl⟩⟩
  | unpause => exact h.of_eq rfl rfl fun b hb hc => ⟨b, hb, hc⟩
  | pause => exact h.of_eq rfl rfl fun b hb hc => ⟨b, hb, hc⟩
  | closed hs hc =>
      simp only [CloseState.readyToClose, Bool.and_eq_true] at hc
      exact h.setClose ⟨id, id, id, fun _ => rfl⟩ ⟨h.inOrder.sent, fun _ => hc.1⟩
  | @advance head rest k hs hk hlt =>
      refine h.of_eq rfl rfl fun b hb hc => ?_
      rw [hs]
      rcases List.mem_cons.mp hb with rfl | hb
      · exact ⟨head, List.mem_cons_self, hc⟩
      · exact ⟨b, List.mem_cons_of_mem _ hb, hc⟩
  | popped hs hlt hc =>
      refine h.of_eq rfl rfl fun b hb hc => ⟨b, ?_, hc⟩
      rw [hs]
      exact List.mem_cons_of_mem _ hb
  | @closeSent head rest hs hlt hc =>
      have hq := h.waiting head (hs ▸ List.mem_cons_self) hc
      have h' := h.setClose (c := { o.closeState with sent := true }) ⟨id, id, fun _ => rfl, id⟩
        ⟨fun _ => hq, fun hc => ⟨rfl, (h.inOrder.closed hc).2⟩⟩
      exact h'.of_eq rfl rfl (List.forall_mem_nil _)
  | sent => exact h.note rfl rfl

/-- **Every run** keeps the invariant. -/
lemma closing_run (env : Env) (cfg : Cfg) (acts : List Action) :
    Closing (run env (Cws.fresh cfg) acts).out :=
  run_out_invariant (closing_fresh cfg) closing_micro env acts

/-! ## From one state to a later one

Along a step, along many, and from one point of a run to another. -/

/-- What does not change once a bit of `close_state` is set. -/
structure Onward (o o' : Out) : Prop where
  le : o.closeState.Le o'.closeState
  frames : o.closeState.queued = true → queuedFrames o'.trace = queuedFrames o.trace
  data : o.closeState.any = true → dataFrames o'.trace = dataFrames o.trace

lemma CloseState.Le.any {c d : CloseState} (h : c.Le d) (hc : c.any = true) : d.any = true := by
  simp only [CloseState.any, Bool.or_eq_true] at hc ⊢
  exact hc.imp (Or.imp (Or.imp h.received h.queued) h.sent) h.closed

/-- One part of a run after the other. -/
lemma Onward.trans {o₁ o₂ o₃ : Out} (h : Onward o₁ o₂) (h' : Onward o₂ o₃) : Onward o₁ o₃ := by
  refine ⟨⟨fun hc => h'.le.received (h.le.received hc), fun hc => h'.le.queued (h.le.queued hc),
    fun hc => h'.le.sent (h.le.sent hc), fun hc => h'.le.closed (h.le.closed hc)⟩, fun hc => ?_,
    fun hc => ?_⟩
  · rw [h'.frames (h.le.queued hc), h.frames hc]
  · rw [h'.data (h.le.any hc), h.data hc]

/-- Nothing is queued. -/
lemma onward_of_frames {o o' : Out} (hle : o.closeState.Le o'.closeState)
    (h : queuedFrames o'.trace = queuedFrames o.trace) : Onward o o' :=
  ⟨hle, fun _ => h, fun _ => by rw [dataFrames, h, dataFrames]⟩

lemma CloseState.Le.refl (c : CloseState) : c.Le c := ⟨id, id, id, id⟩

lemma queuedFrames_note (o : Out) {e : Event} (he : e.queues = none) :
    queuedFrames (o.log e).trace = queuedFrames o.trace := queuedFrames_concat he o.trace

lemma queuedFrames_setClose (o : Out) (c : CloseState) :
    queuedFrames (o.setClose c).trace = queuedFrames o.trace := queuedFrames_concat rfl o.trace

/-- A control frame is queued. -/
lemma onward_control {o o' : Out} {f : CwsFrame} (hq : o.closeState.queued = false)
    (hle : o.closeState.Le o'.closeState) (hf : f.isControl = true)
    (h : queuedFrames o'.trace = queuedFrames o.trace ++ [f]) : Onward o o' := by
  refine ⟨hle, fun hc => absurd (hq.symm.trans hc) (by decide), fun _ => ?_⟩
  rw [dataFrames, h, List.filter_append, List.filter_singleton, hf]
  exact List.append_nil _

/-- **One step** goes onward. -/
theorem onward_micro {o o' : Out} (h : Micro o o') : Onward o o' := by
  cases h with
  | @control f hq hf => exact onward_control hq (.refl _) hf.isControl (queuedFrames_queued _ f)
  | controlFailed => exact onward_of_frames (.refl _) (queuedFrames_note o rfl)
  | @data f options hany hf =>
      refine ⟨.refl _, fun hc => ?_, fun hc => absurd (hany.symm.trans hc) (by decide)⟩
      have hany' : o.closeState.any = true := by simp [CloseState.any, hc]
      exact absurd (hany.symm.trans hany') (by decide)
  | dataFailed => exact onward_of_frames (.refl _) (queuedFrames_note _ rfl)
  | closeIgnored => exact onward_of_frames (.refl _) (queuedFrames_note o rfl)
  | close code reason len hq hcode hf =>
      refine onward_control hq ⟨id, fun _ => rfl, id, id⟩ hf.isControl ?_
      rw [queuedFrames_setClose]
      exact (queuedFrames_queued _ _).trans (congrArg (· ++ _) (queuedFrames_note o rfl))
  | closeLost =>
      refine onward_of_frames ⟨id, fun _ => rfl, id, id⟩ ?_
      rw [queuedFrames_setClose, queuedFrames_note o rfl]
  | closeFailed =>
      refine onward_of_frames ⟨id, fun _ => rfl, id, id⟩ ?_
      rw [queuedFrames_setClose, queuedFrames_note _ rfl, queuedFrames_note o rfl]
  | received =>
      exact onward_of_frames ⟨fun _ => rfl, id, id, id⟩ (queuedFrames_setClose o _)
  | unpause | pause | advance | popped => exact onward_of_frames (.refl _) rfl
  | closed => exact onward_of_frames ⟨id, id, id, fun _ => rfl⟩ (queuedFrames_setClose o _)
  | closeSent => exact onward_of_frames ⟨id, id, fun _ => rfl, id⟩ (queuedFrames_setClose o _)
  | sent => exact onward_of_frames (.refl _) (queuedFrames_note o rfl)

/-- **Any number of steps** go onward. -/
theorem onward_steps {o o' : Out} (h : Steps o o') : Onward o o' := by
  induction h with
  | refl => exact onward_of_frames (.refl _) rfl
  | tail _ hstep ih => exact ih.trans (onward_micro hstep)

/-! ## Every run

The runs of the whole model are sequences of steps.  A run counts up to where its object is freed
(`Run`). -/

/-- At most one close frame is queued. -/
lemma length_closeFrames_run (env : Env) (cfg : Cfg) (acts : List Action) :
    (closeFrames (run env (Cws.fresh cfg) acts).trace).length ≤ 1 := by
  have honce := (closing_run env cfg acts).once.trans (Bool.toNat_le _)
  rwa [closeFrames, Cws.queuedFrames_out] at honce

/-- A run goes on. -/
lemma onward_run (env : Env) (cfg : Cfg) (acts more : List Action) :
    Onward (run env (Cws.fresh cfg) acts).out (run env (run env (Cws.fresh cfg) acts) more).out :=
  onward_steps (steps_run env more (tidy_run env cfg acts)).1

/-- **The order of a close.**  In every run at most one close frame is queued; at no moment is a
frame queued once `CLOSE_QUEUED` is set, or a data frame once any bit is set; the bits are never
cleared; `CLOSE_SENT` comes after `CLOSE_QUEUED`, and `CLOSED` after `CLOSE_SENT` and
`CLOSE_RECEIVED`. -/
theorem closing_discipline (env : Env) (cfg : Cfg) (acts : List Action) :
    let s := run env (Cws.fresh cfg) acts
    (closeFrames s.trace).length ≤ 1 ∧
    Always Allowed s.trace ∧
    s.closeState = closeAt s.trace ∧ s.closeState.InOrder ∧
    ∀ more : List Action,
      let s' := run env s more
      s.closeState.Le s'.closeState ∧
      (s.closeState.queued = true → queuedFrames s'.trace = queuedFrames s.trace) ∧
      (s.closeState.any = true → dataFrames s'.trace = dataFrames s.trace) := by
  intro s
  have h : Closing s.out := closing_run env cfg acts
  refine ⟨length_closeFrames_run env cfg acts, ?_, h.now.trans s.closeAt_out, h.inOrder,
    fun more => ?_⟩
  · refine always_of_filter h.history (fun earlier e he => ?_) fun earlier e he => ?_
    · rw [Bool.not_eq_false'] at he
      cases e with
      | queued | closeState => cases he
      | _ => trivial
    · cases e with
      | queued f =>
          rw [Allowed, closeAt_filter] at he
          exact he
      | closeState c =>
          rw [Allowed, closeAt_filter] at he
          exact he
      | _ => trivial
  · have hsteps := onward_run env cfg acts more
    refine ⟨hsteps.le, fun hq => ?_, fun hc => ?_⟩
    · have hframes := hsteps.frames hq
      rwa [s.queuedFrames_out, Cws.queuedFrames_out] at hframes
    · have hdata := hsteps.data hc
      rwa [dataFrames, dataFrames, s.queuedFrames_out, Cws.queuedFrames_out] at hdata

end CurlWs
