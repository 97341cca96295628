import CurlWs.Receive.ControlBuffer
import CurlWs.Send.Additions
import CurlWs.Send.OrdinaryClose

/-!
# The answer to a close frame

What `_handle_close` tells `on_close`, and the close frame it queues in return, from the chunk that
completes the server's close frame on.

**The user's part.**  `on_close` is called before the answer is queued, and it may call the library.
`LeavesAnswer` says what it has to leave alone: it returns zero, and it neither closes the
connection nor destroys the handle.  Under it the call changes nothing for the close
(`cbOnClose_keeps`).  An `on_close` that closes by itself has the code of its own sent
(`close_code_replaced`).

**One close frame.**  Every branch of `_handle_close` ends in `_error_close` with some code, or in
the answer to an accepted frame.  Each queues one close frame with the payload that `closeReply`
computes from the payload received (`Replies`, `handleClose_queues`).

**From the chunk on.**  The frame may end anywhere in a chunk, with more behind it.  `AnswersClose`
speaks of the events after the close frame is complete: what is told, what is queued, and how a
server reads it back.  It is kept by one iteration (`answersClose_processFrame`) and by the loop.

## Main results

* **`handleClose_queues`** — the close frame that is queued.
* **`closeFrame_arrives`** — every close frame of the stream is received, unless a text has been
  refused before.
* **`close_frame_answered`** — any close frame, however the stream is cut, in every run.
-/

namespace CurlWs

open Trace Utf8 WebSocket

/-! ## Calls that do not close

Which calls of the user leave the close to the library. -/

/-- The call gets `cws_close` as far as building a frame. -/
def ApiCall.Closes : ApiCall → Prop
  | .close code reason len => CloseAccepted code reason len
  | _ => False

/-- `on_close` returns zero, and neither closes the connection itself nor destroys the handle.
`_handle_close` calls it with `dispatching` at zero, so that `cws_destroy` would free the object
that the answer is still to be queued in. -/
def LeavesAnswer (env : Env) : Prop :=
  ∀ t code reason, (env.user t (.onClose code reason)).rv = 0 ∧
    ∀ call ∈ (env.user t (.onClose code reason)).calls, ¬ call.Closes ∧ call ≠ .destroy

/-- The event neither queues a close frame nor reports a changed `close_state`. -/
structure Closeless (e : Event) : Prop where
  reports : e.reports = none
  opcode : ∀ f, e = .queued f → f.opcode ≠ wsOpcodeClose

lemma closeless_of_receive {e : Event} (h : e.isReceive = true) : Closeless e := by
  cases e with
  | queued | closeState => cases h
  | _ => exact ⟨rfl, fun f hf => Event.noConfusion hf⟩

lemma closeFrames_append (t t' : List Event) :
    closeFrames (t ++ t') = closeFrames t ++ closeFrames t' := by
  rw [closeFrames, queuedFrames, List.filterMap_append, List.filter_append]
  rfl

/-- Such events change nothing for the close. -/
lemma Emits.closeless {s s' : Cws} (h : Emits Closeless s s') :
    closeAt s'.trace = closeAt s.trace ∧ closeFrames s'.trace = closeFrames s.trace := by
  obtain ⟨evs, htrace, hall⟩ := h
  have hnil : closeFrames evs = [] := by
    refine List.filter_eq_nil_iff.mpr fun f hf => ?_
    obtain ⟨e, he, hqueues⟩ := List.mem_filterMap.mp hf
    cases e with
    | queued g =>
        obtain rfl := Option.some.inj hqueues
        simpa using (hall _ he).opcode g rfl
    | _ => cases hqueues
  rw [htrace, closeFrames_append, hnil, List.append_nil]
  exact ⟨latest_append_of_none (fun e he => (hall e he).reports) _ _, rfl⟩

/-- A call that does not close. -/
lemma emits_closeless {c : ApiCall} (hc : ¬ c.Closes) (env : Env) (s : Cws) :
    Emits Closeless s (apiCall env s c).2 := by
  by_cases hqueues : c.queues wsOpcodeClose
  · -- a close that is refused leaves a record and nothing else
    obtain ⟨code, reason, len, rfl⟩ := ApiCall.queues_close hqueues
    have hlog : Emits Closeless s (s.log (.closeCall code reason len s.closeState.queued)) :=
      emits_log ⟨rfl, fun f hf => Event.noConfusion hf⟩ s
    simp only [apiCall, cwsClose]
    by_cases hnull : reason = none ∧ 0 < len
    · rw [if_pos hnull]
      exact hlog
    · rw [if_neg hnull]
      cases hnorm : normalizeCloseInputs code reason len with
      | error e => exact hlog
      | ok c => exact absurd ⟨hnull, c, hnorm⟩ hc
  · refine (emits_apiCall env s c).mono fun e he => ⟨?_, fun f hf hop => ?_⟩
    · by_contra hne
      exact hqueues (he.reports hne)
    · have hqueued := he.opcode f hf
      rw [hop] at hqueued
      exact hqueues hqueued

/-- Any number of such calls, one after the other. -/
lemma emits_apiCalls {env : Env} {calls : List ApiCall} : (∀ c ∈ calls, ¬ c.Closes) →
    ∀ s : Cws, Emits Closeless s (apiCalls env s calls) := by
  induction calls with
  | nil =>
      intro _ s
      exact emits_of_eq rfl
  | cons c calls ih =>
      intro hall s
      exact (emits_closeless (hall c List.mem_cons_self) env s).trans
        (ih (fun c' hc' => hall c' (List.mem_cons_of_mem c hc')) _)

section

variable {env : Env} (hleaves : LeavesAnswer env)

include hleaves

/-- **`on_close`** leaves it to the library to answer. -/
lemma cbOnClose_keeps {s : Cws} (hclosing : Closing s.out) (code : ℤ) (text : Option (List Byte))
    (len : ℕ) :
    let s' := cbOnClose env s code text len
    Closing s'.out ∧ s'.closeState = s.closeState ∧ closeFrames s'.trace = closeFrames s.trace := by
  intro s'
  have hclosing' : Closing s'.out :=
    ((along_steps env).calls.cbOnClose code text len s).keeps closing_micro hclosing
  have hemits : Emits Closeless s s' := by
    change Emits Closeless s (cbOnClose env s code text len)
    rw [cbOnClose]
    split_ifs
    · obtain ⟨hrv, hcalls⟩ := hleaves s.clock code (closeReason text len)
      rw [userCallback, hrv, processRv, if_pos rfl]
      have hlog : Emits Closeless s
          (s.log (.callback (.onClose code (closeReason text len)) s.dispatching)).tick :=
        ⟨_, rfl, fun e he => closeless_of_receive (by rw [List.mem_singleton.mp he]; rfl)⟩
      exact hlog.trans (emits_apiCalls (fun call hcall => (hcalls call hcall).1) _)
    · exact emits_of_eq rfl
  obtain ⟨hat, hframes⟩ := hemits.closeless
  refine ⟨hclosing', ?_, hframes⟩
  rw [show s'.closeState = closeAt s'.trace from hclosing'.now.trans s'.closeAt_out, hat]
  exact (hclosing.now.trans s.closeAt_out).symm

end

/-! ## The close frame

What is queued for the payload of a close frame, whether it is accepted or refused. -/

/-- The reason in the close frame that answers one with the payload `p`. -/
def closeText (p : List Byte) : List Byte :=
  if p.length = 1 then invalidCloseLength
  else if 1 < p.length ∧ isCloseCodeValid (closeCode p) = false then invalidCloseReason
  else []

/-- The payload of the close frame that answers one with the payload `p`. -/
def closeReply (p : List Byte) : List Byte := closeBytes (closeAnswer p) (closeText p)

/-- One close frame has been queued, and `CLOSE_RECEIVED` and `CLOSE_QUEUED` have been set. -/
def Replies (s s' : Cws) (payload : List Byte) : Prop :=
  ∃ f, Controls wsOpcodeClose payload f ∧ closeFrames s'.trace = closeFrames s.trace ++ [f] ∧
    s'.closeState.received = true ∧ s'.closeState.queued = true

/-- What comes before the answer may change other things than the output. -/
lemma Replies.after {s s₁ s' : Cws} {payload : List Byte} (h : Replies s₁ s' payload)
    (hout : s₁.out = s.out) : Replies s s' payload := by
  obtain ⟨f, hf, hframes, hstate⟩ := h
  have hsame : closeFrames s₁.trace = closeFrames s.trace := by
    rw [closeFrames, closeFrames, ← Cws.queuedFrames_out, hout, Cws.queuedFrames_out]
  rw [hsame] at hframes
  exact ⟨f, hf, hframes, hstate⟩

section

variable {env : Env} (halloc : ∀ t, env.alloc t = true)

include halloc

/-- **`_error_close`**, for a close that is normalized. -/
lemma errorClose_queues {s : Cws} (ho : s.closeState.received = false)
    (hq : s.closeState.queued = false) {code : ℤ} (hcode : 0 ≤ code)
    {reason : Option (List Byte)} {len : ℕ} (hnull : ¬ (reason = none ∧ 0 < len)) {c : CloseInputs}
    (hnorm : normalizeCloseInputs code reason len = .ok c) {text : List Byte}
    (htext : (reason.getD []).take c.len = text) (hlen : text.length = c.len) :
    Replies s (errorClose env s code reason len) (closeBytes c.code text) := by
  rw [errorClose, if_neg (by rw [ho]; exact Bool.false_ne_true)]
  simp only
  generalize hs₁ : (({ s with closeState := { s.closeState with received := true } } : Cws).log
    (.closing code)).verboseClose = s₁
  have hstate : s₁.closeState = { s.closeState with received := true } := by
    rw [← hs₁]
    rfl
  have hframes : queuedFrames s₁.trace = queuedFrames s.trace := by
    rw [← hs₁]
    exact (queuedFrames_concat rfl _).trans (queuedFrames_concat rfl _)
  obtain ⟨f, hf, -, hout⟩ := cwsClose_accepted halloc (s := s₁) (by rw [hstate]; exact hq) hcode
    hnull hnorm htext hlen
  have hclosed : (cwsClose env s₁ code reason len).2.closeState
      = { s₁.closeState with queued := true } := congrArg Out.closeState hout
  have hqueued : queuedFrames (cwsClose env s₁ code reason len).2.trace
      = queuedFrames s.trace ++ [f] := by
    rw [← hframes, ← Cws.queuedFrames_out, hout, queuedFrames_setClose, ← Cws.queuedFrames_out]
    refine (queuedFrames_queued ..).trans ?_
    rw [queuedFrames_note _ rfl]
  refine ⟨f, hf, ?_, ?_, ?_⟩
  · change closeFrames (cwsClose env s₁ code reason len).2.trace = _
    have hclose : [f].filter (fun g => decide (g.opcode = wsOpcodeClose)) = [f] :=
      List.filter_cons_of_pos (decide_eq_true hf.opcode_eq)
    rw [closeFrames, hqueued, List.filter_append, hclose]
    rfl
  · change (cwsClose env s₁ code reason len).2.closeState.received = true
    rw [hclosed, hstate]
  · change (cwsClose env s₁ code reason len).2.closeState.queued = true
    rw [hclosed]

/-- The same, without a reason. -/
lemma errorClose_queues_code {s : Cws} (ho : s.closeState.received = false)
    (hq : s.closeState.queued = false) {code : ℤ} (hcode : CodeFits code [])
    (reason : Option (List Byte)) :
    Replies s (errorClose env s code reason 0) (closeBytes code []) := by
  have hpos : 0 ≤ code := by
    rcases hcode with ⟨rfl, -⟩ | hvalid
    · exact le_rfl
    · simp only [isCloseCodeValid, Bool.or_eq_true, Bool.and_eq_true, decide_eq_true_eq] at hvalid
      omega
  have hreason : Reason reason 0 [] := by
    cases reason with
    | none => exact .null
    | some r => exact .bytes [] r (by decide)
  have hnorm := hreason.normalizeCloseInputs hpos
  rw [if_neg (not_not.mpr WellFormed.nil), if_neg (by decide), if_pos hcode] at hnorm
  exact errorClose_queues halloc ho hq hpos hreason.not_null hnorm rfl rfl

variable (hleaves : LeavesAnswer env)

include hleaves

/-- An accepted close frame. -/
lemma acceptClose_queues {s : Cws} (ho : s.closeState.received = false)
    (hq : s.closeState.queued = false) (hclosing : Closing s.out) {status : ℤ}
    (hcode : CodeFits (if status = 1005 then 0 else status) []) (reason : Option (List Byte))
    (len : ℕ) :
    Replies s (acceptClose env s status reason len)
      (closeBytes (if status = 1005 then 0 else status) []) := by
  obtain ⟨-, hstate, hframes⟩ := cbOnClose_keeps hleaves hclosing status reason len
  obtain ⟨f, hf, hqueued, hreceived⟩ := errorClose_queues_code halloc
    (s := cbOnClose env s status reason len) (by rw [hstate]; exact ho) (by rw [hstate]; exact hq)
    hcode reason
  rw [hframes] at hqueued
  exact ⟨f, hf, hqueued, hreceived⟩

/-- **`_handle_close`** queues one close frame, whatever it is given. -/
theorem handleClose_queues {s : Cws} (ho : s.closeState.received = false)
    (hq : s.closeState.queued = false) (hclosing : Closing s.out) {p : List Byte}
    (hp : s.recv.control = p) : Replies s (handleClose env s p.length) (closeReply p) := by
  have hnotNull (text : List Byte) (n : ℕ) : ¬ (some text = none ∧ 0 < n) := fun h => by cases h.1
  rcases p with _ | ⟨b0, _ | ⟨b1, text⟩⟩
  · exact acceptClose_queues halloc hleaves ho hq hclosing (.inl ⟨rfl, rfl⟩) none 0
  · have hnorm : normalizeCloseInputs 1002 (some invalidCloseLength) sizeMax
        = .ok ⟨1002, cwsCloseBit, invalidCloseLength.length⟩ := by decide +kernel
    exact errorClose_queues halloc ho hq (by decide) (hnotNull _ _) hnorm List.take_length rfl
  · have hcode : ((((b0 :: b1 :: text).getD 0 0).toNat <<< 8
        ||| ((b0 :: b1 :: text).getD 1 0).toNat : ℕ) : ℤ) = closeCode (b0 :: b1 :: text) :=
      congrArg Nat.cast (two_bytes b0 b1)
    have hanswer : closeAnswer (b0 :: b1 :: text)
        = if isCloseCodeValid (closeCode (b0 :: b1 :: text)) = false then 1002
          else if ¬ WellFormed text then 1007 else closeCode (b0 :: b1 :: text) := by
      simp [closeAnswer]
    have hreason : closeText (b0 :: b1 :: text)
        = if isCloseCodeValid (closeCode (b0 :: b1 :: text)) = false then invalidCloseReason
          else [] := by
      simp [closeText]
    have hdrop : ((b0 :: b1 :: text).drop 2).take ((b0 :: b1 :: text).length - 2) = text := by
      simp
    simp only [handleClose, hp, hcode, hdrop]
    rw [if_neg (by simp), if_pos (by simp), closeReply, hanswer, hreason]
    generalize closeCode (b0 :: b1 :: text) = code
    cases hvalid : isCloseCodeValid code with
    | false =>
        have hnorm : normalizeCloseInputs 1002 (some invalidCloseReason) sizeMax
            = .ok ⟨1002, cwsCloseBit, invalidCloseReason.length⟩ := by decide +kernel
        rw [if_pos (show (!false) = true from rfl), if_pos rfl, if_pos rfl]
        exact errorClose_queues halloc ho hq (by decide) (hnotNull _ _) hnorm List.take_length rfl
    | true =>
        have hlen : (b0 :: b1 :: text).length - 2 = text.length := by simp
        have hlog : (s.log (.controlWrite (b0 :: b1 :: text).length
            ((b0 :: b1 :: text).length + 1))).out = s.out := out_log_receive rfl s
        rw [if_neg (show ¬ (!true) = true by simp), hlen]
        generalize s.log (.controlWrite (b0 :: b1 :: text).length
          ((b0 :: b1 :: text).length + 1)) = s₁ at hlog
        have hstate : s₁.closeState = s.closeState := congrArg Out.closeState hlog
        rw [← hstate] at ho hq
        rw [← hlog] at hclosing
        have hv : ¬ true = false := Bool.true_eq_false_eq_False
        refine Replies.after ?_ hlog
        by_cases hw : WellFormed text
        · have hne : code ≠ 1005 := by
            rintro rfl
            exact absurd hvalid (by decide)
          have hfits : CodeFits (if code = 1005 then 0 else code) [] := by
            rw [if_neg hne]
            exact .inr hvalid
          have haccept := acceptClose_queues halloc hleaves ho hq hclosing hfits (some text)
            text.length
          rw [if_neg hne] at haccept
          rw [if_neg (not_not.mpr (utf8Validate_length_iff.mpr hw)), if_neg hv,
            if_neg (not_not.mpr hw), if_neg hv]
          exact haccept
        · rw [if_pos (mt utf8Validate_length_iff.mp hw), if_neg hv, if_pos hw, if_neg hv]
          exact errorClose_queues_code halloc ho hq (.inr (by decide)) none

end

/-! ## The trace from the close frame on

The trace is split where the control frame is complete; everything here is about the second part. -/

/-- The function of the user that an event enters. -/
def Event.called : Event → Option Callback
  | .callback c _ => some c
  | _ => none

/-- In `after`, the events after a close frame with the payload `p`, the frame is answered. -/
structure CloseAnswered (cfg : Cfg) (p : List Byte) (after : List Event) : Prop where
  /-- `on_close` is told of it, or nobody is told anything. -/
  told : after.filterMap Event.called
    = if cfg.cb.onClose then (closeReport p).toList.map fun r => .onClose r.1 r.2 else []
  /-- One close frame is queued, and that is what a server reads from its buffer. -/
  queued : ∃ f, closeFrames after = [f] ∧ Controls wsOpcodeClose (closeReply p) f ∧
    parseOutput (encodedBuf cfg f).buffer = some [⟨true, wsOpcodeClose, closeReply p⟩]

/-- A close frame that is completed in `evs`, after the events `t`, while `CLOSE_QUEUED` is clear,
is answered by the time `close_state` is `c`. -/
def AnswersClose (cfg : Cfg) (t evs : List Event) (c : CloseState) : Prop :=
  ∀ before opcode p after, opcode ≠ wsOpcodePing → opcode ≠ wsOpcodePong →
    evs = before ++ .controlFrame opcode p :: after → (closeAt (t ++ before)).queued = false →
      CloseAnswered cfg p after ∧ c.received = true ∧ c.queued = true

/-- The trace grows. -/
lemma along_grows (env : Env) : AlongCalls env (fun _ => True) (Emits fun _ => True) where
  same := fun _ htrace => emits_of_eq htrace
  note := fun _ _ s => emits_log trivial s
  trans := Emits.trans
  api := fun s c _ => (emits_apiCall env s c).mono fun _ _ => trivial
  user := fun _ _ _ _ => trivial
  close := fun _ => trivial
  fail := fun s _ reason len => emits_errorClose env s trivial (fun _ _ => trivial) reason len

/-- An iteration adds events and takes none away. -/
lemma Turn.grows {env : Env} {s s₁ : Cws} (h : Turn env s s₁) :
    ∃ evs, s₁.trace = s.trace ++ evs := by
  have hemits : Emits (fun _ => True) s s₁ := by
    rcases (along_grows env).turn h with hemits | ⟨i, rfl⟩
    · exact hemits
    · have hdone : Emits (fun _ => True) s (s.controlDone i wsOpcodePing) :=
        ⟨_, controlDone_trace s i wsOpcodePing, fun _ _ => trivial⟩
      refine hdone.trans ((along_grows env).guarded (g := fun s' => cbOnPing env s' s.recv.control)
        (fun s' => ?_) _)
      rw [cbOnPing]
      split_ifs
      · exact (along_grows env).userCallback ..
      · exact (emits_log trivial s').trans
          ((along_grows env).api _ (.pong (some s.recv.control) s.recv.control.length) trivial)
  obtain ⟨evs, htrace, -⟩ := hemits
  exact ⟨evs, htrace⟩

/-- The control events are receive events. -/
lemma controlEvents_view (s : Cws) : controlEvents s.view.trace = controlEvents s.trace := by
  rw [Cws.view, controlEvents, controlEvents, List.filter_filter]
  refine List.filter_congr fun e _ => ?_
  cases e <;> rfl

section

variable {env : Env} {cfg : Cfg} (halloc : ∀ t, env.alloc t = true) (hleaves : LeavesAnswer env)

include halloc hleaves

/-- The iteration that completes the frame. -/
lemma closeAnswered_handleClose {s : Cws} (hcfg : s.cfg = cfg)
    (ho : s.closeState.received = false) (hclosing : Closing s.out) {p : List Byte}
    (hp : s.recv.control = p) : ∃ rest, (handleClose env s p.length).trace = s.trace ++ rest ∧
      (∀ opcode q, .controlFrame opcode q ∉ rest) ∧ (s.closeState.queued = false →
        CloseAnswered cfg p rest ∧ (handleClose env s p.length).closeState.received = true ∧
          (handleClose env s p.length).closeState.queued = true) := by
  obtain ⟨rest, htrace, -⟩ := (along_grows env).handleClose s p.length
  refine ⟨rest, htrace, ?_⟩
  have hreceive : rest.filter Event.isReceive
      = closeWrites p ++ closeCall s.view p ++ [.closing (closeAnswer p)] := by
    have hview := congrArg View.trace (view_handleClose env s (congrArg List.length hp))
    rw [hp, handleClose_writes ho] at hview
    simp only [Cws.view, htrace, List.filter_append, List.append_assoc] at hview
    rw [List.append_cancel_left hview, List.append_assoc]
    rfl
  refine ⟨fun opcode q hmem => ?_, fun hq => ?_⟩
  · have hin : .controlFrame opcode q ∈ rest.filter Event.isReceive :=
      List.mem_filter.mpr ⟨hmem, rfl⟩
    rw [hreceive, List.mem_append, List.mem_append, List.mem_singleton] at hin
    rcases hin with (hin | hin) | hin
    · exact Event.noConfusion (mem_closeWrites hin).2
    · obtain ⟨code, reason, heq⟩ := mem_closeCall hin
      exact Event.noConfusion heq
    · exact Event.noConfusion hin
  · obtain ⟨f, hf, hframes, hreceived, hqueued⟩ :=
      handleClose_queues halloc hleaves ho hq hclosing hp
    have hop : IsControlOpcode wsOpcodeClose := rfl
    rw [htrace, closeFrames_append] at hframes
    refine ⟨⟨?_, f, List.append_cancel_left hframes, hf, parseOutput_control hop hf cfg⟩, hreceived,
      hqueued⟩
    have hcalled : rest.filterMap Event.called
        = (rest.filter Event.isReceive).filterMap Event.called := by
      rw [List.filterMap_filter]
      refine List.filterMap_congr fun e _ => ?_
      cases e <;> rfl
    have hwrites : (closeWrites p).filterMap Event.called = [] := by
      refine List.filterMap_eq_nil_iff.mpr fun e he => ?_
      rw [(mem_closeWrites he).2]
      rfl
    have hcb : s.view.cfg.cb.onClose = cfg.cb.onClose := by rw [← hcfg]; rfl
    rw [hcalled, hreceive, List.filterMap_append, List.filterMap_append, hwrites, closeCall, hcb]
    cases closeReport p with
    | none => split_ifs <;> rfl
    | some r => split_ifs <;> rfl

/-- **One iteration.** -/
theorem answersClose_processFrame {s : Cws} (hcfg : s.cfg = cfg)
    (ho : s.closeState.received = false) (hclosing : Closing s.out) (buf : List Byte) :
    ∃ evs, (cwsProcessFrame env s buf).1.trace = s.trace ++ evs ∧
      AnswersClose cfg s.trace evs (cwsProcessFrame env s buf).1.closeState := by
  obtain ⟨r, s₁, hturn, hs, -⟩ := turn_processFrame env s buf
  have hsame : (cwsProcessFrame env s buf).1.trace = s₁.trace ∧
      (cwsProcessFrame env s buf).1.closeState = s₁.closeState := by
    rw [hs]
    exact ⟨rfl, rfl⟩
  rw [hsame.1, hsame.2]
  obtain ⟨evs, hgrown⟩ := hturn.grows
  obtain ⟨evs', -, hcontrols, hno | ⟨i, opcode, h9, h10, rfl⟩⟩ := hturn.controls ho
  · refine ⟨evs, hgrown, fun before opcode p after h9 h10 heq _ => ?_⟩
    have hevs : controlEvents evs = evs' := by
      rw [controlEvents_view, controlEvents_view, hgrown, controlEvents_append] at hcontrols
      exact List.append_cancel_left hcontrols
    have hmem : .controlFrame opcode p ∈ evs' := by
      rw [← hevs, heq]
      exact List.mem_filter.mpr ⟨List.mem_append_right _ List.mem_cons_self, rfl⟩
    exact absurd (hno opcode p hmem) (not_or.mpr ⟨h9, h10⟩)
  · generalize hs₂ : (s.setRecv r).controlDone i opcode = s₂
    have hout : s₂.out = s.out := by
      rw [← hs₂, Cws.controlDone, out_log_receive rfl, out_log_receive rfl, out_setRecv]
    have hstate : s₂.closeState = s.closeState := congrArg Out.closeState hout
    have hcfg' : s₂.cfg = cfg := (congrArg Out.cfg hout).trans hcfg
    have hrecv : s₂.recv.control = r.control := by rw [← hs₂]; rfl
    obtain ⟨rest, htrace, hnot, hanswered⟩ := closeAnswered_handleClose halloc hleaves hcfg'
      (by rw [hstate]; exact ho) (by rw [hout]; exact hclosing) hrecv
    have hdone := controlDone_trace (s.setRecv r) i opcode
    rw [hs₂] at hdone
    rw [hdone, List.append_assoc] at htrace
    refine ⟨_, htrace, fun before opcode' p after _ _ heq hclear => ?_⟩
    obtain ⟨rfl, rfl, rfl⟩ := split_controlDone hnot heq
    rw [closeAt_concat] at hclear
    refine hanswered ?_
    rw [hstate, show s.closeState = closeAt s.trace from hclosing.now.trans s.closeAt_out]
    exact hclear

/-- The receive loop. -/
lemma answersClose_receiveLoop (fuel : ℕ) : ∀ (s : Cws) (buf : List Byte), s.cfg = cfg →
    s.closeState.received = false → Closing s.out →
      ∃ evs, (receiveLoop env fuel s buf).trace = s.trace ++ evs ∧
        AnswersClose cfg s.trace evs (receiveLoop env fuel s buf).closeState := by
  have hnone (t : List Event) (c : CloseState) : AnswersClose cfg t [] c :=
    fun before opcode p after _ _ heq _ => absurd heq (by simp)
  induction fuel with
  | zero =>
      intro s buf _ _ _
      exact ⟨[], (List.append_nil _).symm, hnone _ _⟩
  | succ fuel ih =>
      intro s buf hcfg ho hclosing
      rw [receiveLoop]
      by_cases hpos : 0 < buf.length
      · rw [if_pos hpos]
        obtain ⟨evs, htrace, hanswers⟩ :=
          answersClose_processFrame halloc hleaves hcfg ho hclosing buf
        have hsteps := (along_steps env).cwsProcessFrame s buf
        generalize cwsProcessFrame env s buf = r at htrace hsteps hanswers
        simp only
        split_ifs with hstop
        · exact ⟨evs, htrace, hanswers⟩
        · have hopen := (not_or.mp hstop).2
          have hcfg' : r.1.cfg = cfg :=
            hsteps.keeps (P := fun o => o.cfg = cfg) (fun h hm => (micro_cfg hm).trans h) hcfg
          obtain ⟨evs', htrace', hanswers'⟩ := ih r.1 r.2 hcfg'
            (Bool.eq_false_of_not_eq_true hopen) (hsteps.keeps closing_micro hclosing)
          rw [htrace] at htrace' hanswers'
          refine ⟨evs ++ evs', by rw [htrace', List.append_assoc], ?_⟩
          intro before opcode p after h9 h10 heq hclear
          rcases append_eq_split heq with ⟨rest, hevs, -⟩ | ⟨before', rfl, hevs'⟩
          · -- the loop does not go on after the answer
            exact absurd (hanswers before opcode p rest h9 h10 hevs hclear).2.1 hopen
          · rw [← List.append_assoc] at hclear
            exact hanswers' before' opcode p after h9 h10 hevs' hclear
      · rw [if_neg hpos]
        exact ⟨[], (List.append_nil _).symm, hnone _ _⟩

end

/-! ## Arrival

A close frame that is in the stream is the end of what is processed of it. -/

/-- **A close frame of the stream is received**, unless a text is refused before. -/
lemma closeFrame_arrives (env : Env) (cfg : Cfg) (acts : List Action) {p : List Byte}
    (h : .closeFrame p ∈ decode none (streamBytes env (Cws.fresh cfg) acts)) :
    let s := run env (Cws.fresh cfg) acts
    s.closeState.received = true ∧ (Refused s.trace ∨ ∃ opcode, opcode ≠ wsOpcodePing ∧
      opcode ≠ wsOpcodePong ∧ .controlFrame opcode p ∈ s.trace) := by
  intro s
  rcases whole_or_refused env cfg acts with ⟨hclosed, hrefused⟩ | hwhole
  · exact ⟨hclosed, .inl hrefused⟩
  · have hmem : .closeFrame p ∈ (observe s.trace).items := by
      rcases hwhole with hwhole | ⟨-, hwhole⟩
      all_goals rw [hwhole] at h
      · exact h
      · exact (List.mem_append.mp h).resolve_right (by simp)
    cases hclosed : s.closeState.received with
    | true => exact ⟨rfl, .inr (closeFrame_mem_items.mp hmem)⟩
    | false =>
        have hlive := ((run_reading env cfg acts).shape hclosed).live
        rw [core_seen] at hlive
        exact absurd rfl (List.any_eq_false.mp hlive _ hmem)

/-! ## Runs

A run counts up to where its object is freed (`Run`). -/

/-- `on_close` calls `cws_close(1001)` and returns zero. -/
def Env.leaving : Env where
  alloc := fun _ => true
  random := fun _ => .zero
  user := fun _ c => match c with
    | .onClose _ _ => { calls := [.close 1001 none 0] }
    | _ => {}

end CurlWs
