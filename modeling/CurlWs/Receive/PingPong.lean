import CurlWs.Receive.ControlBuffer
import CurlWs.Send.Additions
import CurlWs.Send.OrdinaryClose

/-!
# Pings and pongs

`_default_on_ping` answers a ping from inside the receive path.  The answers are looked for in the
trace, where each comes right after the ping it belongs to.

**Two lists.**  `pings` are the pings the receive path has completed, `pongs` the pong frames that
have been queued.  Only a ping that is completed while `CLOSE_QUEUED` is clear has to be answered
(`openPings`); whether it is clear is read off the trace, as the last report before the ping.

**Answered.**  `Answered` has two parts.  A ping is followed at once by its pong, with its payload
and in a frame that a server reads as such (`Answers`); and unless the application calls `cws_pong`
itself, the pongs are these, in the order of the pings.  Events that have nothing to do with pings
keep both (`answered_unrelated`), and the parts of a trace are put together (`Answered.append`).

**Arrival.**  The pings that are completed are those of the stream, as the reference reads it.  None
is left out unless a text has been refused before, after which the code processes nothing more
(`pings_arrive`).

## Main results

* **`answered_processFrame`** — one iteration.
* **`pings_answered`** — any chunk, in every state of every run.
-/

namespace CurlWs

open Trace WebSocket

/-! ## Pings and pongs of a trace

What is to be answered, and what answers it. -/

/-- The payload of the ping that an event completes. -/
def Event.pinged : Event → Option (List Byte)
  | .controlFrame opcode p => if opcode = wsOpcodePing then some p else none
  | _ => none

/-- The pings the receive path has completed. -/
def pings (trace : List Event) : List (List Byte) := trace.filterMap Event.pinged

/-- The pongs that have been queued. -/
def pongs (trace : List Event) : List CwsFrame :=
  (queuedFrames trace).filter fun f => f.opcode = wsOpcodePong

/-- The pings of a stream. -/
def pingsIn (its : List Item) : List (List Byte) :=
  its.filterMap fun
    | .ping p => some p
    | _ => none

/-- The pings that are completed in `evs`, after the events `t`, while `CLOSE_QUEUED` is clear. -/
def openPings : List Event → List Event → List (List Byte)
  | _, [] => []
  | t, e :: evs =>
      (if (closeAt t).queued then [] else e.pinged.toList) ++ openPings (t ++ [e]) evs

/-- The frame is a pong with the payload `p`, and that is what a server reads from its buffer. -/
structure Answers (cfg : Cfg) (p : List Byte) (f : CwsFrame) : Prop where
  controls : Controls wsOpcodePong p f
  parsed : parseOutput (encodedBuf cfg f).buffer = some [⟨true, wsOpcodePong, p⟩]

/-- The user functions do not call `cws_pong` themselves. -/
def NoPongs (env : Env) : Prop := ∀ t c data len, .pong data len ∉ (env.user t c).calls

/-- In `evs`, after the events `t`, the pings are answered. -/
structure Answered (env : Env) (cfg : Cfg) (t evs : List Event) : Prop where
  /-- A ping is followed at once by its answer. -/
  atOnce : ∀ before p after, evs = before ++ .controlFrame wsOpcodePing p :: after →
    (closeAt (t ++ before)).queued = false →
      ∃ d f more, after = .callback (.onPing p) d :: .queued f :: more ∧ Answers cfg p f
  /-- There is no other pong. -/
  only : NoPongs env → List.Forall₂ (Answers cfg) (openPings t evs) (pongs evs)

lemma pongs_append (x y : List Event) : pongs (x ++ y) = pongs x ++ pongs y := by
  rw [pongs, queuedFrames, List.filterMap_append, List.filter_append]
  rfl

/-- The pings of the second part are judged after the first. -/
lemma openPings_append (x : List Event) : ∀ t y : List Event,
    openPings t (x ++ y) = openPings t x ++ openPings (t ++ x) y := by
  induction x with
  | nil =>
      intro t y
      rw [List.append_nil]
      rfl
  | cons e x ih =>
      intro t y
      simp only [List.cons_append, openPings, ih, List.append_assoc, List.nil_append]

lemma Answered.append {env : Env} {cfg : Cfg} {t x y : List Event} (hx : Answered env cfg t x)
    (hy : Answered env cfg (t ++ x) y) : Answered env cfg t (x ++ y) := by
  refine ⟨fun before p after heq hopen => ?_, fun hno => ?_⟩
  · rcases append_eq_split heq with ⟨rest, hx', rfl⟩ | ⟨before', rfl, hy'⟩
    · obtain ⟨d, f, more, rfl, hf⟩ := hx.atOnce before p rest hx' hopen
      exact ⟨d, f, more ++ y, rfl, hf⟩
    · rw [← List.append_assoc] at hopen
      exact hy.atOnce before' p after hy' hopen
  · rw [openPings_append, pongs_append]
    exact List.rel_append (hx.only hno) (hy.only hno)

/-- An event that has nothing to do with pings: neither is a ping completed, nor is a pong queued
by anything but a call of a user function. -/
def Unrelated (env : Env) (e : Event) : Prop :=
  (∀ p, e ≠ .controlFrame wsOpcodePing p) ∧
    (NoPongs env → ∀ f, e = .queued f → f.opcode ≠ wsOpcodePong)

/-- Where nothing is pinged, nothing is to be answered. -/
lemma answered_unrelated {env : Env} (cfg : Cfg) {evs : List Event}
    (h : ∀ e ∈ evs, Unrelated env e) (t : List Event) : Answered env cfg t evs := by
  refine ⟨fun before p after heq _ => ?_, fun hno => ?_⟩
  · have hmem : .controlFrame wsOpcodePing p ∈ evs := by
      rw [heq]
      exact List.mem_append_right _ List.mem_cons_self
    exact absurd rfl ((h _ hmem).1 p)
  · have hpongs : pongs evs = [] := by
      refine List.filter_eq_nil_iff.mpr fun f hf => ?_
      obtain ⟨e, he, hqueues⟩ := List.mem_filterMap.mp hf
      cases e with
      | queued g =>
          obtain rfl := Option.some.inj hqueues
          simpa using (h _ he).2 hno g rfl
      | _ => cases hqueues
    have hpings : ∀ (evs : List Event), (∀ e ∈ evs, Unrelated env e) → ∀ t,
        openPings t evs = [] := by
      intro evs
      induction evs with
      | nil =>
          intro _ t
          rfl
      | cons e evs ih =>
          intro hall t
          have hnone : e.pinged = none := by
            cases e with
            | controlFrame opcode p =>
                refine if_neg ?_
                rintro rfl
                exact (hall _ List.mem_cons_self).1 p rfl
            | _ => rfl
          rw [openPings, ih (fun e' he' => hall e' (List.mem_cons_of_mem e he')), hnone]
          split_ifs <;> rfl
    rw [hpongs, hpings evs h t]
    exact .nil

/-! ## One iteration

A ping is the only event of an iteration that makes the library queue a pong. -/

/-- Whatever the library does besides answering a ping is unrelated. -/
lemma along_unrelated (env : Env) : AlongCalls env
    (fun c => NoPongs env → ∀ data len, c ≠ .pong data len) (Emits (Unrelated env)) where
  same := fun _ htrace => emits_of_eq htrace
  note := fun he hping s => emits_log ⟨hping, fun _ f hf => by rw [hf] at he; cases he⟩ s
  trans := Emits.trans
  api := fun s c hmade => by
    refine (emits_apiCall env s c).mono fun e he => ⟨fun p hp => ?_, fun hno f hf hpong => ?_⟩
    · rw [hp] at he
      exact Bool.noConfusion he.outgoing
    · have hop := he.opcode f hf
      rw [hpong] at hop
      obtain ⟨data, len, hc⟩ := ApiCall.queues_pong hop
      exact hmade hno data len hc
  user := fun t c call hcall hno data len heq => hno t c data len (heq ▸ hcall)
  close := fun _ _ _ _ heq => ApiCall.noConfusion heq
  fail := fun s code reason len => by
    refine emits_errorClose env s ⟨fun p hp => Event.noConfusion hp, fun _ f hf =>
      Event.noConfusion hf⟩ (fun e he => ⟨fun p hp => ?_, fun _ f hf hpong => ?_⟩) reason len
    · rw [hp] at he
      exact Bool.noConfusion he.outgoing
    · exact absurd ((he.opcode f hf).symm.trans hpong) (by decide)

section

variable {env : Env} {cfg : Cfg} (halloc : ∀ t, env.alloc t = true)
  (hping : cfg.cb.onPing = false)

include halloc hping

omit halloc in
/-- The default handler. -/
lemma cbOnPing_default {s : Cws} (hcfg : s.cfg = cfg) (p : List Byte) :
    cbOnPing env s p = (frameSenderControl env (s.log (.callback (.onPing p) s.dispatching)) cwsPongBit
      (some p) p.length).2 := by
  have hnot : ¬ s.cfg.cb.onPing = true := by
    rw [hcfg, hping]
    exact Bool.false_ne_true
  rw [cbOnPing, if_neg hnot]
  rfl

/-- **A ping is answered** by the default handler. -/
lemma answered_ping {s : Cws} (hcfg : s.cfg = cfg) (hnow : s.closeState = closeAt s.trace)
    (hlen : s.recv.control.length ≤ wsCtlPayloadMax) (i : ℕ) :
    ∃ evs, (cbOnPing env (s.controlDone i wsOpcodePing).enterDispatch s.recv.control).trace
      = s.trace ++ evs ∧ Answered env cfg s.trace evs := by
  have hhandler := @cbOnPing_default env _ hping (s.controlDone i wsOpcodePing).enterDispatch hcfg
    s.recv.control
  generalize hp : s.recv.control = p at hlen hhandler ⊢
  generalize hs₁ : (s.controlDone i wsOpcodePing).enterDispatch.log
    (.callback (.onPing p) (s.controlDone i wsOpcodePing).enterDispatch.dispatching) = s₁ at hhandler
  have hstate : s₁.closeState = s.closeState := by rw [← hs₁]; rfl
  have htrace : s₁.trace = s.trace ++ [.controlWrite i p.length, .controlFrame wsOpcodePing p,
      .callback (.onPing p) (s.dispatching + 1)] := by
    rw [← hs₁, ← hp]
    simp [Cws.controlDone, Cws.log, Cws.enterDispatch]
  have hclose : closeAt (s.trace ++ [.controlWrite i p.length]) = s.closeState := by
    rw [closeAt_concat, hnow]
    rfl
  rw [hhandler]
  cases hq : s.closeState.queued with
  | true =>
      have hrefused : (frameSenderControl env s₁ cwsPongBit (some p) p.length).2 = s₁ := by
        rw [frameSenderControl_eq env s₁ .pong, hstate, if_pos hq]
      rw [hrefused]
      refine ⟨_, htrace, fun before q after heq hopen => ?_, fun _ => ?_⟩
      · obtain ⟨rfl, -, -⟩ := split_controlDone (by simp) heq
        rw [hclose, hq] at hopen
        cases hopen
      · simp only [openPings, hclose, hq, ← hnow, if_true]
        simp [Event.pinged, pongs, queuedFrames, Event.queues]
  | false =>
      have hgiven : givenBytes (some p) p.length = p := List.take_length
      have hread : ∀ d ∈ some p, p.length ≤ d.length := fun d hd => by
        rw [← Option.some_inj.mp hd]
      obtain ⟨f, hf, -, -, hqueued⟩ := out_control halloc (hstate ▸ hq) .pong hread
        (hgiven.symm ▸ hlen)
      rw [hgiven] at hf
      have hop : IsControlOpcode wsOpcodePong := rfl
      have hanswers : Answers cfg p f := ⟨hf, parseOutput_control hop hf cfg⟩
      refine ⟨.controlWrite i p.length :: .controlFrame wsOpcodePing p ::
        .callback (.onPing p) (s.dispatching + 1) :: [.queued f], ?_,
        fun before q after heq _ => ?_, fun _ => ?_⟩
      · rw [hqueued, htrace, List.append_assoc]
        rfl
      · obtain ⟨-, rfl, rfl⟩ := split_controlDone (by simp) heq
        exact ⟨_, f, [], rfl, hanswers⟩
      · have hpings : openPings s.trace [.controlWrite i p.length, .controlFrame wsOpcodePing p,
            .callback (.onPing p) (s.dispatching + 1), .queued f] = [p] := by
          simp [openPings, hclose, hq, ← hnow, Event.pinged]
        have hpongs : pongs [.controlWrite i p.length, .controlFrame wsOpcodePing p,
            .callback (.onPing p) (s.dispatching + 1), .queued f] = [f] :=
          List.filter_cons_of_pos (decide_eq_true hf.opcode_eq)
        rw [hpings, hpongs]
        exact .cons hanswers .nil

/-- **One iteration** answers the ping it completes, if it completes one. -/
theorem answered_processFrame {s : Cws} (hcfg : s.cfg = cfg)
    (hnow : s.closeState = closeAt s.trace) (hfits : s.recv.ControlFits) (buf : List Byte) :
    ∃ evs, (cwsProcessFrame env s buf).1.trace = s.trace ++ evs ∧
      Answered env cfg s.trace evs := by
  obtain ⟨r, s₁, hturn, hs, hlen⟩ := turn_processFrame env s buf
  have htrace : (cwsProcessFrame env s buf).1.trace = s₁.trace := by rw [hs]; rfl
  rw [htrace]
  rcases (along_unrelated env).turn hturn with ⟨evs, hgrown, hall⟩ | ⟨i, rfl⟩
  · exact ⟨evs, hgrown, answered_unrelated cfg hall s.trace⟩
  · exact answered_ping halloc hping (s := s.setRecv r) hcfg hnow (hlen hfits) i

/-! ## Runs

The loop, the chunk, and the stream up to its end.  A run counts up to where its object is freed
(`Run`). -/

/-- The receive loop. -/
lemma answered_receiveLoop (fuel : ℕ) : ∀ (s : Cws) (buf : List Byte), s.cfg = cfg → Ongoing s →
    Closing s.out → ∃ evs, (receiveLoop env fuel s buf).trace = s.trace ++ evs ∧
      Answered env cfg s.trace evs := by
  have hnone (t : List Event) : Answered env cfg t [] :=
    answered_unrelated cfg (fun e he => absurd he List.not_mem_nil) t
  induction fuel with
  | zero =>
      intro s buf _ _ _
      exact ⟨[], (List.append_nil _).symm, hnone _⟩
  | succ fuel ih =>
      intro s buf hcfg hopen hclosing
      rw [receiveLoop]
      by_cases hpos : 0 < buf.length
      · rw [if_pos hpos]
        obtain ⟨evs, htrace, hanswered⟩ := answered_processFrame halloc hping hcfg
          (hclosing.now.trans s.closeAt_out) hopen.2.controlFits buf
        have hsteps := (along_steps env).cwsProcessFrame s buf
        have hnext := iterate_ongoing hopen (List.ne_nil_of_length_pos hpos) env
        generalize cwsProcessFrame env s buf = r at htrace hsteps hnext
        simp only
        split_ifs with hstop
        · exact ⟨evs, htrace, hanswered⟩
        · have hopen' := (hnext.resolve_left (not_or.mp hstop).2).1
          have hcfg' : r.1.cfg = cfg :=
            hsteps.keeps (P := fun o => o.cfg = cfg) (fun h hm => (micro_cfg hm).trans h) hcfg
          obtain ⟨evs', htrace', hanswered'⟩ :=
            ih r.1 r.2 hcfg' hopen' (hsteps.keeps closing_micro hclosing)
          rw [htrace] at htrace' hanswered'
          refine ⟨evs ++ evs', ?_, hanswered.append hanswered'⟩
          rw [htrace', List.append_assoc]
      · rw [if_neg hpos]
        exact ⟨[], (List.append_nil _).symm, hnone _⟩

end

lemma pingsIn_append (x y : List Item) : pingsIn (x ++ y) = pingsIn x ++ pingsIn y :=
  List.filterMap_append

/-- A ping is received when it is complete. -/
lemma pingsIn_record (S : Seen) (e : Event) :
    pingsIn (S.record e).items = pingsIn S.items ++ e.pinged.toList := by
  have hextend (S : Seen) (k : Kind) (d : List Byte) (last : Bool) :
      pingsIn (S.extend k d last).items = pingsIn S.items := by
    cases last with
    | true => exact (pingsIn_append ..).trans (List.append_nil _)
    | false => rfl
  have hnone : pingsIn S.items = pingsIn S.items ++ [] := (List.append_nil _).symm
  cases e with
  | callback c d =>
      cases c with
      | onFragment info buf =>
          simp only [Seen.record, Seen.fragment]
          split_ifs
          · rw [hextend]
            exact pingsIn_append ..
          · cases S.current with
            | none => exact hnone
            | some c => exact (hextend ..).trans hnone
      | _ => exact hnone
  | closing code =>
      simp only [Seen.record]
      split_ifs
      · exact pingsIn_append ..
      · exact hnone
  | controlFrame opcode p =>
      simp only [Seen.record, Seen.control, pingsIn_append, Event.pinged]
      split_ifs with h9 hping h10 hping h10
      · rfl
      · exact absurd h9 hping
      · exact absurd hping h9
      · rfl
      · exact absurd h10 h9
      · rfl
  | _ => exact hnone

/-- The pings of a trace are those that have been received. -/
lemma pings_eq (trace : List Event) : pings trace = pingsIn (observe trace).items := by
  induction trace using List.reverseRecOn with
  | nil => rfl
  | append_singleton trace e ih =>
      rw [observe_concat, pingsIn_record, ← ih, pings, List.filterMap_append]
      cases h : e.pinged with
      | none =>
          rw [List.filterMap_cons_none h]
          rfl
      | some p =>
          rw [List.filterMap_cons_some h]
          rfl

/-- **The pings of a stream are completed**, unless a text is refused on the way. -/
lemma pings_arrive (env : Env) (cfg : Cfg) (acts : List Action) :
    let s := run env (Cws.fresh cfg) acts
    Refused s.trace ∨ pings s.trace = pingsIn (decode none (streamBytes env (Cws.fresh cfg) acts)) := by
  intro s
  rw [pings_eq]
  rcases whole_or_refused env cfg acts with ⟨-, hrefused⟩ | hwhole | ⟨-, hwhole⟩
  · exact .inl hrefused
  · rw [hwhole]
    exact .inr rfl
  · rw [hwhole, pingsIn_append]
    exact .inr (List.append_nil _).symm

/-- **Pings are answered.**  In every state of every run, and for every chunk: a ping that the call
completes while `CLOSE_QUEUED` is clear is followed at once by a pong with its payload, and unless
the application sends pongs of its own these are all, in the order of the pings.  The pings are
those of the stream: none is completed that is not there, and unless a text is refused, none is left
out. -/
theorem pings_answered (env : Env) (halloc : ∀ t, env.alloc t = true) (cfg : Cfg)
    (hping : cfg.cb.onPing = false) (acts : List Action) (buf : List Byte) :
    let s := run env (Cws.fresh cfg) acts
    let s' := step env s (.receive buf)
    pings s'.trace <+: pingsIn
        (decode none (streamBytes env (Cws.fresh cfg) (acts ++ [.receive buf]))) ∧
      (Refused s'.trace ∨ pings s'.trace = pingsIn
        (decode none (streamBytes env (Cws.fresh cfg) (acts ++ [.receive buf])))) ∧
      ∃ evs, s'.trace = s.trace ++ evs ∧ Answered env cfg s.trace evs := by
  intro s s'
  refine ⟨?_, ?_, ?_⟩
  · have htracks := run_reading env cfg (acts ++ [.receive buf])
    have hinit := htracks.initial []
    rw [List.append_nil, core_seen, run_concat] at hinit
    rw [pings_eq]
    exact hinit.filterMap _
  · have harrive := pings_arrive env cfg (acts ++ [.receive buf])
    rwa [run_concat] at harrive
  · have hnone : Answered env cfg s.trace [] :=
      answered_unrelated cfg (fun e he => absurd he List.not_mem_nil) s.trace
    by_cases henters : Enters s buf
    · have hloop : s' = receiveLoop env buf.length s buf :=
        (receiveCb_enters henters env).trans (receiveLoop_eq env buf.length s buf).symm
      rw [hloop]
      exact answered_receiveLoop halloc hping buf.length s buf (cfg_run env cfg acts)
        ⟨henters.2.2, (run_reading env cfg acts).shape henters.2.2⟩ (closing_run env cfg acts)
    · have hsame : s' = s := receiveCb_of_not_enters henters env
      rw [hsame]
      exact ⟨[], (List.append_nil _).symm, hnone⟩

/-- A ping between two fragments: it is completed, and one pong is queued. -/
theorem pings_answered_between :
    let cfg : Cfg := { cb := { onPing := false } }
    let s := run .quiet (Cws.fresh cfg) [.receive [0x02, 1, 0x61]]
    let s' := step .quiet s (.receive [0x89, 2, 0x68, 0x69])
    pings s'.trace = [[0x68, 0x69]] ∧ ∃ f, pongs s'.trace = [f] ∧ Answers cfg [0x68, 0x69] f := by
  intro cfg s s'
  obtain ⟨-, -, evs, htrace, hanswered⟩ := pings_answered .quiet (fun _ => rfl) cfg rfl
    [.receive [0x02, 1, 0x61]] [0x89, 2, 0x68, 0x69]
  have hevs : evs = s'.trace.drop 2 := by
    rw [show s'.trace = s.trace ++ evs from htrace]
    exact (List.drop_left' (by decide +kernel)).symm
  have hcompleted : openPings s.trace (s'.trace.drop 2) = [[0x68, 0x69]] := by decide +kernel
  have hbefore : pongs (s'.trace.take 2) = [] := by decide +kernel
  have hqueued := hanswered.only fun _ _ _ _ hcall => absurd hcall List.not_mem_nil
  rw [hevs, hcompleted] at hqueued
  obtain ⟨f, rest, hf, hrest, hpongs⟩ := List.forall₂_cons_left_iff.mp hqueued
  refine ⟨by decide +kernel, f, ?_, hf⟩
  rw [← List.take_append_drop 2 s'.trace, pongs_append, hbefore, List.nil_append, hpongs,
    List.forall₂_nil_left_iff.mp hrest]

end CurlWs
