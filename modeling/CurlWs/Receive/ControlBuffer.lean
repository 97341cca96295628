import CurlWs.Receive.Dispatching
import CurlWs.Receive.Draining

/-!
# The buffer for control frames

`control.buf` has room for the longest payload a control frame can have, and not for the NUL that
`_handle_close` puts behind the payload of a close frame.

**What is recorded.**  Every write to the buffer is an event with the indices it covers, and so is
every control frame that is complete, with its payload.  The two are the control events of a trace.

**One iteration.**  An iteration that takes part of a control payload writes it behind what is
there; one that completes a close frame with an accepted code also writes the NUL.  `ControlStep`
has the four things that can happen (`Turn.controls`).

**Every run.**  The payload in the buffer is never longer than 125 bytes (`Shape.controlFits`), so
the writes of payload are inside, and the write of the NUL is outside exactly for a payload of full
length (`Overruns`).

## Main results

* **`Turn.controls`** — the control frames and the writes of one iteration.
* **`controlWrites_inside_iff`** — all the writes of a run are inside the buffer, unless there has
  been a close frame of full length with a code that is accepted.
-/

namespace CurlWs

open WebSocket

/-! ## Control events

Writes to the buffer and complete control frames, in the order of the trace. -/

/-- A write to the buffer, or a control frame that is complete. -/
def Event.isControl : Event → Bool
  | .controlWrite .. | .controlFrame .. => true
  | _ => false

/-- The control events of a trace. -/
def controlEvents (trace : List Event) : List Event := trace.filter Event.isControl

/-- Every index that is written to is below the size of the buffer. -/
def WritesInside (trace : List Event) : Prop :=
  ∀ i j, .controlWrite i j ∈ trace → ∀ k, i ≤ k → k < j → k < wsCtlPayloadMax

/-- A close frame of full length, with a code that is accepted. -/
def FullClose (p : List Byte) : Prop :=
  p.length = wsCtlPayloadMax ∧ isCloseCodeValid (closeCode p) = true

lemma controlEvents_append (t t' : List Event) :
    controlEvents (t ++ t') = controlEvents t ++ controlEvents t' := List.filter_append ..

lemma controlEvents_eq_nil {evs : List Event} (h : ∀ e ∈ evs, e.isControl = false) :
    controlEvents evs = [] := by
  refine List.filter_eq_nil_iff.mpr fun e he => ?_
  rw [h e he]
  exact Bool.false_ne_true

/-- Calls of user functions are not among them. -/
lemma Calls.controls {v w : View} (h : Calls v w) :
    controlEvents w.trace = controlEvents v.trace := by
  obtain ⟨evs, htrace, hall⟩ := h.trace
  have hnil : controlEvents evs = [] := by
    refine controlEvents_eq_nil fun e he => ?_
    obtain ⟨c, rfl⟩ := hall e he
    rfl
  rw [htrace, controlEvents_append, hnil, List.append_nil]

/-- Calls between the two changes of the nesting count. -/
lemma controls_guarded {v : View} {g : View → View}
    (h : Calls { v with dispatching := v.dispatching + 1 }
      (g { v with dispatching := v.dispatching + 1 })) :
    controlEvents (v.guarded g).trace = controlEvents v.trace :=
  h.controls

/-- Closing the connection writes nothing to the buffer. -/
lemma controls_close (v : View) (code : ℤ) :
    controlEvents (v.close code).trace = controlEvents v.trace := by
  rw [View.close]
  split_ifs
  · rfl
  · exact (controlEvents_append ..).trans (List.append_nil _)

/-- What one iteration adds, for the payload `p` it has accumulated. -/
inductive ControlStep (p : List Byte) : List Event → Prop where
  | nothing : ControlStep p []
  | write (i : ℕ) : ControlStep p [.controlWrite i p.length]
  | frame (i : ℕ) {opcode : ℕ} (hop : opcode = 9 ∨ opcode = 10) :
      ControlStep p [.controlWrite i p.length, .controlFrame opcode p]
  | close (i : ℕ) {opcode : ℕ} (h9 : opcode ≠ 9) (h10 : opcode ≠ 10) :
      ControlStep p (.controlWrite i p.length :: .controlFrame opcode p :: closeWrites p)

/-- **The control events of one iteration.**  A close frame is among them only if `_handle_close` is
called. -/
theorem Turn.controls {env : Env} {s s₁ : Cws} (h : Turn env s s₁)
    (ho : s.closeState.received = false) : ∃ evs, ControlStep s.recv.control evs ∧
      controlEvents s₁.view.trace = controlEvents s.view.trace ++ evs ∧
      ((∀ opcode p, .controlFrame opcode p ∈ evs → opcode = 9 ∨ opcode = 10) ∨
        ∃ i opcode, opcode ≠ 9 ∧ opcode ≠ 10 ∧
          s₁ = handleClose env (s.controlDone i opcode) s.recv.control.length) := by
  have hlog (v : View) (e : Event) : controlEvents (v.log e).trace
      = controlEvents v.trace ++ controlEvents [e] := controlEvents_append ..
  have hdone (i opcode : ℕ) : controlEvents (s.controlDone i opcode).view.trace
      = controlEvents s.view.trace
        ++ [.controlWrite i s.recv.control.length, .controlFrame opcode s.recv.control] := by
    rw [view_controlDone, hlog, hlog, List.append_assoc]
    rfl
  have hpiece (p : Piece) : controlEvents (s.log (.payload p)).view.trace
      = controlEvents s.view.trace := by
    rw [view_log rfl, hlog]
    exact List.append_nil _
  have hnone : ∀ opcode p, .controlFrame opcode p ∈ ([] : List Event) → opcode = 9 ∨ opcode = 10 :=
    fun _ _ hmem => absurd hmem List.not_mem_nil
  have hframe {i opcode : ℕ} (hop : opcode = 9 ∨ opcode = 10) (opcode' : ℕ) (p : List Byte)
      (hmem : Event.controlFrame opcode' p ∈ [.controlWrite i s.recv.control.length,
        .controlFrame opcode s.recv.control]) : opcode' = 9 ∨ opcode' = 10 := by
    rcases List.mem_cons.mp hmem with hwrite | hmem
    · exact Event.noConfusion hwrite
    · obtain ⟨rfl, -⟩ := Event.controlFrame.inj (List.mem_singleton.mp hmem)
      exact hop
  cases h with
  | nothing => exact ⟨[], .nothing, (List.append_nil _).symm, .inl hnone⟩
  | write i =>
      refine ⟨_, .write i, ?_, .inl fun opcode p hmem => ?_⟩
      · rw [view_log rfl, hlog]
        rfl
      · exact Event.noConfusion (List.mem_singleton.mp hmem)
  | ping i =>
      refine ⟨_, .frame i (.inl rfl), ?_, .inl (hframe (.inl rfl))⟩
      rw [view_guarded_ping]
      exact (controls_guarded (calls_log _ _)).trans (hdone i 9)
  | pong i =>
      refine ⟨_, .frame i (.inr rfl), ?_, .inl (hframe (.inr rfl))⟩
      rw [view_guarded_pong]
      exact (controls_guarded (calls_call _ _ _)).trans (hdone i 10)
  | @close i opcode h9 h10 =>
      refine ⟨_, .close i h9 h10, ?_, .inr ⟨i, opcode, h9, h10, rfl⟩⟩
      have hview := view_handleClose env (s.controlDone i opcode) rfl
      have hrecv : (s.controlDone i opcode).recv.control = s.recv.control := rfl
      rw [hrecv] at hview
      have hcall : controlEvents (closeCall (s.controlDone i opcode).view s.recv.control) = [] := by
        refine controlEvents_eq_nil fun e he => ?_
        obtain ⟨code, reason, rfl⟩ := mem_closeCall he
        rfl
      have hwrites : controlEvents (closeWrites s.recv.control) = closeWrites s.recv.control := by
        refine List.filter_eq_self.mpr fun e he => ?_
        rw [(mem_closeWrites he).2]
        rfl
      rw [hview, handleClose_writes ho]
      have hclosing : controlEvents [.closing (closeAnswer s.recv.control)] = [] := rfl
      simp only [controlEvents_append, hdone, hwrites, hcall, hclosing, List.append_assoc,
        List.append_nil]
      rfl
  | failed =>
      refine ⟨[], .nothing, ?_, .inl hnone⟩
      rw [view_errorClose, controls_close, List.append_nil]
  | fragment p hres =>
      refine ⟨[], .nothing, ?_, .inl hnone⟩
      rw [List.append_nil, view_sendFragment, ← hpiece p, View.sendFragment]
      split_ifs
      · exact controls_guarded (calls_onFragment _ _ _)
      · rfl
  | refused p hres =>
      refine ⟨[], .nothing, ?_, .inl hnone⟩
      rw [view_errorClose, controls_close, hpiece, List.append_nil]

/-! ## Writes and close frames

A write past the end and a full close frame come together, in the same iteration. -/

/-- There has been a write past the end exactly if there has been a close frame of full length. -/
structure Overruns (evs : List Event) : Prop where
  inside : ∀ i j, .controlWrite i j ∈ evs → j ≤ wsCtlPayloadMax ∨
    ∃ opcode p, opcode ≠ 9 ∧ opcode ≠ 10 ∧ .controlFrame opcode p ∈ evs ∧ FullClose p
  past : ∀ opcode p, opcode ≠ 9 → opcode ≠ 10 → .controlFrame opcode p ∈ evs → FullClose p →
    .controlWrite wsCtlPayloadMax (wsCtlPayloadMax + 1) ∈ evs

/-- Nothing is written without a frame. -/
lemma overruns_nil : Overruns [] :=
  ⟨fun _ _ h => absurd h List.not_mem_nil, fun _ _ _ _ h => absurd h List.not_mem_nil⟩

/-- The events of two iterations, one after the other. -/
lemma Overruns.append {x y : List Event} (hx : Overruns x) (hy : Overruns y) :
    Overruns (x ++ y) := by
  refine ⟨fun i j h => ?_, fun opcode p h9 h10 h hfull => ?_⟩
  · rcases List.mem_append.mp h with h | h
    · refine (hx.inside i j h).imp_right ?_
      rintro ⟨opcode, p, h9, h10, hmem, hfull⟩
      exact ⟨opcode, p, h9, h10, List.mem_append_left y hmem, hfull⟩
    · refine (hy.inside i j h).imp_right ?_
      rintro ⟨opcode, p, h9, h10, hmem, hfull⟩
      exact ⟨opcode, p, h9, h10, List.mem_append_right x hmem, hfull⟩
  · rcases List.mem_append.mp h with h | h
    · exact List.mem_append_left y (hx.past opcode p h9 h10 h hfull)
    · exact List.mem_append_right x (hy.past opcode p h9 h10 h hfull)

/-- One iteration with a payload that is not too long. -/
lemma ControlStep.overruns {p : List Byte} {evs : List Event} (h : ControlStep p evs)
    (hp : p.length ≤ wsCtlPayloadMax) : Overruns evs := by
  have hwrite (i : ℕ) : Overruns [.controlWrite i p.length] := by
    refine ⟨fun i' j h => ?_, fun opcode p' _ _ h => ?_⟩
    · obtain ⟨-, rfl⟩ := Event.controlWrite.inj (List.mem_singleton.mp h)
      exact .inl hp
    · exact Event.noConfusion (List.mem_singleton.mp h)
  cases h with
  | nothing => exact overruns_nil
  | write i => exact hwrite i
  | @frame i opcode hop =>
      refine (hwrite i).append (y := [.controlFrame opcode p]) ⟨fun i' j h => ?_, ?_⟩
      · exact Event.noConfusion (List.mem_singleton.mp h)
      · intro opcode' p' h9 h10 h
        obtain ⟨rfl, -⟩ := Event.controlFrame.inj (List.mem_singleton.mp h)
        exact absurd hop (not_or.mpr ⟨h9, h10⟩)
  | @close i opcode h9 h10 =>
      refine (hwrite i).append (y := .controlFrame opcode p :: closeWrites p) ⟨?_, ?_⟩
      · intro i' j h
        rcases List.mem_cons.mp h with h | h
        · exact Event.noConfusion h
        · obtain ⟨hvalid, heq⟩ := mem_closeWrites h
          obtain ⟨-, rfl⟩ := Event.controlWrite.inj heq
          by_cases hfull : p.length = wsCtlPayloadMax
          · exact .inr ⟨opcode, p, h9, h10, List.mem_cons_self, hfull, hvalid⟩
          · exact .inl (by omega)
      · intro opcode' p' _ _ h hfull
        rcases List.mem_cons.mp h with h | h
        · obtain ⟨-, rfl⟩ := Event.controlFrame.inj h
          refine List.mem_cons_of_mem _ ?_
          rw [closeWrites, if_pos hfull.2, hfull.1]
          exact List.mem_singleton_self _
        · exact Event.noConfusion (mem_closeWrites h).2

/-! ## Runs

A run counts up to where its object is freed (`Run`). -/

/-- A close frame is received when it is complete. -/
lemma closeFrame_mem_record {S : Seen} {e : Event} {p : List Byte} :
    Item.closeFrame p ∈ (S.record e).items ↔ Item.closeFrame p ∈ S.items ∨
      ∃ opcode, opcode ≠ 9 ∧ opcode ≠ 10 ∧ e = .controlFrame opcode p := by
  have hextend (S : Seen) (k : Kind) (d : List Byte) (last : Bool) :
      Item.closeFrame p ∈ (S.extend k d last).items ↔ Item.closeFrame p ∈ S.items := by
    cases last <;> simp [Seen.extend]
  cases e with
  | callback c d =>
      cases c with
      | onFragment info buf =>
          simp only [Seen.record, Seen.fragment]
          split_ifs
          · simp [hextend]
          · cases S.current with
            | none => simp
            | some c => simp [hextend]
      | _ => simp [Seen.record]
  | closing code =>
      simp only [Seen.record]
      split_ifs <;> simp
  | controlFrame opcode q =>
      simp only [Seen.record, Seen.control, List.mem_append, List.mem_singleton,
        Event.controlFrame.injEq]
      refine or_congr_right ?_
      split_ifs with h9 h10
      · simp [h9]
      · simp [h10]
      · simp [h9, h10, eq_comm]
  | _ => simp [Seen.record]

/-- The close frames that have been received are those of the trace. -/
lemma closeFrame_mem_items {trace : List Event} {p : List Byte} :
    Item.closeFrame p ∈ (observe trace).items ↔
      ∃ opcode, opcode ≠ 9 ∧ opcode ≠ 10 ∧ .controlFrame opcode p ∈ trace := by
  induction trace using List.reverseRecOn with
  | nil => simp [observe]
  | append_singleton trace e ih =>
      rw [observe_concat, closeFrame_mem_record, ih]
      simp only [List.mem_append, List.mem_singleton, and_or_left, exists_or, eq_comm (a := e)]

/-- A header line leads to no control event. -/
lemma controls_headerCb (env : Env) (s : Cws) (line : List Byte) (status version : ℤ) :
    controlEvents (headerCb env s line status version).2.view.trace
      = controlEvents s.view.trace := by
  have heffect := effect_headerCb env s line status version
  generalize (headerCb env s line status version).2.view = w at heffect
  cases heffect with
  | noted h => rfl
  | told h installed c _ =>
      exact @controls_guarded { s.view with headerState := h } _ (calls_call _ installed c)

/-- Between iterations the buffer holds part of a payload that fits. -/
lemma Shape.controlFits {s : Cws} (h : Shape s.core) : s.recv.ControlFits := by
  have hheld := h.held
  cases hheld with
  | nothing hf hc =>
      simp only [core_recv] at hf hc
      refine ⟨by simp [hc], fun f hsome => ?_⟩
      rw [hf] at hsome
      cases hsome
  | @control f hf hi hlen hmax _ =>
      simp only [core_recv] at hf hlen
      refine ⟨hlen.le.trans hmax, fun g hsome _ => ?_⟩
      rw [hf] at hsome
      exact Option.some_inj.mp hsome ▸ hmax
  | @data f hf hi _ hc _ _ =>
      simp only [core_recv] at hf hc
      refine ⟨by simp [hc], fun g hsome hctl => ?_⟩
      rw [hf] at hsome
      rw [← Option.some_inj.mp hsome, hi] at hctl
      cases hctl

/-- One iteration of a run. -/
lemma overruns_processFrame {s : Cws} (h : Ongoing s) (env : Env) (buf : List Byte)
    (hover : Overruns (controlEvents s.view.trace)) :
    Overruns (controlEvents (cwsProcessFrame env s buf).1.view.trace) := by
  obtain ⟨r, s₁, hturn, hs, hfits⟩ := turn_processFrame env s buf
  obtain ⟨evs, hevs, hcontrols, -⟩ := hturn.controls h.1
  have htrace : controlEvents (cwsProcessFrame env s buf).1.view.trace
      = controlEvents s.view.trace ++ evs := by
    rw [hs]
    exact hcontrols
  rw [htrace]
  exact hover.append (hevs.overruns (hfits h.2.controlFits))

/-- **All the writes of a run are inside the buffer**, unless there has been a close frame of full
length with a code that is accepted. -/
theorem controlWrites_inside_iff (env : Env) (cfg : Cfg) (acts : List Action) :
    let s := run env (Cws.fresh cfg) acts
    let received := (observe s.trace).items
    received <+: decode none (streamBytes env (Cws.fresh cfg) acts) ∧
      (WritesInside s.trace ↔ ∀ p, .closeFrame p ∈ received → ¬ FullClose p) := by
  intro s received
  obtain ⟨htracks, hover⟩ : Tracks (streamBytes env (Cws.fresh cfg) acts) [] s.core ∧
      Overruns (controlEvents s.view.trace) := by
    refine @run_view_induction env (fun _ _ v => Overruns (controlEvents v.trace))
      (fun _ _ _ h => h) (fun _ _ _ _ h => h) ?_ cfg overruns_nil acts ?_
    · intro bs buf rest s s' w r hbuf hstep ho hr _ _ _ hover
      have hnext := overruns_processFrame ⟨ho, hr.shape ho⟩ env buf hover
      rwa [hstep] at hnext
    · intro line status version _ bs s hover
      rw [controls_headerCb]
      exact hover
  have hmem {e : Event} (hr : e.isReceive = true) (hc : e.isControl = true) :
      e ∈ controlEvents s.view.trace ↔ e ∈ s.trace := by
    simp only [controlEvents, Cws.view, List.mem_filter, hr, hc, and_true]
  refine ⟨?_, ⟨fun hinside p hp hfull => ?_, fun hshort i j hwrite k _ hk => ?_⟩⟩
  · have hinit := htracks.initial []
    rwa [List.append_nil, core_seen] at hinit
  · obtain ⟨opcode, h9, h10, hframe⟩ := closeFrame_mem_items.mp hp
    have hpast := hover.past opcode p h9 h10 ((hmem rfl rfl).mpr hframe) hfull
    exact absurd (hinside _ _ ((hmem rfl rfl).mp hpast) wsCtlPayloadMax le_rfl (Nat.lt_succ_self _))
      (lt_irrefl _)
  · rcases hover.inside i j ((hmem rfl rfl).mpr hwrite) with hj | ⟨opcode, p, h9, h10, hframe, hfull⟩
    · exact hk.trans_le hj
    · exact absurd hfull
        (hshort p (closeFrame_mem_items.mpr ⟨opcode, h9, h10, (hmem rfl rfl).mp hframe⟩))

/-- A close frame with the code 1000 and a reason of 123 letters: its NUL goes to index 125. -/
theorem close_overruns_buffer :
    let frame : List Byte := [0x88, 125, 0x03, 0xe8] ++ List.replicate 123 0x61
    .controlWrite 125 126 ∈ (run .quiet (Cws.fresh {}) [.receive frame]).trace ∧
      ¬ WritesInside (run .quiet (Cws.fresh {}) [.receive frame]).trace := by
  intro frame
  have hwrite : .controlWrite 125 126 ∈ (run .quiet (Cws.fresh {}) [.receive frame]).trace := by
    decide +kernel
  refine ⟨hwrite, fun hinside => ?_⟩
  exact absurd (hinside 125 126 hwrite 125 le_rfl (by decide)) (lt_irrefl _)

end CurlWs
