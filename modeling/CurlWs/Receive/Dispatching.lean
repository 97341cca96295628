import CurlWs.Receive.CloseFrame
import CurlWs.Receive.Reading

/-!
# The nesting count

`priv->dispatching` is to be at least one while a function of the user runs, because `cws_destroy`
looks at it to put off freeing the object.  What counts are the moments at which user functions are
called from `_receive_cb` and `_header_cb`, and when these return.

**Two layers.**  The calls themselves do not change the count (`Calls`).  Around them, the source
counts up before and down after (`writes_guarded`), so that each is made with the count one above
what it was.  Only the report of a close frame has no such pair around it (`writes_close`).

**What is kept.**  `Writes` says of any part of the code that the count is the same before and
after, and that a call with the old count comes with a close frame that is reported, and the other
way round (`Guarded`).  It holds of nothing, of one thing after the other, and so of the loop, of
every action and of every run.

## Main results

* **`step_dispatching`** — the count has its old value after every action.
* **`callbacks_guarded`** — in whole runs the count is at least one in every callback, unless
  `on_close` is told of a close frame.  The count is zero between the actions of a run.
-/

namespace CurlWs

/-- The view changes in nothing but calls of user functions with the present count. -/
structure Calls (v w : View) : Prop where
  cfg : w.cfg = v.cfg
  dispatching : w.dispatching = v.dispatching
  trace : ∃ evs, w.trace = v.trace ++ evs ∧ ∀ e ∈ evs, ∃ c, e = .callback c v.dispatching

section
variable {u v w : View}

lemma Calls.trans (h : Calls u v) (h' : Calls v w) : Calls u w := by
  obtain ⟨evs, htrace, hall⟩ := h.trace
  obtain ⟨evs', htrace', hall'⟩ := h'.trace
  refine ⟨h'.cfg.trans h.cfg, h'.dispatching.trans h.dispatching, evs ++ evs', ?_, fun e he => ?_⟩
  · rw [htrace', htrace, List.append_assoc]
  · rcases List.mem_append.mp he with he | he
    · exact hall e he
    · rw [← h.dispatching]
      exact hall' e he

lemma calls_of_eq (hc : w.cfg = v.cfg) (hd : w.dispatching = v.dispatching)
    (ht : w.trace = v.trace) : Calls v w :=
  ⟨hc, hd, [], by rw [ht, List.append_nil], fun _ h => absurd h List.not_mem_nil⟩

lemma calls_log (v : View) (c : Callback) : Calls v (v.log (.callback c v.dispatching)) :=
  ⟨rfl, rfl, [.callback c v.dispatching], rfl, fun _ h => ⟨c, List.mem_singleton.mp h⟩⟩

/-- A function that may not be installed. -/
lemma calls_call (v : View) (installed : Bool) (c : Callback) : Calls v (v.call installed c) := by
  cases installed with
  | true => exact calls_log v c
  | false => exact calls_of_eq rfl rfl rfl

lemma calls_message (v : View) (isBinary : Bool) (buffer : Option (List Byte)) :
    Calls v (v.message isBinary buffer) := by
  rw [View.message]
  split_ifs <;> exact calls_call ..

lemma calls_append (v : View) (info : Flags) (buffer : Option (List Byte)) :
    Calls v (v.append info buffer) := by
  simp only [View.append]
  split_ifs <;> exact calls_of_eq rfl rfl rfl

lemma calls_defaultOnFragment (v : View) (info : Flags) (buffer : Option (List Byte)) :
    Calls v (v.defaultOnFragment info buffer) := by
  simp only [View.defaultOnFragment]
  split_ifs
  · exact calls_message ..
  · exact ((calls_append v info buffer).trans (calls_message ..)).trans (calls_of_eq rfl rfl rfl)
  · exact calls_append ..

lemma calls_onFragment (v : View) (info : Flags) (buffer : Option (List Byte)) :
    Calls v (v.onFragment info buffer) := by
  simp only [View.onFragment]
  split_ifs
  · exact calls_log ..
  · exact (calls_log v _).trans (calls_defaultOnFragment ..)

end

/-! ## What is written

Events added to a view, with the count of every call among them. -/

/-- The view changes in nothing but the events `evs`. -/
structure Wrote (v w : View) (evs : List Event) : Prop where
  cfg : w.cfg = v.cfg
  dispatching : w.dispatching = v.dispatching
  trace : w.trace = v.trace ++ evs

/-- There is a call with the count `d`. -/
def CalledAt (d : UInt8) (evs : List Event) : Prop := ∃ c, .callback c d ∈ evs

/-- There is a close frame that `on_close` is told of. -/
def Reported (cb : Callbacks) (evs : List Event) : Prop :=
  cb.onClose = true ∧
    ∃ opcode p, .controlFrame opcode p ∈ evs ∧ opcode ≠ 9 ∧ opcode ≠ 10 ∧ closeReport p ≠ none

/-- Every call is guarded, except the report of a close frame. -/
structure Guarded (cb : Callbacks) (d : UInt8) (evs : List Event) : Prop where
  counts : ∀ c d', .callback c d' ∈ evs → d' = d ∨ d' = d + 1
  called : CalledAt d evs ↔ Reported cb evs

/-- The events of two parts, one after the other. -/
lemma Guarded.append {cb : Callbacks} {d : UInt8} {x y : List Event} (hx : Guarded cb d x)
    (hy : Guarded cb d y) : Guarded cb d (x ++ y) := by
  refine ⟨fun c d' h => ?_, ?_⟩
  · exact (List.mem_append.mp h).elim (hx.counts c d') (hy.counts c d')
  · have hcalled : CalledAt d (x ++ y) ↔ CalledAt d x ∨ CalledAt d y := by
      simp only [CalledAt, List.mem_append, exists_or]
    have hreported : Reported cb (x ++ y) ↔ Reported cb x ∨ Reported cb y := by
      simp only [Reported, List.mem_append, or_and_right, exists_or, and_or_left]
    rw [hcalled, hreported, hx.called, hy.called]

/-- From the count zero, guarded calls are those with a count of at least one. -/
lemma Guarded.reported_iff {cb : Callbacks} {trace : List Event} (h : Guarded cb 0 trace) :
    (∀ c d, .callback c d ∈ trace → 1 ≤ d) ↔ ¬ Reported cb trace := by
  rw [← h.called]
  constructor
  · rintro hall ⟨c, hc⟩
    exact absurd (hall c 0 hc) (by decide)
  · intro hno c d hc
    rcases h.counts c d hc with rfl | rfl
    · exact absurd ⟨c, hc⟩ hno
    · decide

/-- What is written to a view, with the calls in it guarded. -/
def Writes (v w : View) : Prop :=
  ∃ evs, Wrote v w evs ∧ Guarded v.cfg.cb v.dispatching evs

/-- One part of the code after the other. -/
lemma Writes.trans {u v w : View} (h : Writes u v) (h' : Writes v w) : Writes u w := by
  obtain ⟨x, hx, hgx⟩ := h
  obtain ⟨y, hy, hgy⟩ := h'
  rw [hx.cfg, hx.dispatching] at hgy
  refine ⟨x ++ y, ⟨hy.cfg.trans hx.cfg, hy.dispatching.trans hx.dispatching, ?_⟩, hgx.append hgy⟩
  rw [hy.trace, hx.trace, List.append_assoc]

lemma writes_of_eq {v w : View} (hc : w.cfg = v.cfg) (hd : w.dispatching = v.dispatching)
    (ht : w.trace = v.trace) : Writes v w := by
  refine ⟨[], ⟨hc, hd, by rw [ht, List.append_nil]⟩, fun _ _ h => absurd h List.not_mem_nil, ?_⟩
  constructor
  · rintro ⟨_, h⟩
    exact absurd h List.not_mem_nil
  · rintro ⟨_, _, _, h, _⟩
    exact absurd h List.not_mem_nil

/-- An event that is neither a call nor a control frame. -/
lemma writes_event {v w : View} {e : Event} (hc : w.cfg = v.cfg)
    (hd : w.dispatching = v.dispatching) (ht : w.trace = v.trace ++ [e])
    (hcall : ∀ c d, e ≠ .callback c d)
    (hframe : ∀ opcode p, e = .controlFrame opcode p → opcode = 9 ∨ opcode = 10) : Writes v w := by
  refine ⟨[e], ⟨hc, hd, ht⟩, fun c d h => absurd (List.mem_singleton.mp h).symm (hcall c d), ?_⟩
  constructor
  · rintro ⟨c, h⟩
    exact absurd (List.mem_singleton.mp h).symm (hcall c _)
  · rintro ⟨-, opcode, p, hmem, h9, h10, -⟩
    exact absurd (hframe opcode p (List.mem_singleton.mp hmem).symm) (not_or.mpr ⟨h9, h10⟩)

lemma succ_ne_self (d : UInt8) : d ≠ d + 1 := by
  intro h
  have := congrArg UInt8.toNat h
  rw [UInt8.toNat_add] at this
  have := d.toNat_lt
  simp only [UInt8.toNat_one] at *
  omega

/-- Calls between the two changes of the count. -/
lemma writes_guarded {v : View} {g : View → View}
    (h : Calls { v with dispatching := v.dispatching + 1 }
      (g { v with dispatching := v.dispatching + 1 })) : Writes v (v.guarded g) := by
  obtain ⟨evs, htrace, hall⟩ := h.trace
  refine ⟨evs, ⟨h.cfg, ?_, htrace⟩, fun c d hc => ?_, ?_⟩
  · change (g { v with dispatching := v.dispatching + 1 }).dispatching - 1 = v.dispatching
    rw [h.dispatching]
    exact add_sub_cancel_right _ _
  · obtain ⟨c', hc'⟩ := hall _ hc
    exact .inr (Event.callback.inj hc').2
  · constructor
    · rintro ⟨c, hc⟩
      obtain ⟨c', hc'⟩ := hall _ hc
      exact absurd (Event.callback.inj hc').2 (succ_ne_self _)
    · rintro ⟨_, opcode, p, hmem, _⟩
      obtain ⟨c', hc'⟩ := hall _ hmem
      exact Event.noConfusion hc'

/-! ## One iteration

The eight effects of an iteration, of which only a close frame is reported unguarded. -/

/-- A close frame is reported with the count as it is. -/
lemma writes_close {v : View} (ho : v.received = false) {opcode : ℕ} (h9 : opcode ≠ 9)
    (h10 : opcode ≠ 10) (p : List Byte) :
    Writes v ((v.log (.controlFrame opcode p)).handleClose p) := by
  obtain ⟨ws, hws, heq⟩ := @handleClose_eq (v.log (.controlFrame opcode p)) ho p
  have hcases {e : Event} (he : e ∈ .controlFrame opcode p :: (ws ++ closeCall v p
      ++ [.closing (closeAnswer p)])) :
      e = .controlFrame opcode p ∨ (∃ i j, e = .controlWrite i j) ∨ e ∈ closeCall v p ∨
        e = .closing (closeAnswer p) := by
    simp only [List.mem_cons, List.mem_append, List.not_mem_nil, or_false] at he
    rcases he with he | (he | he) | he
    · exact .inl he
    · exact .inr (.inl (hws e he))
    · exact .inr (.inr (.inl he))
    · exact .inr (.inr (.inr he))
  refine ⟨.controlFrame opcode p :: (ws ++ closeCall v p ++ [.closing (closeAnswer p)]),
    ⟨by rw [heq]; rfl, by rw [heq]; rfl, ?_⟩, fun c d hc => ?_, ⟨?_, ?_⟩⟩
  · rw [heq]
    simp only [View.log, List.append_assoc, List.cons_append, List.nil_append]
    rfl
  · rcases hcases hc with h | ⟨_, _, h⟩ | h | h
    · exact Event.noConfusion h
    · exact Event.noConfusion h
    · obtain ⟨_, _, h⟩ := mem_closeCall h
      exact .inl (Event.callback.inj h).2
    · exact Event.noConfusion h
  · rintro ⟨c, hc⟩
    rcases hcases hc with h | ⟨_, _, h⟩ | h | h
    · exact Event.noConfusion h
    · exact Event.noConfusion h
    · obtain ⟨hcb, hreport⟩ := reported_of_mem_closeCall h
      exact ⟨hcb, opcode, p, List.mem_cons_self, h9, h10, hreport⟩
    · exact Event.noConfusion h
  · rintro ⟨hcb, opcode', p', hmem, -, -, hreport⟩
    rcases hcases hmem with h | ⟨_, _, h⟩ | h | h
    · obtain ⟨-, rfl⟩ := Event.controlFrame.inj h
      obtain ⟨c, hc⟩ := closeCall_of_reported hcb hreport
      exact ⟨c, List.mem_cons_of_mem _ (List.mem_append_left _ (List.mem_append_right _ hc))⟩
    · exact Event.noConfusion h
    · obtain ⟨_, _, h⟩ := mem_closeCall h
      exact Event.noConfusion h
    · exact Event.noConfusion h

lemma writes_effect {v w : View} (ho : v.received = false) (h : Effect v w) : Writes v w := by
  have hclose (u : View) (hu : u.received = false) (code : ℤ) : Writes u (u.close code) := by
    rw [View.close_eq hu]
    exact writes_event (e := .closing code) rfl rfl rfl (by simp) (by simp)
  have hwrite (i j : ℕ) : Writes v (v.log (.controlWrite i j)) :=
    writes_event (e := .controlWrite i j) rfl rfl rfl (by simp) (by simp)
  have hpayload (p : Piece) : Writes v (v.log (.payload p)) :=
    writes_event (e := .payload p) rfl rfl rfl (by simp) (by simp)
  have hframe (u : View) {opcode : ℕ} (p : List Byte) (hop : opcode = 9 ∨ opcode = 10) :
      Writes u (u.log (.controlFrame opcode p)) :=
    writes_event (e := .controlFrame opcode p) rfl rfl rfl (by simp) fun opcode' p' h => by
      obtain ⟨rfl, -⟩ := Event.controlFrame.inj h
      exact hop
  cases h with
  | nothing => exact writes_of_eq rfl rfl rfl
  | write i j => exact hwrite i j
  | ping i j p =>
      exact ((hwrite i j).trans (hframe _ p (.inl rfl))).trans (writes_guarded (calls_log _ _))
  | pong i j p =>
      exact ((hwrite i j).trans (hframe _ p (.inr rfl))).trans (writes_guarded (calls_call _ _ _))
  | close i j h9 h10 p =>
      have ho' : (v.log (.controlWrite i j)).received = false := ho
      exact (hwrite i j).trans (writes_close ho' h9 h10 p)
  | failed => exact hclose v ho 1002
  | fragment p hres =>
      refine (hpayload p).trans ?_
      rw [View.sendFragment]
      split_ifs
      · exact writes_guarded (calls_onFragment _ _ _)
      · exact writes_of_eq rfl rfl rfl
  | refused p hres => exact (hpayload p).trans (hclose (v.log (.payload p)) ho 1007)

/-! ## Actions and runs

The loop, the header lines, and the actions that call no function of the user.  A run counts up to
where its object is freed (`Run`). -/

lemma writes_receiveLoop (env : Env) (fuel : ℕ) : ∀ (s : Cws) (buf : List Byte),
    s.closeState.received = false → Writes s.view (receiveLoop env fuel s buf).view := by
  induction fuel with
  | zero => intro s buf _; exact writes_of_eq rfl rfl rfl
  | succ fuel ih =>
      intro s buf ho
      have hstep : Writes s.view (cwsProcessFrame env s buf).1.view := by
        obtain ⟨r, w, heffect, hview⟩ := effect_processFrame env s buf
        have hw := writes_effect (show (s.view.setRecv r).received = false from ho) heffect
        have hr : Writes s.view (s.view.setRecv r) := writes_of_eq rfl rfl rfl
        rw [hview]
        exact (hr.trans hw).trans (writes_of_eq rfl rfl rfl)
      rw [receiveLoop]
      split_ifs with hpos
      · simp only
        split_ifs with hstop
        · exact hstep
        · exact hstep.trans (ih _ _ (Bool.eq_false_of_not_eq_true (not_or.mp hstop).2))
      · exact writes_of_eq rfl rfl rfl

/-- A header line calls user functions between the two changes only. -/
lemma writes_headerCb (env : Env) (s : Cws) (line : List Byte) (status version : ℤ) :
    Writes s.view (headerCb env s line status version).2.view := by
  have heffect := effect_headerCb env s line status version
  generalize (headerCb env s line status version).2.view = w at heffect
  cases heffect with
  | noted h => exact writes_of_eq rfl rfl rfl
  | told h installed c _ =>
      have hnoted : Writes s.view { s.view with headerState := h } := writes_of_eq rfl rfl rfl
      exact hnoted.trans (writes_guarded (calls_call _ installed c))

/-- **Every action**, from every state. -/
theorem writes_step (env : Env) (s : Cws) (a : Action) : Writes s.view (step env s a).view := by
  cases a with
  | api c =>
      rw [step, view_apiCall]
      exact writes_of_eq rfl rfl rfl
  | send len =>
      rw [step, view_sendCb]
      exact writes_of_eq rfl rfl rfl
  | receive buf =>
      simp only [step, receiveCb]
      split_ifs with _ _ hclosed
      · exact writes_of_eq rfl rfl rfl
      · exact writes_of_eq rfl rfl rfl
      · exact writes_of_eq rfl rfl rfl
      · exact writes_receiveLoop env _ s buf (Bool.eq_false_of_not_eq_true hclosed)
  | header line status version =>
      exact writes_headerCb env s line status version

/-- **The count is back at its old value when an action is over.** -/
theorem step_dispatching (env : Env) (s : Cws) (a : Action) :
    (step env s a).dispatching = s.dispatching := by
  obtain ⟨evs, hw, -⟩ := writes_step env s a
  exact hw.dispatching

/-- **Every callback is guarded, exactly if `on_close` is not told of a close frame**; the count is
zero between the actions. -/
theorem callbacks_guarded (env : Env) (cfg : Cfg) (acts : List Action) :
    let s := run env (Cws.fresh cfg) acts
    s.dispatching = 0 ∧
      ((∀ c d, .callback c d ∈ s.trace → 1 ≤ d) ↔
        (cfg.cb.onClose = true → ∀ opcode p, .controlFrame opcode p ∈ s.trace →
          opcode ≠ 9 → opcode ≠ 10 → closeReport p = none)) := by
  intro s
  have hzero : s.dispatching = 0 :=
    run_invariant (P := fun s => s.dispatching = 0) rfl
      (fun s a h => (step_dispatching env s a).trans h) acts
  obtain ⟨evs, hw, hguarded⟩ : Writes (Cws.fresh cfg).view s.view :=
    run_invariant (P := fun s => Writes (Cws.fresh cfg).view s.view) (writes_of_eq rfl rfl rfl)
      (fun s a h => h.trans (writes_step env s a)) acts
  refine ⟨hzero, ?_⟩
  have hevs : evs = s.trace.filter Event.isReceive := hw.trace.symm
  have hmem {e : Event} (he : e.isReceive = true) : e ∈ evs ↔ e ∈ s.trace := by
    rw [hevs, List.mem_filter, he]
    simp
  have hreported := hguarded.reported_iff
  simp only [Reported, hmem (e := .callback _ _) rfl, hmem (e := .controlFrame _ _) rfl]
    at hreported
  simp only [not_and, not_exists, not_not] at hreported
  exact hreported

/-- An empty close frame is reported with the count at zero, so that `cws_destroy` takes effect in
the middle of `_receive_cb`. -/
theorem close_report_unguarded :
    .callback (.onClose 1005 none) 0 ∈ (run .quiet (Cws.fresh {}) [.receive [0x88, 0]]).trace ∧
      (run ⟨fun _ => true, fun _ => .zero, fun _ _ => { calls := [.destroy] }⟩ (Cws.fresh {})
        [.receive [0x88, 0]]).freed = true := by
  decide +kernel

end CurlWs
