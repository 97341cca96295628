import CurlWs.Receive.Turn
import CurlWs.Send.Micro

/-!
# Every run is a sequence of steps

The functions of the receive path reach the sending side only through the public functions and
through `_error_close`.  So whatever is known of these two is known of everything the library does.

**Relations.**  `Along` is what a relation between states has to be closed under to hold between the
two ends of anything they do; that there are steps from one to the other is one such relation.
`AlongCalls` is the same where something is known of what the user functions call, and where the
events of the receive path count as well.  It leaves out the answer to a ping, which has to be given
separately, since it is what theorems about pings are about.

**Up through the library.**  A relation that is closed in this way holds across a callback, whatever
the callback calls, across the handlers, the iterations of the receive loop, a chunk and a header
line.  This is shown once, here; the instances are elsewhere.

**Runs.**  An action is a sequence of steps, and so is a run.  Invariants of the sending side are
then a matter of single steps.

## Main results

* **`Along.receiveCb`**, **`Along.headerCb`** — the relation holds across what curl hands over.
* **`steps_run`** — a run leads to its last state by steps.
* **`run_out_invariant`** — what every step preserves holds in every state of every run.
-/

namespace CurlWs

/-! ## Relations

Two sets of closure properties, and what follows from each. -/

/-- A relation that holds across the public functions and `_error_close`, and across whatever the
sending side does not show. -/
structure Along (env : Env) (R : Cws → Cws → Prop) : Prop where
  quiet : ∀ {s s' : Cws}, s'.out = s.out → R s s'
  trans : ∀ {s₁ s₂ s₃ : Cws}, R s₁ s₂ → R s₂ s₃ → R s₁ s₃
  api : ∀ (s : Cws) (c : ApiCall), R s (apiCall env s c).2
  fail : ∀ (s : Cws) (code : ℤ) (reason : Option (List Byte)) (len : ℕ),
    R s (errorClose env s code reason len)

/-- The same, where the user functions are known to make only the calls in `Made`, and the events of
the receive path count as well, except that of a complete ping. -/
structure AlongCalls (env : Env) (Made : ApiCall → Prop) (R : Cws → Cws → Prop) : Prop where
  same : ∀ {s s' : Cws}, s'.out = s.out → s'.trace = s.trace → R s s'
  note : ∀ {e : Event}, e.isReceive = true → (∀ p, e ≠ .controlFrame wsOpcodePing p) →
    ∀ s : Cws, R s (s.log e)
  trans : ∀ {s₁ s₂ s₃ : Cws}, R s₁ s₂ → R s₂ s₃ → R s₁ s₃
  api : ∀ (s : Cws) (c : ApiCall), Made c → R s (apiCall env s c).2
  user : ∀ t c, ∀ call ∈ (env.user t c).calls, Made call
  close : ∀ code, Made (.close code none 0)
  fail : ∀ (s : Cws) (code : ℤ) (reason : Option (List Byte)) (len : ℕ),
    R s (errorClose env s code reason len)

lemma out_setRecv (s : Cws) (r : Recv) : (s.setRecv r).out = s.out := rfl

lemma out_enterDispatch (s : Cws) : s.enterDispatch.out = s.out := rfl

lemma out_leaveDispatch (s : Cws) : s.leaveDispatch.out = s.out := rfl

/-- Neither the queue nor the trace is touched by an accumulation. -/
lemma same_appendFragment (s : Cws) (info : Flags) (buffer : Option (List Byte)) :
    (appendFragment s info buffer).out = s.out ∧
      (appendFragment s info buffer).trace = s.trace := by
  simp only [appendFragment]
  split_ifs <;> exact ⟨rfl, rfl⟩

/-! ### Callbacks -/

namespace AlongCalls

variable {env : Env} {Made : ApiCall → Prop} {R : Cws → Cws → Prop} (h : AlongCalls env Made R)

include h

lemma refl (s : Cws) : R s s := h.same rfl rfl

/-- Any number of calls, one after the other. -/
lemma apiCalls {calls : List ApiCall} : (∀ c ∈ calls, Made c) →
    ∀ s : Cws, R s (apiCalls env s calls) := by
  induction calls with
  | nil =>
      intro _ s
      exact h.refl s
  | cons c calls ih =>
      intro hmade s
      exact h.trans (h.api s c (hmade c List.mem_cons_self))
        (ih (fun c' hc' => hmade c' (List.mem_cons_of_mem c hc')) _)

/-- Whether a callback is guarded makes no difference here. -/
lemma guarded {g : Cws → Cws} (hg : ∀ s : Cws, R s (g s)) (s : Cws) :
    R s (g s.enterDispatch).leaveDispatch := by
  have henter : R s s.enterDispatch := h.same (out_enterDispatch s) rfl
  have hleave : R (g s.enterDispatch) (g s.enterDispatch).leaveDispatch :=
    h.same (out_leaveDispatch _) rfl
  exact h.trans (h.trans henter (hg _)) hleave

lemma processRv (s : Cws) (code : ℤ) : R s (processRv env s code) := by
  simp only [CurlWs.processRv]
  split_ifs
  · exact h.refl s
  · exact h.api s (.close code none 0) (h.close code)
  · exact h.api s (.close 1011 none 0) (h.close 1011)

/-- **A callback**, with the calls it makes and the value it returns. -/
lemma userCallback (s : Cws) (c : Callback) : R s (userCallback env s c) := by
  have hcall : R s (s.log (.callback c s.dispatching)).tick :=
    h.trans (h.note rfl (fun p hp => Event.noConfusion hp) s) (h.same rfl rfl)
  exact h.trans hcall (h.trans (h.apiCalls (h.user _ _) _) (h.processRv _ _))

lemma installed (s : Cws) (there : Bool) (c : Callback) :
    R s (if there then CurlWs.userCallback env s c else s) := by
  split_ifs
  · exact h.userCallback s c
  · exact h.refl s

lemma cbOnMessage (s : Cws) (isBinary : Bool) (buffer : Option (List Byte)) :
    R s (cbOnMessage env s isBinary buffer) := by
  cases isBinary with
  | true => exact h.installed s s.cfg.cb.onBinary _
  | false => exact h.installed s s.cfg.cb.onText _

lemma defaultOnFragment (s : Cws) (info : Flags) (buffer : Option (List Byte)) :
    R s (defaultOnFragment env s info buffer) := by
  obtain ⟨hout, htrace⟩ := same_appendFragment s info buffer
  have happend := h.same hout htrace
  simp only [CurlWs.defaultOnFragment]
  split_ifs
  · exact h.cbOnMessage ..
  · exact h.trans (h.trans happend (h.cbOnMessage ..)) (h.same rfl rfl)
  · exact happend

lemma cbOnFragment (info : Flags) (buf : Option (List Byte)) (s : Cws) :
    R s (cbOnFragment env s info buf) := by
  rw [CurlWs.cbOnFragment]
  split_ifs
  · exact h.userCallback ..
  · exact h.trans (h.note rfl (fun p hp => Event.noConfusion hp) s) (h.defaultOnFragment ..)

lemma cbOnPong (buf : List Byte) (s : Cws) : R s (cbOnPong env s buf) :=
  h.installed s s.cfg.cb.onPong _

lemma cbOnClose (code : ℤ) (text : Option (List Byte)) (len : ℕ) (s : Cws) :
    R s (cbOnClose env s code text len) :=
  h.installed s s.cfg.cb.onClose _

lemma acceptClose (s : Cws) (status : ℤ) (reason : Option (List Byte)) (len : ℕ) :
    R s (acceptClose env s status reason len) :=
  h.trans (h.cbOnClose status reason len s) (h.fail ..)

/-- **`_handle_close`**. -/
lemma handleClose (s : Cws) (len : ℕ) : R s (handleClose env s len) := by
  have hwrite : R s (s.log (.controlWrite len (len + 1))) :=
    h.note rfl (fun p hp => Event.noConfusion hp) s
  simp only [CurlWs.handleClose]
  split_ifs
  · exact h.fail ..
  · exact h.fail ..
  · exact h.trans hwrite (h.fail ..)
  · exact h.trans hwrite (h.acceptClose ..)
  · exact h.acceptClose ..

/-- One iteration of the receive loop in which no ping is completed. -/
lemma turn {s s₁ : Cws} (ht : Turn env s s₁) : R s s₁ ∨ ∃ i,
    s₁ = (cbOnPing env (s.controlDone i wsOpcodePing).enterDispatch s.recv.control).leaveDispatch := by
  have hdone (i : ℕ) {opcode : ℕ} (hop : opcode ≠ wsOpcodePing) : R s (s.controlDone i opcode) := by
    refine h.trans (h.note rfl (fun p hp => Event.noConfusion hp) s) (h.note rfl (fun p hp => ?_) _)
    exact hop (Event.controlFrame.inj hp).1
  have hpiece (p : Piece) : R s (s.log (.payload p)) :=
    h.note rfl (fun p hp => Event.noConfusion hp) s
  cases ht with
  | nothing => exact .inl (h.refl s)
  | write i => exact .inl (h.note rfl (fun p hp => Event.noConfusion hp) s)
  | ping i => exact .inr ⟨i, rfl⟩
  | pong i => exact .inl (h.trans (hdone i (by decide)) (h.guarded (h.cbOnPong _) _))
  | @close i opcode h9 h10 => exact .inl (h.trans (hdone i h9) (h.handleClose ..))
  | failed => exact .inl (h.fail ..)
  | fragment p hres =>
      refine .inl (h.trans (hpiece p) ?_)
      rw [Cws.sendFragment]
      split_ifs
      · exact h.guarded (h.cbOnFragment _ _) _
      · exact h.refl _
  | refused p hres => exact .inl (h.trans (hpiece p) (h.fail ..))

/-! ### Receiving -/

section

variable (hping : ∀ (s : Cws) (i : ℕ), R s
  (cbOnPing env (s.controlDone i wsOpcodePing).enterDispatch s.recv.control).leaveDispatch)

include hping

lemma cwsProcessFrame (s : Cws) (buf : List Byte) : R s (cwsProcessFrame env s buf).1 := by
  obtain ⟨r, s₁, hturn, hs, -⟩ := turn_processFrame env s buf
  have hR : R (s.setRecv r) s₁ := by
    rcases h.turn hturn with hR | ⟨i, rfl⟩
    · exact hR
    · exact hping _ i
  rw [hs]
  exact h.trans (h.trans (h.same (out_setRecv s r) rfl) hR) (h.same (out_setRecv s₁ _) rfl)

lemma receiveLoop (fuel : ℕ) : ∀ (s : Cws) (buf : List Byte), R s (receiveLoop env fuel s buf) := by
  induction fuel with
  | zero =>
      intro s buf
      exact h.refl s
  | succ fuel ih =>
      intro s buf
      simp only [CurlWs.receiveLoop]
      split_ifs
      · exact h.cwsProcessFrame hping ..
      · exact h.trans (h.cwsProcessFrame hping ..) (ih _ _)
      · exact h.refl s

/-- **`_receive_cb`**, where the answer to a ping is known. -/
theorem receiveCb (s : Cws) (buf : List Byte) : R s (receiveCb env s buf).2 := by
  rw [CurlWs.receiveCb]
  split_ifs
  · exact h.refl s
  · exact h.refl s
  · exact h.refl s
  · exact h.receiveLoop hping ..

end

/-! ### Headers -/

lemma processHeader (s : Cws) (line : List Byte) (status version : ℤ) :
    R s (processHeader env s line status version).2 := by
  rw [CurlWs.processHeader]
  split_ifs
  · exact h.refl s
  · exact h.guarded (h.cbOnClose _ _ _) s
  · exact h.guarded (fun s' => h.installed s' s'.cfg.cb.onConnect _) s
  · exact h.same rfl rfl
  · obtain ⟨state, hs'⟩ := foldl_runChecker line s
    rw [hs']
    exact h.same rfl rfl

/-- **`_header_cb`**. -/
theorem headerCb (s : Cws) (line : List Byte) (status version : ℤ) :
    R s (headerCb env s line status version).2 := by
  rw [CurlWs.headerCb]
  split_ifs
  · exact h.same rfl rfl
  · refine h.trans ?_ (h.processHeader ..)
    exact h.same rfl rfl
  · exact h.processHeader ..

end AlongCalls

/-! ### Receiving -/

namespace Along

variable {env : Env} {R : Cws → Cws → Prop} (h : Along env R)

include h

lemma calls : AlongCalls env (fun _ => True) R where
  same := fun hout _ => h.quiet hout
  note := fun he _ s => h.quiet (out_log_receive he s)
  trans := h.trans
  api := fun s c _ => h.api s c
  user := fun _ _ _ _ => trivial
  close := fun _ => trivial
  fail := h.fail

lemma refl (s : Cws) : R s s := h.quiet rfl

/-- What the sending side does not show may happen before. -/
lemma after {s s₁ s₂ : Cws} (hout : s₁.out = s.out) (hs : R s₁ s₂) : R s s₂ :=
  h.trans (h.quiet hout) hs

lemma cbOnPing (buf : List Byte) (s : Cws) : R s (cbOnPing env s buf) := by
  rw [CurlWs.cbOnPing]
  split_ifs
  · exact h.calls.userCallback ..
  · exact h.after (out_log_receive rfl s) (h.api _ (.pong (some buf) buf.length))

lemma ping (s : Cws) (i : ℕ) :
    R s (CurlWs.cbOnPing env (s.controlDone i wsOpcodePing).enterDispatch
      s.recv.control).leaveDispatch := by
  refine h.after ?_ (h.calls.guarded (h.cbOnPing _) _)
  rw [Cws.controlDone, out_log_receive rfl, out_log_receive rfl]

lemma cwsProcessFrame (s : Cws) (buf : List Byte) : R s (cwsProcessFrame env s buf).1 :=
  h.calls.cwsProcessFrame h.ping s buf

/-- **`_receive_cb`**. -/
theorem receiveCb (s : Cws) (buf : List Byte) : R s (receiveCb env s buf).2 :=
  h.calls.receiveCb h.ping s buf

/-- **`_header_cb`**. -/
theorem headerCb (s : Cws) (line : List Byte) (status version : ℤ) :
    R s (headerCb env s line status version).2 :=
  h.calls.headerCb s line status version

end Along

/-! ## Steps

The relation that the invariants are about. -/

/-- **`_error_close`**. -/
lemma steps_errorClose (env : Env) (s : Cws) (code : ℤ) (reason : Option (List Byte)) (len : ℕ) :
    Steps s.out (errorClose env s code reason len).out := by
  simp only [errorClose]
  split_ifs with hr
  · exact .refl
  · rw [out_unpauseSend]
    refine .head (Micro.received (Bool.eq_false_of_not_eq_true hr)) (.tail (.single ?_) .unpause)
    have h := micro_cwsClose env
      (({ s with closeState := { s.closeState with received := true } } : Cws).log
        (.closing code)).verboseClose code reason len
    rw [out_verboseClose, out_log_receive rfl] at h
    exact h

/-- Steps lead from one state to the other. -/
lemma along_steps (env : Env) : Along env fun s s' => Steps s.out s'.out where
  quiet := fun hout => steps_of_eq hout
  trans := fun h h' => h.trans h'
  api := fun s c => steps_apiCall env s c
  fail := fun s code reason len => steps_errorClose env s code reason len

/-! ## Runs

An action, a run, and what is preserved along it.  A run counts up to where its object is freed
(`Run`). -/

/-- An action is a sequence of steps, if the queue is in order. -/
theorem steps_step (env : Env) {s : Cws} (ht : Tidy s.send) (a : Action) :
    Steps s.out (step env s a).out := by
  cases a with
  | api c => exact steps_apiCall env s c
  | send len => exact steps_sendCb ht len
  | receive buf => exact (along_steps env).receiveCb s buf
  | header line status version => exact (along_steps env).headerCb s line status version

/-- **A run is a sequence of steps**, which keep the queue in order. -/
theorem steps_run (env : Env) (acts : List Action) : ∀ {s : Cws}, Tidy s.send →
    Steps s.out (run env s acts).out ∧ Tidy (run env s acts).send := by
  induction acts with
  | nil =>
      intro s ht
      exact ⟨.refl, ht⟩
  | cons a acts ih =>
      intro s ht
      have h := steps_step env ht a
      obtain ⟨hrun, ht'⟩ := ih (h.tidy ht)
      exact ⟨h.trans hrun, ht'⟩

/-- The queue of a run is in order. -/
lemma tidy_run (env : Env) (cfg : Cfg) (acts : List Action) :
    Tidy (run env (Cws.fresh cfg) acts).send :=
  (steps_run env acts tidy_nil).2

/-- What every step preserves is preserved by any number of them. -/
lemma Steps.keeps {P : Out → Prop} (hstep : ∀ {o o'}, P o → Micro o o' → P o') {o o' : Out}
    (h : Steps o o') (ho : P o) : P o' := by
  induction h with
  | refl => exact ho
  | tail _ hmicro ih => exact hstep ih hmicro

/-- **Invariants of the sending side.**  What holds at first and survives every step holds in every
state of every run. -/
theorem run_out_invariant {P : Out → Prop} {cfg : Cfg} (init : P (Cws.fresh cfg).out)
    (hstep : ∀ {o o'}, P o → Micro o o' → P o') (env : Env) (acts : List Action) :
    P (run env (Cws.fresh cfg) acts).out :=
  (steps_run env acts (s := Cws.fresh cfg) tidy_nil).1.keeps hstep init

end CurlWs
