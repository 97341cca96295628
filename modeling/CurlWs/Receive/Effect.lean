import CurlWs.Receive.Turn

/-!
# What one iteration of the receive loop does outside the receive state

Each iteration of the loop of `_receive_cb` writes its events in one of eight ways.  They are given
here in terms of the view, which the user's functions cannot change, and so is what `_header_cb`
does with a line.

**The same code, on views.**  `View.handleClose`, `View.sendFragment` and the others are the
functions of the source as far as the view shows them.  Each function of the model agrees with its
counterpart (`view_handleClose`, `view_sendFragment` and so on), whatever the user's functions do in
between.

**One inversion.**  `Effect` lists the eight ways: nothing, a part of a control payload, a ping, a
pong, a close frame, a failure, and a piece of payload that is delivered or refused.  Invariants of
the receive path are case analyses on it, and no proof about a callback unfolds the loop again.

**What is overlooked.**  Most observations of a trace see nothing but some calls.  `Overlooks` says
of such an observation what it does not see, and what it then sees of an iteration.

## Main results

* **`effect_processFrame`** — one iteration, whatever state it starts from.
* **`effect_headerCb`** — one header line.
* **`Overlooks.effect`** — an observation that overlooks the rest sees the accepted pieces.
-/

namespace CurlWs

namespace View

/-- Replace the receive state. -/
def setRecv (v : View) (r : Recv) : View := { v with recv := r }

/-- Something is done between `priv->dispatching++` and `priv->dispatching--`. -/
def guarded (v : View) (g : View → View) : View :=
  let w := g { v with dispatching := v.dispatching + 1 }
  { w with dispatching := w.dispatching - 1 }

/-- A function that is not installed leaves no event. -/
lemma call_eq (v : View) (installed : Bool) (c : Callback) :
    v.call installed c
      = { v with trace := v.trace ++ if installed then [.callback c v.dispatching] else [] } := by
  cases installed with
  | true => rfl
  | false => simp [call]

/-- Closing, as long as no close has been received. -/
lemma close_eq {v : View} (ho : v.received = false) (code : ℤ) :
    v.close code = { v with received := true, trace := v.trace ++ [.closing code] } := by
  rw [close, if_neg (by simp [ho])]
  rfl

/-- The end of `_handle_close`. -/
def acceptClose (v : View) (status : ℤ) (reason : Option (List Byte)) : View :=
  (v.call v.cfg.cb.onClose (.onClose status reason)).close (if status = 1005 then 0 else status)

/-- `_handle_close`, for the payload `p`. -/
def handleClose (v : View) (p : List Byte) : View :=
  let status : ℤ := ((p.getD 0 0).toNat <<< 8 ||| (p.getD 1 0).toNat : ℕ)
  let text := p.drop 2
  if p.length = 1 then v.close 1002
  else if 1 < p.length then
    if !isCloseCodeValid status then v.close 1002
    else
      let v := v.log (.controlWrite p.length (p.length + 1))
      if utf8Validate text ≠ some text.length then v.close 1007
      else v.acceptClose status (closeReason (some text) text.length)
  else v.acceptClose 1005 none

/-- `_send_data_frame`, once the markers and the pointer are settled. -/
def sendFragment (v : View) (info : Flags) (buffer : Option (List Byte)) : View :=
  if buffer ≠ none ∨ (cwsFirst ||| cwsLast) &&& info ≠ 0 then
    v.guarded fun w => w.onFragment info buffer
  else v

end View

/-- What one iteration does, apart from the receive state. -/
inductive Effect (v : View) : View → Prop where
  /-- Part of a header, or of a control payload that is not complete. -/
  | nothing : Effect v v
  | write (i j : ℕ) : Effect v (v.log (.controlWrite i j))
  | ping (i j : ℕ) (p : List Byte) :
      Effect v (((v.log (.controlWrite i j)).log (.controlFrame 9 p)).guarded fun w =>
        w.log (.callback (.onPing p) w.dispatching))
  | pong (i j : ℕ) (p : List Byte) :
      Effect v (((v.log (.controlWrite i j)).log (.controlFrame 10 p)).guarded fun w =>
        w.call w.cfg.cb.onPong (.onPong p))
  | close (i j : ℕ) {opcode : ℕ} (h9 : opcode ≠ 9) (h10 : opcode ≠ 10) (p : List Byte) :
      Effect v (((v.log (.controlWrite i j)).log (.controlFrame opcode p)).handleClose p)
  | failed : Effect v (v.close 1002)
  | fragment (p : Piece) (hres : ¬ p.result.rv < 0) :
      Effect v ((v.log (.payload p)).sendFragment p.sentInfo p.sentBytes)
  | refused (p : Piece) (hres : p.result.rv < 0) : Effect v ((v.log (.payload p)).close 1007)

/-- What the stream does not change. -/
def View.fixed (v : View) : Cfg × HeaderMap := (v.cfg, v.headerState)

section
variable (v : View)

@[simp] lemma View.fixed_log (e : Event) : (v.log e).fixed = v.fixed := rfl

/-- Closing a connection changes neither. -/
@[simp] lemma View.fixed_close (code : ℤ) : (v.close code).fixed = v.fixed := by
  rw [close]
  split_ifs <;> rfl

@[simp] lemma View.fixed_call (installed : Bool) (c : Callback) :
    (v.call installed c).fixed = v.fixed := by
  rw [call_eq]
  rfl

@[simp] lemma View.fixed_message (isBinary : Bool) (buffer : Option (List Byte)) :
    (v.message isBinary buffer).fixed = v.fixed := by
  rw [message]
  split_ifs <;> exact fixed_call ..

@[simp] lemma View.fixed_append (info : Flags) (buffer : Option (List Byte)) :
    (v.append info buffer).fixed = v.fixed := by
  simp only [append]
  split_ifs <;> rfl

lemma View.fixed_defaultOnFragment (info : Flags) (buffer : Option (List Byte)) :
    (v.defaultOnFragment info buffer).fixed = v.fixed := by
  simp only [defaultOnFragment]
  split_ifs
  · exact fixed_message ..
  · exact (fixed_message ..).trans (fixed_append ..)
  · exact fixed_append ..

@[simp] lemma View.fixed_onFragment (info : Flags) (buffer : Option (List Byte)) :
    (v.onFragment info buffer).fixed = v.fixed := by
  simp only [onFragment]
  split_ifs
  · rfl
  · exact fixed_defaultOnFragment ..

@[simp] lemma View.fixed_sendFragment (info : Flags) (buffer : Option (List Byte)) :
    (v.sendFragment info buffer).fixed = v.fixed := by
  rw [sendFragment]
  split_ifs
  · exact fixed_onFragment { v with dispatching := v.dispatching + 1 } info buffer
  · rfl

@[simp] lemma View.fixed_handleClose (p : List Byte) : (v.handleClose p).fixed = v.fixed := by
  simp only [handleClose, acceptClose]
  split_ifs <;> simp

end

/-- The configuration and the handshake are left alone. -/
lemma Effect.fixed {v w : View} (h : Effect v w) : w.fixed = v.fixed := by
  cases h with
  | pong i j p =>
      exact View.fixed_call
        { (v.log (.controlWrite i j)).log (.controlFrame 10 p) with
          dispatching := v.dispatching + 1 } _ _
  | close => exact View.fixed_handleClose ..
  | failed => exact View.fixed_close ..
  | fragment => exact View.fixed_sendFragment ..
  | refused => exact View.fixed_close ..
  | _ => rfl

lemma Effect.cfg {v w : View} (h : Effect v w) : w.cfg = v.cfg := congrArg Prod.fst h.fixed

/-! ## The functions of `receive.c`

Each function of the model, seen as a function of views. -/

lemma view_enterDispatch (s : Cws) :
    s.enterDispatch.view = { s.view with dispatching := s.view.dispatching + 1 } := rfl

lemma view_leaveDispatch (s : Cws) :
    s.leaveDispatch.view = { s.view with dispatching := s.view.dispatching - 1 } := rfl

/-- Calling a user function between the two changes of `dispatching`. -/
lemma view_guarded {g : Cws → Cws} {h : View → View} (hg : ∀ s, (g s).view = h s.view) (s : Cws) :
    (g s.enterDispatch).leaveDispatch.view = s.view.guarded h := by
  rw [view_leaveDispatch, hg, view_enterDispatch]
  rfl

lemma view_guarded_ping (env : Env) (s : Cws) (p : List Byte) :
    (cbOnPing env s.enterDispatch p).leaveDispatch.view
      = s.view.guarded fun w => w.log (.callback (.onPing p) w.dispatching) :=
  @view_guarded (cbOnPing env · p) (fun w => w.log (.callback (.onPing p) w.dispatching))
    (fun s => view_cbOnPing env s p) s

lemma view_guarded_pong (env : Env) (s : Cws) (p : List Byte) :
    (cbOnPong env s.enterDispatch p).leaveDispatch.view
      = s.view.guarded fun w => w.call w.cfg.cb.onPong (.onPong p) :=
  @view_guarded (cbOnPong env · p) (fun w => w.call w.cfg.cb.onPong (.onPong p))
    (fun s => view_cbOnPong env s p) s

lemma view_guarded_fragment (env : Env) (s : Cws) (info : Flags) (buffer : Option (List Byte)) :
    (cbOnFragment env s.enterDispatch info buffer).leaveDispatch.view
      = s.view.guarded fun w => w.onFragment info buffer :=
  @view_guarded (cbOnFragment env · info buffer) (fun w => w.onFragment info buffer)
    (fun s => view_cbOnFragment env s info buffer) s

/-- **`_handle_close`** on views: the payload is the one in the buffer. -/
lemma view_handleClose (env : Env) (s : Cws) {len : ℕ} (hlen : s.recv.control.length = len) :
    (handleClose env s len).view = s.view.handleClose s.recv.control := by
  subst hlen
  have haccept (s : Cws) (status : ℤ) (reason : Option (List Byte)) (len : ℕ) :
      (acceptClose env s status reason len).view
        = s.view.acceptClose status (closeReason reason len) := by
    rw [acceptClose, view_errorClose, view_cbOnClose]
    rfl
  have htext : (s.recv.control.drop 2).take (s.recv.control.length - 2) = s.recv.control.drop 2 :=
    List.take_of_length_le (List.length_drop ..).le
  simp only [handleClose, View.handleClose, htext, List.length_drop]
  split_ifs
  · exact view_errorClose ..
  · exact view_errorClose ..
  · rw [view_errorClose, view_log rfl]
  · rw [haccept, view_log rfl]
  · exact haccept ..

/-- A control frame that is complete leaves a write and a record. -/
lemma view_controlDone (s : Cws) (i opcode : ℕ) : (s.controlDone i opcode).view
    = (s.view.log (.controlWrite i s.recv.control.length)).log
      (.controlFrame opcode s.recv.control) := by
  rw [Cws.controlDone, view_log rfl, view_log rfl]

/-- **The end of `_send_data_frame`** on views. -/
lemma view_sendFragment (env : Env) (s : Cws) (info : Flags) (buffer : Option (List Byte)) :
    (s.sendFragment env info buffer).view = s.view.sendFragment info buffer := by
  rw [Cws.sendFragment, View.sendFragment, apply_ite Cws.view, view_guarded_fragment]

/-- What an iteration does, as the view shows it. -/
theorem Turn.effect {env : Env} {s s₁ : Cws} (h : Turn env s s₁) : Effect s.view s₁.view := by
  cases h with
  | nothing => exact .nothing
  | write i =>
      rw [view_log rfl]
      exact .write i _
  | ping i =>
      rw [view_guarded_ping, view_controlDone]
      exact .ping i _ _
  | pong i =>
      rw [view_guarded_pong, view_controlDone]
      exact .pong i _ _
  | @close i opcode h9 h10 =>
      have hclose := view_handleClose env (s.controlDone i opcode) rfl
      rw [view_controlDone] at hclose
      exact hclose ▸ .close i _ h9 h10 _
  | failed =>
      rw [view_errorClose]
      exact .failed
  | fragment p hres =>
      rw [view_sendFragment, view_log rfl]
      exact .fragment p hres
  | refused p hres =>
      rw [view_errorClose, view_log rfl]
      exact .refused p hres

/-- **One iteration of the receive loop.** -/
theorem effect_processFrame (env : Env) (s : Cws) (buf : List Byte) :
    ∃ r w, Effect (s.view.setRecv r) w ∧
      (cwsProcessFrame env s buf).1.view = w.setRecv (cwsProcessFrame env s buf).1.recv := by
  obtain ⟨r, s₁, hturn, hs, -⟩ := turn_processFrame env s buf
  exact ⟨r, s₁.view, hturn.effect, congrArg Cws.view hs⟩

/-! ## Header lines

A line is noted, or it ends the handshake and a user function is told. -/

/-- What a header line does: it is noted in `header_state`, or the user is told how the handshake
ended. -/
inductive HeaderEffect (v : View) : View → Prop where
  | noted (h : HeaderMap) : HeaderEffect v { v with headerState := h }
  | told (h : HeaderMap) (installed : Bool) (c : Callback)
      (hc : (∃ code reason, c = .onClose code reason) ∨ ∃ protocols, c = .onConnect protocols) :
      HeaderEffect v (({ v with headerState := h } : View).guarded fun w => w.call installed c)

/-- A line may note something before it has its effect. -/
lemma HeaderEffect.after {v w : View} {h : HeaderMap}
    (he : HeaderEffect { v with headerState := h } w) : HeaderEffect v w := by
  cases he with
  | noted h' => exact .noted h'
  | told h' installed c hc => exact .told h' installed c hc

/-- A line that is not the end of a redirection. -/
lemma effect_processHeader (env : Env) (s : Cws) (line : List Byte) (status version : ℤ) :
    HeaderEffect s.view (processHeader env s line status version).2.view := by
  simp only [processHeader]
  split_ifs
  · exact .noted s.headerState
  · rw [@view_guarded (cbOnClose env · 1011 (some notAccepted) sizeMax)
      (fun v => v.call v.cfg.cb.onClose (.onClose 1011 (closeReason (some notAccepted) sizeMax)))
      fun s => view_cbOnClose env s 1011 (some notAccepted) sizeMax]
    exact .told s.headerState s.cfg.cb.onClose _ (.inl ⟨_, _, rfl⟩)
  · rw [@view_guarded (cbOnConnect env · s.headerState.wsProtocolsReceived)
      (fun v => v.call v.cfg.cb.onConnect (.onConnect s.headerState.wsProtocolsReceived))
      fun s' => view_cbOnConnect env s' s.headerState.wsProtocolsReceived]
    exact .told s.headerState s.cfg.cb.onConnect _ (.inr ⟨_, rfl⟩)
  · exact .noted _
  · obtain ⟨h, hs'⟩ := foldl_runChecker line s
    rw [hs']
    exact .noted h

/-- **One header line.** -/
theorem effect_headerCb (env : Env) (s : Cws) (line : List Byte) (status version : ℤ) :
    HeaderEffect s.view (headerCb env s line status version).2.view := by
  rw [headerCb]
  split_ifs
  · exact .noted _
  · have hplain := effect_processHeader env
      { s with headerState := { s.headerState with redirection := false } } line status version
    exact @HeaderEffect.after s.view _ { s.headerState with redirection := false } hplain
  · exact effect_processHeader env s line status version

/-! ## What is overlooked

Observations of the trace that look at calls of `on_fragment` or at calls from headers. -/

/-- An observation that sees nothing of the stream but calls of `on_fragment`. -/
structure Overlooks {β : Type*} (f : Event → Option β) : Prop where
  payload : ∀ p, f (.payload p) = none
  closing : ∀ code, f (.closing code) = none
  frame : ∀ opcode p, f (.controlFrame opcode p) = none
  write : ∀ i j, f (.controlWrite i j) = none
  call : ∀ c d, (∀ protocols, c ≠ .onConnect protocols) → (∀ info b, c ≠ .onFragment info b) →
    f (.callback c d) = none

namespace Overlooks

variable {β : Type*} {f : Event → Option β} (v : View)

lemma log {e : Event} (he : f e = none) : (v.log e).trace.filterMap f = v.trace.filterMap f := by
  rw [View.log, List.filterMap_append, List.filterMap_cons_none he, List.filterMap_nil,
    List.append_nil]

/-- A call that is not seen, whether it is made or not. -/
lemma installed {c : Callback} (hc : ∀ d, f (.callback c d) = none) (installed : Bool) :
    (v.call installed c).trace.filterMap f = v.trace.filterMap f := by
  rw [View.call]
  split_ifs
  · exact log v (hc _)
  · rfl

variable (hf : Overlooks f)
include hf

/-- Closing the connection is not seen. -/
lemma close (code : ℤ) : (v.close code).trace.filterMap f = v.trace.filterMap f := by
  rw [View.close]
  split_ifs
  · rfl
  · exact log { v with received := true } (hf.closing code)

lemma acceptClose (status : ℤ) (reason : Option (List Byte)) :
    (v.acceptClose status reason).trace.filterMap f = v.trace.filterMap f := by
  rw [View.acceptClose, hf.close]
  refine installed v (fun d => hf.call _ d ?_ ?_) _
  · intro protocols h
    cases h
  · intro info b h
    cases h

lemma handleClose (p : List Byte) :
    (v.handleClose p).trace.filterMap f = v.trace.filterMap f := by
  simp only [View.handleClose]
  split_ifs
  · exact hf.close ..
  · exact hf.close ..
  · rw [hf.close, log _ (hf.write ..)]
  · rw [hf.acceptClose, log _ (hf.write ..)]
  · exact hf.acceptClose ..

lemma message (isBinary : Bool) (buffer : Option (List Byte)) :
    (v.message isBinary buffer).trace.filterMap f = v.trace.filterMap f := by
  have hcall (c : Callback) (hc : c = .onBinary buffer ∨ c = .onText buffer) (d : UInt8) :
      f (.callback c d) = none := by
    rcases hc with rfl | rfl
    · exact hf.call _ d (fun _ h => by cases h) (fun _ _ h => by cases h)
    · exact hf.call _ d (fun _ h => by cases h) (fun _ _ h => by cases h)
  rw [View.message]
  split_ifs
  · exact installed v (hcall _ (.inl rfl)) _
  · exact installed v (hcall _ (.inr rfl)) _

/-- The default handler calls other functions only. -/
lemma defaultOnFragment (info : Flags) (buffer : Option (List Byte)) :
    (v.defaultOnFragment info buffer).trace.filterMap f = v.trace.filterMap f := by
  have happend : (v.append info buffer).trace = v.trace := by
    simp only [View.append]
    split_ifs <;> rfl
  simp only [View.defaultOnFragment]
  split_ifs
  · exact hf.message ..
  · show ((v.append info buffer).message _ _).trace.filterMap f = _
    rw [hf.message, happend]
  · rw [happend]

/-- Of a piece, at most its call of `on_fragment` is seen. -/
lemma sendFragment (info : Flags) (buffer : Option (List Byte)) :
    (v.sendFragment info buffer).trace.filterMap f = v.trace.filterMap f ++
      if buffer ≠ none ∨ (cwsFirst ||| cwsLast) &&& info ≠ 0 then
        (f (.callback (.onFragment info buffer) (v.dispatching + 1))).toList
      else [] := by
  have hlog (v' : View) (ht : v'.trace = v.trace) (e : Event) :
      (v'.log e).trace.filterMap f = v.trace.filterMap f ++ (f e).toList := by
    rw [View.log, List.filterMap_append, ht, List.filterMap_cons, List.filterMap_nil]
    cases f e <;> rfl
  rw [View.sendFragment]
  split_ifs
  · simp only [View.guarded, View.onFragment]
    split_ifs
    · exact hlog _ rfl _
    · rw [hf.defaultOnFragment]
      exact hlog _ rfl _
  · rw [List.append_nil]

/-- **One iteration**: what is seen of it is seen of an accepted piece. -/
theorem effect {v w : View} (h : Effect v w) :
    (∃ p : Piece, ¬ p.result.rv < 0 ∧
        w = (v.log (.payload p)).sendFragment p.sentInfo p.sentBytes) ∨
      w.trace.filterMap f = v.trace.filterMap f := by
  have hcall {c : Callback} (hc : (∃ p, c = .onPing p) ∨ ∃ p, c = .onPong p) (d : UInt8) :
      f (.callback c d) = none := by
    rcases hc with ⟨p, rfl⟩ | ⟨p, rfl⟩
    · exact hf.call _ d (fun _ h => by cases h) (fun _ _ h => by cases h)
    · exact hf.call _ d (fun _ h => by cases h) (fun _ _ h => by cases h)
  cases h with
  | nothing => exact .inr rfl
  | write i j => exact .inr (log v (hf.write i j))
  | ping i j p =>
      refine .inr ((log _ (hcall (.inl ⟨p, rfl⟩) _)).trans ?_)
      show ((v.log (.controlWrite i j)).log (.controlFrame 9 p)).trace.filterMap f = _
      rw [log _ (hf.frame ..), log _ (hf.write ..)]
  | pong i j p =>
      refine .inr ((installed _ (hcall (.inr ⟨p, rfl⟩)) _).trans ?_)
      show ((v.log (.controlWrite i j)).log (.controlFrame 10 p)).trace.filterMap f = _
      rw [log _ (hf.frame ..), log _ (hf.write ..)]
  | close i j _ _ p =>
      refine .inr ?_
      rw [hf.handleClose, log _ (hf.frame ..), log _ (hf.write ..)]
  | failed => exact .inr (hf.close v 1002)
  | fragment p hres => exact .inl ⟨p, hres, rfl⟩
  | refused p _ =>
      refine .inr ?_
      rw [hf.close, log _ (hf.payload p)]

end Overlooks

end CurlWs
