import CurlWs.Receive.View

/-!
# What one iteration of the receive loop does

Each iteration of the loop of `_receive_cb` writes to the receive state, and does one of eight
things besides.  Everything else that is said about an iteration follows from this.

**Pieces.**  A piece is what `_process_data_frame` takes of a chunk, with the markers and the buffer
that it finds.  `Piece.Final`, `Piece.sentInfo` and `Piece.sentBytes` are what `_send_data_frame`
computes from it: whether it ends the message, and with what `on_fragment` is called.

**The eight things.**  `Turn` is stated about connections and not about views, so it has all that
the user's functions may do.  A part of a header or of a control payload, a ping, a pong, a close
frame, a failure, a piece that passes and one that is refused: each is a constructor with what the
source does there.  The bound on a control payload that `frame_validate` has checked is kept on the
way (`Recv.ControlFits`).

* **`turn_processFrame`** — one iteration, whatever state it starts from.
-/

namespace CurlWs

/-! ## Pieces

What a piece hands over, from its markers and its bytes. -/

/-- The frame ends the message, and the piece ends the frame. -/
def Piece.Final (p : Piece) : Prop := p.frame.payloadLen = p.bytes.length ∧ p.frame.fin = true

instance (p : Piece) : Decidable p.Final := inferInstanceAs (Decidable (_ ∧ _))

/-- The markers `_send_data_frame` hands to `on_fragment`. -/
def Piece.sentInfo (p : Piece) : Flags := if p.Final then p.info ||| cwsLast else p.info

/-- The pointer `_send_data_frame` hands to `on_fragment`, NULL for no bytes. -/
def Piece.sentBytes (p : Piece) : Option (List Byte) :=
  if p.result.toSend.getD [] = [] then none else p.result.toSend

lemma Piece.sentBytes_eq_none {p : Piece} :
    p.sentBytes = none ↔ p.result.toSend.getD [] = [] := by
  rw [sentBytes]
  split_ifs with hnil
  · exact ⟨fun _ => hnil, fun _ => rfl⟩
  · refine ⟨fun h => absurd ?_ hnil, fun h => absurd h hnil⟩
    rw [h]
    rfl

/-- The bytes are those of the result. -/
lemma Piece.sentBytes_getD (p : Piece) : p.sentBytes.getD [] = p.result.toSend.getD [] := by
  rw [sentBytes]
  split_ifs with hnil
  · exact hnil.symm
  · rfl

/-- A piece is taken from the front of the chunk, and no longer than the rest of its frame. -/
lemma piece_length (r : Recv) (f : CwsFrame) (buf : List Byte) :
    (r.piece f buf).bytes.length ≤ f.payloadLen ∧
      buf = (r.piece f buf).bytes ++ buf.drop (r.piece f buf).bytes.length := by
  have hlen : (r.piece f buf).bytes.length = min f.payloadLen buf.length := by
    simp only [Recv.piece, List.length_take, minSizeT_eq]
    omega
  refine ⟨hlen ▸ Nat.min_le_left .., ?_⟩
  rw [Recv.piece, List.length_take, minSizeT_eq, Nat.min_eq_left (Nat.min_le_right ..)]
  exact (List.take_append_drop _ buf).symm

/-! ## One iteration

The things an iteration can do besides writing to the receive state. -/

/-- The accumulation of a control frame is complete, its last byte at `i` or after it. -/
def Cws.controlDone (s : Cws) (i opcode : ℕ) : Cws :=
  (s.log (.controlWrite i s.recv.control.length)).log (.controlFrame opcode s.recv.control)

lemma controlDone_trace (s : Cws) (i opcode : ℕ) : (s.controlDone i opcode).trace = s.trace ++
    [.controlWrite i s.recv.control.length, .controlFrame opcode s.recv.control] :=
  List.append_assoc ..

/-- If no other control frame follows, the one that is found is the one that is complete. -/
lemma split_controlDone {i j opcode opcode' : ℕ} {p q : List Byte} {before after rest : List Event}
    (hrest : ∀ opcode q, .controlFrame opcode q ∉ rest)
    (h : .controlWrite i j :: .controlFrame opcode p :: rest
      = before ++ .controlFrame opcode' q :: after) :
    before = [.controlWrite i j] ∧ q = p ∧ after = rest := by
  rcases before with _ | ⟨e₁, _ | ⟨e₂, before⟩⟩
  · cases h
  · simp only [List.cons_append, List.nil_append, List.cons.injEq, Event.controlFrame.injEq] at h
    obtain ⟨rfl, ⟨-, rfl⟩, rfl⟩ := h
    exact ⟨rfl, rfl, rfl⟩
  · simp only [List.cons_append, List.cons.injEq] at h
    refine absurd ?_ (hrest opcode' q)
    rw [h.2.2]
    exact List.mem_append_right _ List.mem_cons_self

/-- `_send_data_frame`, once the markers and the pointer are settled. -/
def Cws.sendFragment (env : Env) (s : Cws) (info : Flags) (buffer : Option (List Byte)) : Cws :=
  if buffer ≠ none ∨ (cwsFirst ||| cwsLast) &&& info ≠ 0 then
    (cbOnFragment env s.enterDispatch info buffer).leaveDispatch
  else s

/-- What one iteration does, apart from what it writes to the receive state. -/
inductive Turn (env : Env) (s : Cws) : Cws → Prop where
  /-- Part of a header. -/
  | nothing : Turn env s s
  /-- Part of the payload of a control frame. -/
  | write (i : ℕ) : Turn env s (s.log (.controlWrite i s.recv.control.length))
  | ping (i : ℕ) :
      Turn env s (cbOnPing env (s.controlDone i 9).enterDispatch s.recv.control).leaveDispatch
  | pong (i : ℕ) :
      Turn env s (cbOnPong env (s.controlDone i 10).enterDispatch s.recv.control).leaveDispatch
  | close (i : ℕ) {opcode : ℕ} (h9 : opcode ≠ 9) (h10 : opcode ≠ 10) :
      Turn env s (handleClose env (s.controlDone i opcode) s.recv.control.length)
  | failed : Turn env s (errorClose env s 1002 none 0)
  | fragment (p : Piece) (hres : ¬ p.result.rv < 0) :
      Turn env s ((s.log (.payload p)).sendFragment env p.sentInfo p.sentBytes)
  | refused (p : Piece) (hres : p.result.rv < 0) :
      Turn env s (errorClose env (s.log (.payload p)) 1007 none 0)

/-- The part of `control.buf` in use, and what is still to come of the frame, are within it. -/
structure Recv.ControlFits (r : Recv) : Prop where
  used : r.control.length ≤ wsCtlPayloadMax
  frame : ∀ f, r.frame = some f → f.isControl = true → f.payloadLen ≤ wsCtlPayloadMax

/-- An iteration that leads from `s` to `s'` is one of these, up to the receive state. -/
def Turns (env : Env) (s s' : Cws) : Prop :=
  ∃ r s₁, Turn env (s.setRecv r) s₁ ∧ s' = s₁.setRecv s'.recv ∧
    (s.recv.ControlFits → r.control.length ≤ wsCtlPayloadMax)

/-- Two connections that differ in the receive state only. -/
lemma eq_setRecv {s s₁ : Cws} {r : Recv} (h : s = s₁.setRecv r) : s = s₁.setRecv s.recv := by
  rw [h]
  rfl

/-- The receive state may have been written to before. -/
lemma Turns.after {env : Env} {s s' : Cws} {r : Recv} (h : Turns env (s.setRecv r) s')
    (hr : s.recv.ControlFits → r.ControlFits) : Turns env s s' := by
  obtain ⟨r', s₁, hturn, hs, hfits⟩ := h
  exact ⟨r', s₁, hturn, hs, fun hs => hfits (hr hs)⟩

/-! ## The functions of `receive.c`

Each function is one of these things, from any state. -/

/-- **`_process_control_frame`**. -/
lemma turn_processControlFrame (env : Env) {s : Cws} {f : CwsFrame} (hf : s.recv.frame = some f)
    (hi : f.isControl = true) (buf : List Byte) :
    Turns env s (processControlFrame env s f buf).1 := by
  generalize hn : controlTake s.recv f buf = n
  have hle : n ≤ buf.length ∧
      (s.recv.ControlFits → s.recv.control.length + n ≤ wsCtlPayloadMax) := by
    rw [← hn, controlTake_eq]
    refine ⟨Nat.min_le_right .., fun hfits => ?_⟩
    have hused := hfits.used
    have hlen := hfits.frame f hf hi
    omega
  have hlen : s.recv.control.length + n = (s.recv.control ++ buf.take n).length := by
    rw [List.length_append, List.length_take, min_eq_left hle.1]
  simp only [processControlFrame, hn, hlen]
  rw [hlen] at hle
  refine ⟨{ s.recv with control := s.recv.control ++ buf.take n }, ?_⟩
  split_ifs with hdone hping hpong
  · rw [hping]
    exact ⟨_, .ping s.recv.control.length, rfl, hle.2⟩
  · rw [hpong]
    exact ⟨_, .pong s.recv.control.length, rfl, hle.2⟩
  · rw [← hdone]
    exact ⟨_, .close s.recv.control.length hping hpong, rfl, hle.2⟩
  · exact ⟨_, .write s.recv.control.length, rfl, hle.2⟩

/-- `_send_data_frame` settles the markers first. -/
lemma sendDataFrame_eq (env : Env) (s : Cws) (f : CwsFrame) (buffer : Option (List Byte))
    {info : Flags} (hinfo : (if f.payloadLen = 0 ∧ f.fin then s.recv.fragmentInfo ||| cwsLast
      else s.recv.fragmentInfo) = info) :
    ∃ r, sendDataFrame env s f buffer =
      ((s.setRecv { s.recv with fragmentInfo := info }).sendFragment env info
        (if buffer.getD [] = [] then none else buffer)).setRecv r := by
  simp only [sendDataFrame, hinfo]
  generalize s.setRecv { s.recv with fragmentInfo := info } = s₁
  generalize (if buffer.getD [] = [] then none else buffer) = b
  have hsend : (if b ≠ none ∨ (cwsFirst ||| cwsLast) &&& info ≠ 0 then
      (cbOnFragment env s₁.enterDispatch info b).leaveDispatch else s₁)
        = s₁.sendFragment env info b := rfl
  rw [hsend]
  split_ifs
  all_goals exact ⟨_, rfl⟩

/-- **`_process_data_frame`**. -/
lemma turn_processDataFrame (env : Env) (s : Cws) (f : CwsFrame) (buf : List Byte) :
    Turns env s (processDataFrame env s f buf).1 := by
  obtain ⟨hle, -⟩ := piece_length s.recv f buf
  simp only [processDataFrame]
  generalize hp : s.recv.piece f buf = p at hle
  split_ifs with hres
  · exact ⟨{ s.recv with utf8 := p.result.utf8 }, _, .refused p hres, rfl, fun h => h.used⟩
  · have hend : f.payloadLen - p.bytes.length = 0 ∧ f.fin = true ↔ p.Final := by
      rw [← hp] at hle ⊢
      refine and_congr_left fun _ => ?_
      change _ ↔ f.payloadLen = _
      omega
    have hinfo : (if f.payloadLen - p.bytes.length = 0 ∧ f.fin then
        s.recv.fragmentInfo ||| cwsLast else s.recv.fragmentInfo) = p.sentInfo := by
      simp only [Piece.sentInfo, hend]
      rw [← hp]
      rfl
    obtain ⟨r, hsend⟩ := sendDataFrame_eq env
      ((s.log (.payload p)).setRecv { s.recv with
        frame := some { f with payloadLen := f.payloadLen - p.bytes.length }
        utf8 := p.result.utf8 })
      { f with payloadLen := f.payloadLen - p.bytes.length } p.result.toSend hinfo
    exact ⟨{ s.recv with
      frame := some { f with payloadLen := f.payloadLen - p.bytes.length }
      utf8 := p.result.utf8
      fragmentInfo := p.sentInfo }, _, .fragment p hres, eq_setRecv hsend, fun h => h.used⟩

/-- **`_process_frame_header`**: on its way to no frame it is an iteration, and otherwise it writes
to the header buffer only. -/
lemma turn_processFrameHeader (env : Env) (s : Cws) (buf : List Byte) :
    Turns env s (processFrameHeader env s buf).2.1 ∧
      ∀ f, (processFrameHeader env s buf).1 = some f → frameValidate f .s2c = 0 ∧
        ∃ h, (processFrameHeader env s buf).2.1 = s.setRecv { s.recv with header := h } := by
  simp only [processFrameHeader]
  split_ifs with hrv hneeds hvalid
  · exact ⟨⟨_, _, .failed, rfl, fun h => h.used⟩, fun f h => absurd h (by simp)⟩
  · exact ⟨⟨s.recv, _, .nothing, rfl, fun h => h.used⟩, fun f h => absurd h (by simp)⟩
  · exact ⟨⟨_, _, .failed, rfl, fun h => h.used⟩, fun f h => absurd h (by simp)⟩
  · refine ⟨⟨s.recv, _, .nothing, rfl, fun h => h.used⟩, fun f hf => ⟨?_, _, rfl⟩⟩
    rw [← Option.some_inj.mp hf]
    exact not_not.mp hvalid

/-- The payload, once the frame is known. -/
lemma turn_processPayload (env : Env) (s : Cws) {f : CwsFrame}
    (hf : s.recv.ControlFits → f.isControl = true → f.payloadLen ≤ wsCtlPayloadMax)
    (buf : List Byte) : Turns env s (processPayload env s f buf).1 := by
  have hfits (h : s.recv.ControlFits) : { s.recv with frame := some f : Recv }.ControlFits := by
    refine ⟨h.used, fun g hg hi => ?_⟩
    obtain rfl := Option.some_inj.mp hg
    exact hf h hi
  simp only [processPayload]
  split_ifs with hi
  · exact (turn_processControlFrame env (s := s.setRecv { s.recv with frame := some f }) rfl hi
      buf).after hfits
  · exact (turn_processDataFrame env (s.setRecv { s.recv with frame := some f }) f buf).after hfits

/-- A control frame that has passed the check is short. -/
lemma payloadLen_le_of_frameValidate {f : CwsFrame} (h : frameValidate f .s2c = 0)
    (hi : f.isControl = true) : f.payloadLen ≤ wsCtlPayloadMax := by
  by_contra hlong
  simp only [frameValidate, hi, not_le.mp hlong, if_true, Bool.not_true, Bool.false_eq_true,
    if_false] at h
  split_ifs at h

/-- **One iteration of the receive loop.** -/
theorem turn_processFrame (env : Env) (s : Cws) (buf : List Byte) :
    Turns env s (cwsProcessFrame env s buf).1 := by
  simp only [cwsProcessFrame]
  cases hf : s.recv.frame with
  | some f => exact turn_processPayload env s (fun h hi => h.frame f hf hi) buf
  | none =>
      obtain ⟨hnone, hsome⟩ := turn_processFrameHeader env s buf
      generalize processFrameHeader env s buf = d at hnone hsome
      obtain ⟨f, s', rest⟩ := d
      cases f with
      | none => exact hnone
      | some f =>
          obtain ⟨hvalid, h, hs⟩ := hsome f rfl
          have hshort := payloadLen_le_of_frameValidate hvalid
          simp only at hs ⊢
          subst hs
          split_ifs
          · exact (turn_processPayload env _ (fun _ => hshort) rest).after fun h => ⟨h.1, h.2⟩
          · cases ho : openStream (s.setRecv { s.recv with header := h }).recv f with
            | none => exact ⟨_, _, .failed, rfl, fun h => h.used⟩
            | some r =>
                refine (turn_processPayload env (s.setRecv r) (fun _ => hshort) rest).after ?_
                rw [openStream] at ho
                split_ifs at ho
                all_goals
                  obtain rfl := Option.some_inj.mp ho
                  exact fun h => ⟨h.1, h.2⟩

end CurlWs
