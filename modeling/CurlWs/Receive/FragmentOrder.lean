import CurlWs.Handshake.Headers
import CurlWs.Library.Fragments
import CurlWs.Receive.CloseFrame
import CurlWs.Receive.Reading

/-!
# The order of the fragments

`_cws_process_frame` sets the markers of a message and `_send_data_frame` edits them piece by piece.
Each call of `on_fragment` is compared with the piece of payload it comes from, and their sequence
with the grammar in the documentation of `on_fragment`.

**The grammar.**  A message is one call with both markers, or a first call, calls with neither, and
a last one, each after the first marked as a continuation.  `fragmentGrammar` is this in the terms
of `Fragments`, where a sequence of calls is read letter by letter with one bit of state: whether a
message has begun.

**Pieces.**  A piece is what an iteration takes of the payload of a data frame.  It leads to a call
if it is accepted and has something to say (`Piece.calls`).  `FitsPiece` relates a call and its
piece: the opcode of the frame, the end of the message, the bytes, and NULL for none.

**One step, every run.**  The bit of the grammar is whether the reader of the events has a message
in progress, so that an iteration which delivers a piece appends one letter that the grammar admits
(`reads_finalInfo`, `InOrder.piece`), and any other leaves the calls as they are (`InOrder.quiet`).

## Main results

* **`pieces_processFrame`** — one iteration takes at most one piece, and a piece that begins a
  message belongs to a frame that does.
* **`fragments_in_order`** — whole runs.
-/

namespace CurlWs

open Fragments WebSocket

/-- The markers `on_fragment` is documented to be called with. -/
def fragmentGrammar : Grammar Flags where
  whole := {cwsFirst ||| cwsText ||| cwsLast, cwsFirst ||| cwsBinary ||| cwsLast}
  first := {cwsFirst ||| cwsText, cwsFirst ||| cwsBinary}
  middle := {cwsCont}
  last := {cwsCont ||| cwsLast}

/-- A call of `on_fragment`, with the bytes or NULL. -/
def Event.fragmentCall : Event → Option (Flags × Option (List Byte))
  | .callback (.onFragment info buffer) _ => some (info, buffer)
  | _ => none

/-- The calls of `on_fragment`. -/
def onFragments (trace : List Event) : List (Flags × Option (List Byte)) :=
  trace.filterMap Event.fragmentCall

/-- The piece leads to a call: it is accepted, and it has bytes to deliver, or it is the first or
the last of its message. -/
def Piece.calls (p : Piece) : Bool :=
  ¬ p.result.rv < 0 ∧
    (p.result.toSend.getD [] ≠ [] ∨ cwsFirst &&& p.info ≠ 0 ∨ p.Final)

/-- A call of `on_fragment` fits the piece it comes from. -/
structure FitsPiece (p : Piece) (call : Flags × Option (List Byte)) : Prop where
  data : p.frame.isControl = false
  first : cwsFirst &&& call.1 ≠ 0 →
    p.frame.opcode = wsOpcodeText ∧ cwsText &&& call.1 ≠ 0 ∨
      p.frame.opcode = wsOpcodeBinary ∧ cwsBinary &&& call.1 ≠ 0
  last : cwsLast &&& call.1 ≠ 0 ↔ p.Final
  bytes : call.2.getD [] = p.result.toSend.getD []
  null : call.2 = none ↔ call.2.getD [] = []

/-! ## The opcode of a piece

The markers and the stream type are set by the frame, which may be some iterations ago. -/

/-- A piece that begins a message belongs to a frame that does. -/
structure Piece.Opens (p : Piece) : Prop where
  data : p.frame.isControl = false
  first : cwsFirst &&& p.info ≠ 0 →
    p.frame.opcode = wsOpcodeText ∧ p.stream = cwsText ∨
      p.frame.opcode = wsOpcodeBinary ∧ p.stream = cwsBinary

/-- A message that has begun is not begun again. -/
lemma Ready.not_first {r : Recv} {S : Seen} {k : Kind} {d : List Byte} (h : Ready r S k true d) :
    ¬ cwsFirst &&& r.fragmentInfo ≠ 0 := by
  rw [h.fragmentInfo]
  intro hfirst
  exact Bool.noConfusion ((first_finalInfo k true false).mp hfirst)

/-- The markers say that a message begins only if the frame says so. -/
lemma openStream_first {r r' : Recv} {S : Seen} {f : CwsFrame} (hstream : Stream r S)
    (h : openStream r f = some r') (hfirst : cwsFirst &&& r'.fragmentInfo ≠ 0) :
    f.opcode = wsOpcodeText ∧ r'.streamType = cwsText ∨
      f.opcode = wsOpcodeBinary ∧ r'.streamType = cwsBinary := by
  rw [openStream] at h
  split_ifs at h with hbinary htext hcont
  · obtain rfl := Option.some.inj h
    exact .inr ⟨hbinary.2, rfl⟩
  · obtain rfl := Option.some.inj h
    exact .inl ⟨htext.2, rfl⟩
  · obtain rfl := Option.some.inj h
    cases hstream with
    | idle hs _ _ _ => exact absurd hs hcont.1
    | @inside k d hready =>
        refine absurd ?_ hready.not_first
        have hinfo := hready.fragmentInfo
        simp only [hinfo] at hfirst ⊢
        cases k <;> exact hfirst

/-- `_process_data_frame` takes one piece, whatever becomes of it. -/
lemma pieces_processDataFrame {s : Cws} (ho : s.closeState.received = false) (env : Env)
    (f : CwsFrame) (buf : List Byte) :
    (processDataFrame env s f buf).1.core.pieces = s.core.pieces ++ [s.recv.piece f buf] := by
  by_cases hres : (s.recv.piece f buf).result.rv < 0
  · obtain ⟨-, hcore⟩ := core_processDataFrame_refused ho hres env
    rw [hcore]
  · simp only [processDataFrame, if_neg hres]
    generalize hs₁ : (s.log (.payload (s.recv.piece f buf))).setRecv _ = s₁
    have hlog : s₁.core.pieces = s.core.pieces ++ [s.recv.piece f buf] := by
      rw [← hs₁, core_setRecv, core_log_payload]
    obtain ⟨r, hsend⟩ := sendDataFrame_eq env s₁
      { f with payloadLen := f.payloadLen - (s.recv.piece f buf).bytes.length }
      (s.recv.piece f buf).result.toSend rfl
    rw [← hlog, hsend, core_setRecv, Cws.core, view_sendFragment]
    exact (View.core_sendFragment ..).2

lemma pieces_processControlFrame {s : Cws} (ho : s.closeState.received = false) (env : Env)
    (f : CwsFrame) (buf : List Byte) :
    (processControlFrame env s f buf).1.core.pieces = s.core.pieces := by
  obtain ⟨-, hcore⟩ := core_processControlFrame ho env f buf
  rcases hcore with ⟨-, hcore⟩ | ⟨-, -, hcore⟩ | ⟨-, -, hcore⟩
  · rw [hcore]
  · rw [hcore]
  · rw [hcore]

/-- The payload of a frame whose markers have been set. -/
lemma pieces_processPayload {s : Cws} {f : CwsFrame} (ho : s.closeState.received = false)
    (hfirst : f.isControl = false → cwsFirst &&& s.recv.fragmentInfo ≠ 0 →
      f.opcode = wsOpcodeText ∧ s.recv.streamType = cwsText ∨
        f.opcode = wsOpcodeBinary ∧ s.recv.streamType = cwsBinary) (env : Env) (buf : List Byte) :
    ∃ ps, (processPayload env s f buf).1.core.pieces = s.core.pieces ++ ps ∧
      ∀ p ∈ ps, p.Opens := by
  simp only [processPayload]
  split_ifs with hi
  · refine ⟨[], ?_, fun p hp => absurd hp List.not_mem_nil⟩
    rw [List.append_nil]
    exact pieces_processControlFrame (s := s.setRecv { s.recv with frame := some f }) ho env f buf
  · have hi' : f.isControl = false := Bool.eq_false_of_not_eq_true hi
    refine ⟨[s.recv.piece f buf], ?_, fun p hp => ?_⟩
    · exact pieces_processDataFrame (s := s.setRecv { s.recv with frame := some f }) ho env f buf
    · rw [List.mem_singleton] at hp
      rw [hp]
      exact ⟨hi', hfirst hi'⟩

/-- **One iteration** takes pieces of such frames only. -/
theorem pieces_processFrame {s : Cws} {buf : List Byte} (ho : s.closeState.received = false)
    (hshape : Shape s.core) (hbuf : buf ≠ []) (env : Env) :
    ∃ ps, (cwsProcessFrame env s buf).1.core.pieces = s.core.pieces ++ ps ∧ ∀ p ∈ ps, p.Opens := by
  obtain ⟨hpend, hstream, hheld, -⟩ := hshape
  simp only [core_recv] at hpend hstream hheld
  have hquiet {s' : Cws} (h : s'.core.pieces = s.core.pieces) :
      ∃ ps, s'.core.pieces = s.core.pieces ++ ps ∧ ∀ p ∈ ps, p.Opens :=
    ⟨[], by rw [h, List.append_nil], fun p hp => absurd hp List.not_mem_nil⟩
  cases hf : s.recv.frame with
  | some f =>
      simp only [cwsProcessFrame, hf]
      refine pieces_processPayload ho (fun hi hfirst => ?_) env buf
      -- a data frame is held only inside a message
      cases hheld with
      | nothing hf' _ => exact absurd (hf.symm.trans hf') (Option.some_ne_none f)
      | control hf' hi' _ _ _ =>
          obtain rfl := Option.some.inj (hf.symm.trans hf')
          exact absurd (hi.symm.trans hi') Bool.false_ne_true
      | data _ _ _ _ hopen _ =>
          cases hstream with
          | idle _ _ hnone _ => exact absurd hnone hopen
          | inside hready =>
              cases hready with
              | next hs hi hc hm => exact absurd hfirst (Ready.next hs hi hc hm).not_first
  | none =>
      have hst := headerStage ho hpend hbuf env
      simp only [cwsProcessFrame, hf]
      generalize processFrameHeader env s buf = r at hst
      cases hst with
      | pending => exact hquiet rfl
      | failed hcore => exact hquiet (by rw [hcore])
      | @complete f x rest hsplit hx hvalid hcontrol hparse =>
          generalize hs₁ : s.setRecv { s.recv with header := {} } = s₁
          have hs₁' : s₁.core.pieces = s.core.pieces ∧ s₁.closeState.received = false := by
            rw [← hs₁]
            exact ⟨rfl, ho⟩
          simp only
          split_ifs with hi
          · rw [← hs₁'.1]
            exact pieces_processPayload hs₁'.2
              (fun hi' => absurd (hi'.symm.trans hi) Bool.false_ne_true) env rest
          · cases hopen : openStream s₁.recv f with
            | none =>
                refine hquiet ?_
                rw [core_errorClose hs₁'.2]
                exact hs₁'.1
            | some r' =>
                rw [← hs₁'.1]
                refine pieces_processPayload (s := s₁.setRecv r') hs₁'.2
                  (fun _ hfirst => openStream_first (S := s.core.seen) ?_ hopen hfirst) env rest
                rw [← hs₁]
                exact hstream.congr rfl rfl rfl rfl (List.Subset.refl _)

/-- Nothing else in the stream is such a call. -/
lemma overlooks_fragmentCall : Overlooks Event.fragmentCall where
  payload _ := rfl
  closing _ := rfl
  frame _ _ := rfl
  write _ _ := rfl
  call c d _ hc := by
    cases c with
    | onFragment info buffer => exact absurd rfl (hc info buffer)
    | _ => rfl

/-- An iteration that leaves the connection open takes an accepted piece, or none. -/
lemma Effect.piece_or_quiet {v w : View} (ho : v.received = false) (h : Effect v w)
    (hw : w.received = false) :
    (∃ p : Piece, ¬ p.result.rv < 0 ∧
        w = (v.log (.payload p)).sendFragment p.sentInfo p.sentBytes) ∨
      dataPieces w.trace = dataPieces v.trace := by
  have hpieces (x y : List Event) : dataPieces (x ++ y) = dataPieces x ++ dataPieces y :=
    List.filterMap_append
  have hclose (u : View) (hu : u.received = false) (code : ℤ) :
      ¬ (u.close code).received = false := by
    rw [View.close_eq hu]
    exact Bool.noConfusion
  cases h with
  | nothing => exact .inr rfl
  | write i j =>
      rw [View.log, hpieces]
      exact .inr (List.append_nil _)
  | ping i j p =>
      simp only [View.guarded, View.log, hpieces]
      simp [dataPieces]
  | pong i j p =>
      simp only [View.guarded, View.call_eq, View.log, hpieces]
      split_ifs <;> simp [dataPieces]
  | @close i j opcode h9 h10 p =>
      obtain ⟨ws, -, heq⟩ := @handleClose_eq
        ((v.log (.controlWrite i j)).log (.controlFrame opcode p)) ho p
      rw [heq] at hw
      exact Bool.noConfusion hw
  | failed => exact absurd hw (hclose v ho 1002)
  | fragment p hres => exact .inl ⟨p, hres, rfl⟩
  | refused p hres => exact absurd hw (hclose (v.log (.payload p)) ho 1007)

/-! ## One iteration

Calls, pieces and the message in progress are kept in step. -/

/-- The calls are in order, and each comes from its piece. -/
structure InOrder (v : View) : Prop where
  reads : fragmentGrammar.Reads ((onFragments v.trace).map Prod.fst) v.seen.current.isSome
  fits : List.Forall₂ FitsPiece ((dataPieces v.trace).filter Piece.calls) (onFragments v.trace)

/-- The receive state plays no part. -/
lemma inOrder_setRecv {v : View} (r : Recv) : InOrder (v.setRecv r) ↔ InOrder v :=
  ⟨fun h => ⟨h.reads, h.fits⟩, fun h => ⟨h.reads, h.fits⟩⟩

/-- Nothing is called. -/
lemma InOrder.quiet {v w : View} (h : InOrder v)
    (hcalls : onFragments w.trace = onFragments v.trace)
    (hopen : w.seen.current.isSome = v.seen.current.isSome)
    (hpieces : (dataPieces w.trace).filter Piece.calls = (dataPieces v.trace).filter Piece.calls) :
    InOrder w := by
  refine ⟨?_, ?_⟩
  · rw [hcalls, hopen]
    exact h.reads
  · rw [hcalls, hpieces]
    exact h.fits

/-- The markers of a piece continue the sequence. -/
lemma reads_finalInfo {w : List Flags} {begun : Bool} (h : fragmentGrammar.Reads w begun) (k : Kind)
    (last : Bool) : fragmentGrammar.Reads (w ++ [finalInfo k begun last]) (!last) := by
  have hwhole : finalInfo k false true ∈ fragmentGrammar.whole := by
    cases k
    · exact .inl rfl
    · exact .inr rfl
  have hfirst : finalInfo k false false ∈ fragmentGrammar.first := by
    cases k
    · exact .inl rfl
    · exact .inr rfl
  cases begun with
  | false =>
      cases last with
      | true => exact h.whole hwhole
      | false => exact h.first hfirst
  | true =>
      cases last with
      | true => exact h.last rfl
      | false => exact h.middle rfl

/-- A message is in progress exactly if it has begun. -/
lemma Ready.isSome_current {r : Recv} {S : Seen} {k : Kind} {begun : Bool} {d : List Byte}
    (h : Ready r S k begun d) : S.current.isSome = begun := by
  cases h with
  | first _ _ hc _ => rw [hc]; rfl
  | next _ _ hc _ => rw [hc]; rfl

section
variable {p : Piece} {k : Kind} {begun : Bool}

/-- The condition `_send_data_frame` makes the call under. -/
lemma calls_iff (hinfo : p.info = pieceInfo k begun) (hres : ¬ p.result.rv < 0) :
    p.calls = true ↔ p.sentBytes ≠ none ∨ (cwsFirst ||| cwsLast) &&& p.sentInfo ≠ 0 := by
  have hfirst : cwsFirst &&& p.info ≠ 0 ↔ begun = false := by
    rw [hinfo]
    exact first_finalInfo k begun false
  have hmust : (cwsFirst ||| cwsLast) &&& p.sentInfo ≠ 0 ↔ begun = false ∨ p.Final := by
    rw [Piece.sentInfo_eq hinfo, mustCall_finalInfo, not_and_or, Bool.not_eq_true,
      decide_eq_false_iff_not, not_not]
  rw [Piece.calls, decide_eq_true_iff, hmust, hfirst, and_iff_right hres]
  exact or_congr_left (not_congr Piece.sentBytes_eq_none.symm)

/-- The call fits the piece. -/
lemma fitsPiece_sent (hopens : p.Opens) (hstream : p.stream = kindFlag k)
    (hinfo : p.info = pieceInfo k begun) : FitsPiece p (p.sentInfo, p.sentBytes) := by
  refine ⟨hopens.data, fun hfirst => ?_, ?_, p.sentBytes_getD, ?_⟩
  · simp only [Piece.sentInfo_eq hinfo] at hfirst ⊢
    obtain rfl := (first_finalInfo k begun (decide p.Final)).mp hfirst
    have hbegins := hopens.first (by rw [hinfo]; exact (first_finalInfo k false false).mpr rfl)
    have hkind := flagKind_finalInfo k (decide p.Final)
    rw [hstream] at hbegins
    generalize decide p.Final = last at hkind
    cases k with
    | text =>
        rcases hbegins with ⟨hop, -⟩ | ⟨-, hs⟩
        · exact .inl ⟨hop, by cases last <;> decide⟩
        · exact absurd hs (by decide)
    | binary =>
        rcases hbegins with ⟨-, hs⟩ | ⟨hop, -⟩
        · exact absurd hs (by decide)
        · exact .inr ⟨hop, by cases last <;> decide⟩
  · simp only [Piece.sentInfo_eq hinfo]
    rw [last_finalInfo, decide_eq_true_eq]
  · rw [Piece.sentBytes_eq_none, Piece.sentBytes_getD]

end

/-- **A piece of a message.** -/
lemma InOrder.piece {v w : View} (h : InOrder v) {r : Recv} {k : Kind} {begun : Bool}
    {d : List Byte}
    {p : Piece} (hready : Ready r v.seen k begun d) (hopens : p.Opens)
    (hstream : p.stream = kindFlag k) (hinfo : p.info = pieceInfo k begun)
    (hres : ¬ p.result.rv < 0)
    (hw : w = (v.log (.payload p)).sendFragment p.sentInfo p.sentBytes)
    (hseen : w.seen = v.seen.afterPiece k begun d p.bytes (p.result.toSend.getD []) p.Final)
    (hpieces : dataPieces w.trace = dataPieces v.trace ++ [p]) : InOrder w := by
  have hcalls : onFragments w.trace = onFragments v.trace ++
      if p.calls then [(p.sentInfo, p.sentBytes)] else [] := by
    rw [hw, onFragments, overlooks_fragmentCall.sendFragment, Overlooks.log v rfl]
    simp only [← calls_iff hinfo hres]
    rfl
  have hopen : w.seen.current.isSome = !decide p.Final := by
    rw [hseen, Seen.current_afterPiece]
    cases decide p.Final <;> rfl
  have hreads := h.reads
  rw [hready.isSome_current] at hreads
  cases hc : p.calls with
  | true =>
      rw [if_pos hc] at hcalls
      refine ⟨?_, ?_⟩
      · rw [hcalls, List.map_append, hopen, List.map_singleton, Piece.sentInfo_eq hinfo]
        exact reads_finalInfo hreads k _
      · rw [hcalls, hpieces, List.filter_append, List.filter_cons_of_pos hc, List.filter_nil]
        exact List.rel_append h.fits (.cons (fitsPiece_sent hopens hstream hinfo) .nil)
  | false =>
      have hmid : begun = true ∧ ¬ p.Final := by
        have hno := mt (calls_iff hinfo hres).mpr (by rw [hc]; exact Bool.false_ne_true)
        have hmust := (not_or.mp hno).2
        rw [Piece.sentInfo_eq hinfo, mustCall_finalInfo, not_not, decide_eq_false_iff_not] at hmust
        exact hmust
      rw [if_neg (by rw [hc]; exact Bool.false_ne_true), List.append_nil] at hcalls
      refine h.quiet hcalls ?_ ?_
      · rw [hopen, hready.isSome_current, hmid.1, decide_eq_false hmid.2]
        rfl
      · rw [hpieces, List.filter_append, List.filter_cons_of_neg (by simp [hc]), List.filter_nil,
          List.append_nil]

/-- **One iteration** keeps the calls in order. -/
theorem inOrder_iteration {s s' : Cws} {buf rest : List Byte} {r : Recv} {w : View}
    (ho : s.closeState.received = false) (hi : Iteration s buf s' rest)
    (he : Effect (s.view.setRecv r) w) (hview : s'.view = w.setRecv s'.recv)
    (hopens : ∃ ps, s'.core.pieces = s.core.pieces ++ ps ∧ ∀ p ∈ ps, p.Opens)
    (h : InOrder s.view) : InOrder s'.view := by
  rw [hview, inOrder_setRecv]
  rw [← inOrder_setRecv r] at h
  have hpieces' : dataPieces w.trace = s'.core.pieces := by
    rw [Cws.core, hview]
    rfl
  have hseen' : w.seen = s'.core.seen := by
    rw [Cws.core, hview]
    rfl
  have hreceived : w.received = s'.closeState.received := (congrArg View.received hview).symm
  generalize hv : s.view.setRecv r = v at he h
  have hov : v.received = false := by
    rw [← hv]
    exact ho
  have hvpieces : dataPieces v.trace = s.core.pieces := by
    rw [← hv]
    rfl
  have hvseen : v.seen = s.core.seen := by
    rw [← hv]
    rfl
  have htaken {p : Piece} (hw : w = (v.log (.payload p)).sendFragment p.sentInfo p.sentBytes) :
      s'.closeState.received = false ∧ s'.core.pieces = s.core.pieces ++ [p] := by
    obtain ⟨hopen, hp⟩ := View.core_sendFragment (v.log (.payload p)) p.sentInfo p.sentBytes
    rw [← hreceived, ← hpieces', ← hvpieces, hw]
    refine ⟨hopen.trans hov, hp.trans ?_⟩
    rw [View.core_log]
    rfl
  cases hi with
  | quiet hquiet _ _ _ =>
      rcases overlooks_fragmentCall.effect he with ⟨p, -, hw⟩ | hcalls
      · exact absurd (hquiet.pieces.symm.trans (htaken hw).2) (by simp)
      · refine h.quiet hcalls ?_ ?_
        · rw [hseen', hvseen, hquiet.seen]
        · rw [hpieces', hvpieces, hquiet.pieces]
  | @refused _ _ _ _ p _ _ _ _ _ hres hclosed hseen hp _ =>
      have hno : p.calls = false := by
        rw [Piece.calls, decide_eq_false_iff_not]
        exact fun hcall => hcall.1 hres
      rcases overlooks_fragmentCall.effect he with ⟨q, -, hw⟩ | hcalls
      · exact Bool.noConfusion (hclosed.symm.trans (htaken hw).1)
      · refine h.quiet hcalls ?_ ?_
        · rw [hseen', hvseen, hseen]
        · rw [hpieces', hp, hvpieces, List.filter_append, List.filter_cons_of_neg (by simp [hno]),
            List.filter_nil, List.append_nil]
  | @piece _ k begun d q hready hstream hinfo _ _ _ hopen _ _ _ hseen hq _ =>
      rcases he.piece_or_quiet hov (hreceived.trans hopen) with ⟨p, hres, hw⟩ | hsame
      · obtain rfl : q = p := by simpa using hq.symm.trans (htaken hw).2
        obtain ⟨ps, hps, hall⟩ := hopens
        have hmem : q ∈ ps := by
          rw [List.append_cancel_left (hps.symm.trans hq)]
          exact List.mem_singleton_self q
        refine h.piece (hvseen ▸ hready) (hall q hmem) hstream hinfo hres hw ?_ ?_
        · rw [hseen', hseen, hvseen]
          rfl
        · rw [hpieces', hq, hvpieces]
      · rw [hpieces', hvpieces, hq] at hsame
        exact absurd hsame (by simp)

/-! ## Whole runs

A run counts up to where its object is freed (`Run`). -/

lemma inOrder_headerCb (env : Env) (s : Cws) (line : List Byte) (status version : ℤ)
    (h : InOrder s.view) : InOrder (headerCb env s line status version).2.view := by
  have hcore := core_headerCb env s line status version
  have hcalls : onFragments (headerCb env s line status version).2.view.trace
      = onFragments s.view.trace := by
    have heffect := effect_headerCb env s line status version
    generalize (headerCb env s line status version).2.view = w at heffect
    cases heffect with
    | noted h => rfl
    | told h installed c hc =>
        refine Overlooks.installed { s.view with
          headerState := h, dispatching := s.view.dispatching + 1 } (fun d => ?_) installed
        rcases hc with ⟨code, reason, rfl⟩ | ⟨protocols, rfl⟩
        · rfl
        · rfl
  refine h.quiet hcalls ?_ ?_
  · have hseen := congrArg Core.seen hcore
    exact congrArg (·.current.isSome) hseen
  · have hpieces := congrArg Core.pieces hcore
    exact congrArg (List.filter Piece.calls) hpieces

/-- The calls are the same in the view. -/
lemma onFragments_view (s : Cws) : onFragments s.view.trace = onFragments s.trace := by
  rw [Cws.view, onFragments, onFragments, List.filterMap_filter]
  refine congrArg (List.filterMap · s.trace) (funext fun e => ?_)
  cases e <;> rfl

/-- **The fragments are in order**, whatever the stream and however it is cut.  The markers are the
beginning of a sequence of messages; the calls come, one for one, from the pieces that lead to a
call, with the opcode of the frame, the end of the message and the bytes of the piece; and what they
add up to is the beginning of what the reference makes of the stream. -/
theorem fragments_in_order (env : Env) (cfg : Cfg) (acts : List Action) :
    let t := (run env (Cws.fresh cfg) acts).trace
    fragmentGrammar.Initial ((onFragments t).map Prod.fst) ∧
      List.Forall₂ FitsPiece ((dataPieces t).filter Piece.calls) (onFragments t) ∧
      (observe t).items <+: decode none (streamBytes env (Cws.fresh cfg) acts) := by
  intro t
  obtain ⟨htracks, horder⟩ := @run_view_induction env (fun _ _ v => InOrder v)
    (fun _ _ _ h => h) (fun _ _ _ _ h => h)
    (fun bs buf rest s s' w r hbuf hstep ho hr hi he hview h =>
      inOrder_iteration ho hi he hview (by
        have hopens := pieces_processFrame ho (hr.shape ho) hbuf env
        rwa [hstep] at hopens) h)
    cfg ⟨.nil, .nil⟩ acts fun line status version _ _ s h =>
      inOrder_headerCb env s line status version h
  obtain ⟨hreads, hfits⟩ := horder
  rw [onFragments_view] at hreads hfits
  refine ⟨Grammar.initial_of_reads ⟨_, rfl⟩ hreads, ?_, ?_⟩
  · rw [show dataPieces t = _ from (core_pieces _).symm]
    exact hfits
  · have hinitial := htracks.initial []
    rw [List.append_nil, core_seen] at hinitial
    exact hinitial

end CurlWs
