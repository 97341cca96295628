import CurlWs.Receive.CloseFrame
import CurlWs.Receive.Reading

/-!
# What the application hears

With the default fragment handler, the calls of the user's functions and the closing of the
connection are compared with what the reference makes of the stream.

**Two lists.**  `heardIn` picks out of a trace what the application hears: messages, pings, pongs,
close frames and the closing of the connection.  `expected` says what should be heard of an item of
the reference, given which functions are installed.  The connection between them is `Told`: so far,
what has been heard is what is expected of what has been received.

**Messages.**  The default handler collects the fragments of a message and delivers it at its end.
What it has kept is the part of the message in progress that has been delivered
(`defaultOnFragment_heard`), and for a binary message this is its whole payload so far.

**The end.**  `Ended` says that a closing is the last event of the receive path.  So nothing is
called after it (`Ended.last`), and it is heard once.

## Main results

* **`Told.effect`** — one iteration: the application has been told of every item, and only of those.
* **`binary_stream_heard`** — whole runs over a stream in which no text begins.

Texts have theorems of their own (`TextRuns`), as the code does not treat all of them as the
reference does.
-/

namespace CurlWs

open Utf8 WebSocket

/-! ## Hearing

The events that reach the application, and those that are expected to. -/

/-- Something the application hears, or that happens to its connection. -/
inductive Heard where
  | text (payload : List Byte)
  | binary (payload : List Byte)
  | ping (payload : List Byte)
  | pong (payload : List Byte)
  /-- The server closes the connection. -/
  | closeFrame (payload : List Byte)
  /-- `CLOSE_RECEIVED` is set, and the connection is being closed with this code. -/
  | closed (code : ℤ)
  deriving DecidableEq, Repr

/-- What an event lets the application hear. -/
def heard : Event → Option Heard
  | .callback (.onText text) _ => some (.text (text.getD []))
  | .callback (.onBinary buffer) _ => some (.binary (buffer.getD []))
  | .callback (.onPing p) _ => some (.ping p)
  | .callback (.onPong p) _ => some (.pong p)
  | .controlFrame opcode p => if opcode = 9 ∨ opcode = 10 then none else some (.closeFrame p)
  | .closing code => some (.closed code)
  | _ => none

/-- What a trace lets the application hear. -/
def heardIn (trace : List Event) : List Heard := trace.filterMap heard

/-- What is to be heard of an item, with the user's functions `cb`. -/
def expected (cb : Callbacks) : Item → List Heard
  | .message .text w => if cb.onText then [.text w] else []
  | .message .binary w => if cb.onBinary then [.binary w] else []
  | .ping p => [.ping p]
  | .pong p => if cb.onPong then [.pong p] else []
  | .closeFrame p => [.closeFrame p, .closed (closeAnswer p)]
  | .failed code => [.closed code]
  | .start _ | .unfinished => []

@[simp] lemma heardIn_append (x y : List Event) : heardIn (x ++ y) = heardIn x ++ heardIn y :=
  List.filterMap_append

/-! ## What is told and kept

The invariant between two iterations. -/

/-- The events of a view, with what the default handler has kept of the message in progress. -/
structure Told (v : View) : Prop where
  heard : heardIn v.trace = v.seen.items.flatMap (expected v.cfg.cb)
  kept : ∀ k d, v.seen.current = some (k, d) →
    v.streamType = kindFlag k ∧ v.streamBuffer = d ∧ v.seen.wire = d

/-- The connection is closed by the last event, or it is open. -/
inductive Ended (v : View) : Prop where
  | opened (ho : v.received = false) (hs : v.seen.isClosed = false)
  | closed {trace : List Event} {code : ℤ} (hc : v.received = true) (hs : v.seen.isClosed = true)
      (htrace : v.trace = trace ++ [.closing code]) (hno : ∀ code, .closed code ∉ heardIn trace)

/-- `CLOSE_RECEIVED` is set exactly when an item closes the connection. -/
lemma Ended.received_iff {v : View} (h : Ended v) : v.received = true ↔ v.seen.isClosed = true := by
  cases h with
  | opened ho hs => rw [ho, hs]
  | closed hc hs _ _ => rw [hc, hs]

/-- The receive state plays no part. -/
lemma told_setRecv {v : View} (r : Recv) : Told (v.setRecv r) ↔ Told v :=
  ⟨fun h => ⟨h.heard, h.kept⟩, fun h => ⟨h.heard, h.kept⟩⟩

lemma ended_setRecv {v : View} (r : Recv) : Ended (v.setRecv r) ↔ Ended v := by
  refine ⟨fun h => ?_, fun h => ?_⟩
  all_goals
    cases h with
    | opened ho hs => exact .opened ho hs
    | closed hc hs htrace hno => exact .closed hc hs htrace hno

/-- Only the items that close a connection are heard as closings. -/
lemma closed_mem_expected {cb : Callbacks} {it : Item} {code : ℤ}
    (h : .closed code ∈ expected cb it) : it.isClosing = true := by
  cases it with
  | message k w => cases k <;> simp only [expected] at h <;> split_ifs at h <;> simp at h
  | pong p => simp only [expected] at h; split_ifs at h <;> simp at h
  | closeFrame p => rfl
  | failed code => rfl
  | _ => simp [expected] at h

/-- An open connection has not been heard to close. -/
lemma Told.not_closed {v : View} (h : Told v) (hs : v.seen.isClosed = false) (code : ℤ) :
    .closed code ∉ heardIn v.trace := by
  rw [h.heard, List.mem_flatMap]
  rintro ⟨it, hmem, hcode⟩
  have hall := List.any_eq_false.mp hs it hmem
  exact hall (closed_mem_expected hcode)

/-- Items that are no part of a message have come in, and the application has been told. -/
lemma Told.items {v w : View} (h : Told v) (its : List Item) {hs : List Heard}
    (hheard : heardIn w.trace = heardIn v.trace ++ hs)
    (hseen : w.seen = { v.seen with items := v.seen.items ++ its }) (hcfg : w.cfg = v.cfg)
    (hits : its.flatMap (expected v.cfg.cb) = hs)
    (hkept : w.streamType = v.streamType ∧ w.streamBuffer = v.streamBuffer) : Told w := by
  refine ⟨?_, ?_⟩
  · rw [hheard, hseen, hcfg, h.heard, List.flatMap_append, hits]
  · rw [hseen, hkept.1, hkept.2]
    exact h.kept

/-! ## Control frames

A control frame is told of at once. -/

/-- **A close frame** is answered, and that is the last there is to hear. -/
lemma handleClose_silent {v : View} (ho : v.received = false) (p : List Byte) :
    ∃ evs, heardIn evs = [] ∧ (∀ S, evs.foldl Seen.record S = S) ∧ v.handleClose p
      = { v with received := true, trace := v.trace ++ evs ++ [.closing (closeAnswer p)] } := by
  obtain ⟨ws, hws, heq⟩ := handleClose_eq ho p
  have hall : ∀ e ∈ ws ++ closeCall v p, heard e = none ∧ ∀ S, Seen.record S e = S := by
    intro e he
    rcases List.mem_append.mp he with he | he
    · obtain ⟨i, j, rfl⟩ := hws e he
      exact ⟨rfl, fun _ => rfl⟩
    · obtain ⟨code, reason, rfl⟩ := mem_closeCall he
      exact ⟨rfl, fun _ => rfl⟩
  refine ⟨ws ++ closeCall v p, List.filterMap_eq_nil_iff.mpr fun e he => (hall e he).1, fun S => ?_,
    heq⟩
  exact List.foldlRecOn (motive := fun S' => S' = S) _ _ rfl fun S' hS' e he =>
    ((hall e he).2 S').trans hS'

/-! ## Fragments

The default handler, one fragment at a time. -/

/-- A complete message is heard, if there is somebody to hear it. -/
lemma message_heard (v : View) (k : Kind) {isBinary : Bool} (hk : isBinary = decide (k = .binary))
    {buffer : Option (List Byte)} {w : List Byte} (hw : buffer.getD [] = w) :
    heardIn (v.message isBinary buffer).trace
      = heardIn v.trace ++ expected v.cfg.cb (.message k w) := by
  cases k with
  | text =>
      obtain rfl : isBinary = false := hk
      rw [View.message, if_neg Bool.false_ne_true, View.call_eq, heardIn_append, expected]
      split_ifs
      · rw [← hw]; rfl
      · rfl
  | binary =>
      obtain rfl : isBinary = true := hk
      rw [View.message, if_pos rfl, View.call_eq, heardIn_append, expected]
      split_ifs
      · rw [← hw]; rfl
      · rfl

/-- NULL for no bytes stands for no bytes. -/
lemma bufferPtr_getD (b : List Byte) : (bufferPtr b).getD [] = b := by
  rw [bufferPtr]
  split_ifs with hb
  · exact hb.symm
  · rfl

/-- What the default handler makes of a fragment of a message. -/
lemma defaultOnFragment_heard {v : View} {k : Kind} {begun : Bool} {d : List Byte}
    (hfirst : begun = false → d = [])
    (hnext : begun = true → v.streamType = kindFlag k ∧ v.streamBuffer = d) (last : Bool)
    {b : Option (List Byte)} {x : List Byte} (hb : b.getD [] = x) :
    let w := v.defaultOnFragment (finalInfo k begun last) b
    heardIn w.trace = heardIn v.trace ++
        (if last then expected v.cfg.cb (.message k (d ++ x)) else []) ∧
      (last = false → w.streamType = kindFlag k ∧ w.streamBuffer = d ++ x) := by
  have happend : (v.append (finalInfo k begun last) b).streamType = kindFlag k ∧
      (v.append (finalInfo k begun last) b).streamBuffer = d ++ x := by
    cases begun with
    | false =>
        obtain rfl := hfirst rfl
        simp only [View.append, hb]
        rw [if_pos ((first_finalInfo k false last).mpr rfl)]
        exact ⟨by cases k <;> cases last <;> rfl, rfl⟩
    | true =>
        obtain ⟨hs, hd⟩ := hnext rfl
        simp only [View.append, hb]
        rw [if_neg (fun h => Bool.noConfusion ((first_finalInfo k true last).mp h))]
        exact ⟨hs, by rw [hd]⟩
  have hwhole : cwsFirst ||| cwsLast = (cwsFirst ||| cwsLast) &&& finalInfo k begun last
      ↔ begun = false ∧ last = true := by
    cases k <;> cases begun <;> cases last <;> simp [finalInfo, pieceInfo, kindFlag, cwsFirst,
      cwsLast, cwsText, cwsBinary, cwsCont]
  have hlast := last_finalInfo k begun last
  have hcfg : (v.append (finalInfo k begun last) b).cfg = v.cfg := by
    simp only [View.append]
    split_ifs <;> rfl
  have htrace : (v.append (finalInfo k begun last) b).trace = v.trace := by
    simp only [View.append]
    split_ifs <;> rfl
  cases last with
  | false =>
      have hw : v.defaultOnFragment (finalInfo k begun false) b
          = v.append (finalInfo k begun false) b := by
        simp only [View.defaultOnFragment]
        rw [if_neg (fun h => Bool.noConfusion (hwhole.mp h).2),
          if_neg (fun h => Bool.noConfusion (hlast.mp h))]
      rw [hw]
      refine ⟨?_, fun _ => happend⟩
      rw [htrace]
      exact (List.append_nil _).symm
  | true =>
      refine ⟨?_, fun h => Bool.noConfusion h⟩
      simp only [View.defaultOnFragment, if_true]
      cases begun with
      | false =>
          obtain rfl := hfirst rfl
          rw [if_pos (hwhole.mpr ⟨rfl, rfl⟩)]
          exact message_heard v k (by cases k <;> decide) hb
      | true =>
          rw [if_neg (fun h => Bool.noConfusion (hwhole.mp h).1), if_pos (hlast.mpr rfl)]
          have hheard := @message_heard (v.append (finalInfo k true true) b) k
            (cwsBinary &&& (v.append (finalInfo k true true) b).streamType ≠ 0)
            (by rw [happend.1]; cases k <;> decide) _ _
            ((bufferPtr_getD (v.append (finalInfo k true true) b).streamBuffer).trans happend.2)
          rw [htrace, hcfg] at hheard
          exact hheard

/-- What `_send_data_frame` makes of a piece, with the default handler. -/
lemma sendFragment_heard {v : View} (hcb : v.cfg.cb.onFragment = false) {k : Kind} {begun : Bool}
    {d : List Byte} (hfirst : begun = false → d = [])
    (hnext : begun = true → v.streamType = kindFlag k ∧ v.streamBuffer = d) (last : Bool)
    (b : Option (List Byte)) :
    let w := v.sendFragment (finalInfo k begun last) b
    heardIn w.trace = heardIn v.trace ++
        (if last then expected v.cfg.cb (.message k (d ++ b.getD [])) else []) ∧
      (last = false → w.streamType = kindFlag k ∧ w.streamBuffer = d ++ b.getD []) := by
  intro w
  by_cases hcall : b ≠ none ∨ (cwsFirst ||| cwsLast) &&& finalInfo k begun last ≠ 0
  · have hdefault := @defaultOnFragment_heard
      (({ v with dispatching := v.dispatching + 1 } : View).log
        (.callback (.onFragment (finalInfo k begun last) b) (v.dispatching + 1)))
      k begun d hfirst hnext last b _ rfl
    have hw : w = v.guarded fun w => w.onFragment (finalInfo k begun last) b := if_pos hcall
    simp only [View.guarded, View.onFragment, hcb, Bool.false_eq_true, if_false] at hw
    rw [hw]
    refine ⟨hdefault.1.trans ?_, hdefault.2⟩
    simp only [View.log, heardIn_append]
    rw [show heardIn [.callback (.onFragment (finalInfo k begun last) b) (v.dispatching + 1)] = []
      from rfl, List.append_nil]
  · obtain ⟨hnone, hmid⟩ := not_or.mp hcall
    rw [mustCall_finalInfo, not_not] at hmid
    obtain ⟨rfl, rfl⟩ := hmid
    obtain rfl := not_not.mp hnone
    have hw : w = v := if_neg hcall
    rw [hw]
    obtain ⟨hs, hd⟩ := hnext rfl
    exact ⟨(List.append_nil _).symm, fun _ => ⟨hs, by rw [hd]; exact (List.append_nil _).symm⟩⟩

/-! ## One iteration

Each of the eight effects of an iteration, with the items it adds. -/

/-- The nesting count says nothing about the stream. -/
lemma View.seen_guarded (v : View) (g : View → View) :
    (v.guarded g).seen = (g { v with dispatching := v.dispatching + 1 }).seen := rfl

/-- A call that says nothing about the stream. -/
lemma View.seen_call (v : View) (installed : Bool) {c : Callback}
    (hc : ∀ S d, Seen.record S (.callback c d) = S) : (v.call installed c).seen = v.seen :=
  congrArg Core.seen (core_call v installed hc)

lemma isClosed_append {S : Seen} (h : S.isClosed = false) {its : List Item}
    (hits : its.any Item.isClosing = false) :
    ({ S with items := S.items ++ its } : Seen).isClosed = false := by
  rw [Seen.isClosed, List.any_append, hits, Bool.or_false]
  exact h

/-- Items that close nothing and are no part of a message. -/
lemma Told.opened {v w : View} (h : Told v) (hs : v.seen.isClosed = false) (its : List Item)
    {hs' : List Heard} (hheard : heardIn w.trace = heardIn v.trace ++ hs')
    (hseen : w.seen = { v.seen with items := v.seen.items ++ its }) (hcfg : w.cfg = v.cfg)
    (hits : its.flatMap (expected v.cfg.cb) = hs') (ho : w.received = false)
    (hkept : w.streamType = v.streamType ∧ w.streamBuffer = v.streamBuffer)
    (hno : its.any Item.isClosing = false) : Told w ∧ Ended w :=
  ⟨h.items its hheard hseen hcfg hits hkept,
    .opened ho (by rw [hseen]; exact isClosed_append hs hno)⟩

/-- An item that closes the connection. -/
lemma Told.closed {v w : View} (h : Told v) (hs : v.seen.isClosed = false) (it : Item)
    (evs : List Event) (code : ℤ) (hit : it.isClosing = true)
    (hno : ∀ code, .closed code ∉ heardIn evs)
    (hw : w.trace = v.trace ++ evs ++ [.closing code])
    (hseen : w.seen = { v.seen with items := v.seen.items ++ [it] }) (hcfg : w.cfg = v.cfg)
    (hits : expected v.cfg.cb it = heardIn evs ++ [.closed code]) (hc : w.received = true)
    (hkept : w.streamType = v.streamType ∧ w.streamBuffer = v.streamBuffer) : Told w ∧ Ended w := by
  refine ⟨@Told.items v w h [it] (heardIn evs ++ [.closed code]) ?_ hseen hcfg ?_ hkept,
    .closed hc ?_ hw fun c hmem => ?_⟩
  · rw [hw, heardIn_append, heardIn_append, List.append_assoc]
    rfl
  · rw [List.flatMap_singleton, hits]
  · rw [hseen, Seen.isClosed, List.any_append, List.any_cons, hit]
    simp
  · rw [heardIn_append, List.mem_append] at hmem
    exact hmem.elim (h.not_closed hs c) (hno c)

/-- A piece of a binary message. -/
lemma Told.piece {v w : View} (h : Told v) (hs : v.seen.isClosed = false) (ho : v.received = false)
    (hcb : v.cfg.cb.onFragment = false) {r : Recv} {begun : Bool} {d : List Byte} {p : Piece}
    (hready : Ready r v.seen .binary begun d) (hstream : p.stream = kindFlag .binary)
    (hinfo : p.info = pieceInfo .binary begun)
    (hw : w = (v.log (.payload p)).sendFragment p.sentInfo p.sentBytes)
    (hseen : w.seen = v.seen.afterPiece .binary begun d p.bytes (p.result.toSend.getD []) p.Final) :
    Told w ∧ Ended w := by
  have hsend : p.result.toSend.getD [] = p.bytes := by
    rw [result_binary hstream]
    rfl
  have hbytes : p.sentBytes.getD [] = p.bytes := p.sentBytes_getD.trans hsend
  have hsent := Piece.sentInfo_eq hinfo
  have hkept : v.seen.wire = d ∧ (begun = false → d = []) ∧
      (begun = true → v.streamType = kindFlag .binary ∧ v.streamBuffer = d) := by
    cases hready with
    | first _ _ _ hwire => exact ⟨hwire, fun _ => rfl, fun h => Bool.noConfusion h⟩
    | next _ _ hcur _ =>
        obtain ⟨hs, hb, hwire⟩ := h.kept _ _ hcur
        exact ⟨hwire, fun h => Bool.noConfusion h, fun _ => ⟨hs, hb⟩⟩
  obtain ⟨hwire, hfirst, hnext⟩ := hkept
  obtain ⟨hheard, hbuffer⟩ := @sendFragment_heard (v.log (.payload p)) hcb .binary begun d hfirst
    hnext (decide p.Final) p.sentBytes
  rw [← hsent, ← hw, hbytes] at hheard hbuffer
  rw [hsend] at hseen
  have hcfg : w.cfg = v.cfg := by
    rw [hw]
    exact congrArg Prod.fst (View.fixed_sendFragment ..)
  refine ⟨⟨?_, fun k d' hcur => ?_⟩, .opened ?_ ?_⟩
  · have hlog : heardIn (v.log (.payload p)).trace = heardIn v.trace := by
      rw [View.log, heardIn_append]
      exact List.append_nil _
    have hstart : (startItem .binary begun).flatMap (expected v.cfg.cb) = [] := by
      cases begun <;> rfl
    rw [hheard, hlog, hseen, hcfg, Seen.items_afterPiece, List.flatMap_append, List.flatMap_append,
      hstart, List.append_nil, h.heard, hwire]
    split_ifs
    · rw [List.flatMap_singleton]
      rfl
    · rfl
  · rw [hseen, Seen.current_afterPiece] at hcur
    split_ifs at hcur with hlast
    obtain ⟨rfl, rfl⟩ := Prod.mk.inj (Option.some.inj hcur)
    obtain ⟨hstream', hbuffer'⟩ := hbuffer (Bool.eq_false_of_not_eq_true hlast)
    rw [hseen, Seen.wire_afterPiece, if_neg hlast, hwire]
    exact ⟨hstream', hbuffer', rfl⟩
  · rw [hw, (View.core_sendFragment ..).1]
    exact ho
  · rw [hseen, Seen.isClosed_afterPiece]
    exact hs

/-- A close frame. -/
lemma Told.closeFrame {v : View} (h : Told v) (ho : v.received = false)
    (hs : v.seen.isClosed = false) (i j : ℕ) {opcode : ℕ} (h9 : opcode ≠ 9) (h10 : opcode ≠ 10)
    (p : List Byte) :
    let w := ((v.log (.controlWrite i j)).log (.controlFrame opcode p)).handleClose p
    Told w ∧ Ended w := by
  intro w
  obtain ⟨evs, hsilent, hrecord, heq⟩ := @handleClose_silent
    ((v.log (.controlWrite i j)).log (.controlFrame opcode p)) ho p
  rw [show w = _ from heq]
  have hheard : heardIn ([.controlWrite i j, .controlFrame opcode p] ++ evs) = [.closeFrame p] := by
    rw [heardIn_append, hsilent, List.append_nil]
    have hno : ¬ (opcode = 9 ∨ opcode = 10) := not_or.mpr ⟨h9, h10⟩
    simp only [heardIn, List.filterMap_cons, CurlWs.heard, if_neg hno]
    rfl
  have hcontrol : (v.seen.control opcode p).isClosed = true := Seen.isClosed_control h9 h10 p
  refine h.closed hs (.closeFrame p) ([.controlWrite i j, .controlFrame opcode p] ++ evs)
    (closeAnswer p) rfl ?_ ?_ ?_ rfl ?_ rfl ⟨rfl, rfl⟩
  · rw [hheard]
    simp
  · simp [View.log]
  · change observe (((v.log (.controlWrite i j)).log (.controlFrame opcode p)).trace ++ evs
      ++ [.closing (closeAnswer p)]) = _
    rw [observe_concat, observe, List.foldl_append, hrecord]
    change (((v.log (.controlWrite i j)).log (.controlFrame opcode p)).seen).record _ = _
    rw [seen_log, seen_log]
    change (v.seen.control opcode p).record _ = _
    rw [Seen.record_closing hcontrol, Seen.control, if_neg h9, if_neg h10]
  · rw [hheard]
    rfl

section

variable {s s' : Cws} {buf rest t : List Byte} {r : Recv} {p : Piece}
  (ho : s.closeState.received = false) (hi : Iteration s buf s' rest)

include ho hi

/-- A piece that is accepted, if it is not one of a text. -/
lemma Told.fragment (hcb : s.cfg.cb.onFragment = false) (hs : s.core.seen.isClosed = false)
    (htold : Told (s.view.setRecv r)) (htext : Item.start .text ∉ s.core.meaning (buf ++ t)) :
    let w := ((s.view.setRecv r).log (.payload p)).sendFragment p.sentInfo p.sentBytes
    s'.view = w.setRecv s'.recv → Told w ∧ Ended w := by
  intro w hview
  obtain ⟨hopen, hpieces⟩ :=
    View.core_sendFragment ((s.view.setRecv r).log (.payload p)) p.sentInfo p.sentBytes
  have hopen' : s'.closeState.received = false :=
    (congrArg View.received hview).trans (hopen.trans ho)
  have hpieces' : s'.core.pieces = s.core.pieces ++ [p] := by
    rw [Cws.core, hview]
    refine hpieces.trans ?_
    rw [View.core_log]
    rfl
  cases hi with
  | quiet hquiet _ _ _ => exact absurd (hquiet.pieces.symm.trans hpieces') (by simp)
  | refused _ _ _ _ _ _ hclosed _ _ _ => exact absurd (hclosed.symm.trans hopen') (by simp)
  | @piece r' k begun d q hready hstream hinfo _ _ _ _ _ _ _ hseen hq hmeaning =>
      obtain rfl : q = p := by simpa using hq.symm.trans hpieces'
      cases k with
      | text =>
          refine absurd ?_ htext
          rw [← hmeaning, Core.meaning, hseen, Seen.items_afterPiece, List.append_assoc]
          exact List.mem_append_left _ hready.start_mem
      | binary =>
          have hwseen := congrArg View.seen hview
          exact htold.piece hs ho hcb hready hstream hinfo rfl (hwseen.symm.trans hseen)

/-- A piece that is refused is one of a text. -/
lemma Iteration.text_mem_of_refused
    (hview : s'.view = (((s.view.setRecv r).log (.payload p)).close 1007).setRecv s'.recv) :
    Item.start .text ∈ s.core.meaning (buf ++ t) := by
  have hov : ((s.view.setRecv r).log (.payload p)).received = false := ho
  have hclosed : s'.closeState.received = true := by
    refine (congrArg View.received hview).trans ?_
    rw [View.close_eq hov]
    rfl
  have hpieces : s'.core.pieces = s.core.pieces ++ [p] := by
    have hclose := congrArg Core.pieces (View.core_close _ 1007 hov)
    rw [Cws.core, hview]
    refine hclose.trans ?_
    rw [View.core_log]
    rfl
  cases hi with
  | quiet hquiet _ _ _ => exact absurd (hquiet.pieces.symm.trans hpieces) (by simp)
  | piece _ _ _ _ _ _ hopen _ _ _ _ _ _ => exact absurd (hclosed.symm.trans hopen) (by simp)
  | refused hready _ _ _ _ _ _ _ _ hmeaning =>
      rw [hmeaning]
      exact List.mem_append_left _ hready.start_mem

end

/-- **One iteration tells the application of every item**, if it takes no piece of a text. -/
theorem Told.effect {w : View} {s s' : Cws} {buf rest t : List Byte} {r : Recv}
    (hcb : s.cfg.cb.onFragment = false) (ho : s.closeState.received = false)
    (hi : Iteration s buf s' rest) (he : Effect (s.view.setRecv r) w)
    (hview : s'.view = w.setRecv s'.recv) (htold : Told s.view) (hs : s.core.seen.isClosed = false)
    (htext : Item.start .text ∉ s.core.meaning (buf ++ t)) : Told s'.view ∧ Ended s'.view := by
  rw [hview, told_setRecv, ended_setRecv]
  rw [← told_setRecv r] at htold
  have hov : (s.view.setRecv r).received = false := ho
  have hsv : (s.view.setRecv r).seen.isClosed = false := hs
  cases he with
  | nothing => exact ⟨htold, .opened hov hsv⟩
  | write i j =>
      refine htold.opened hsv [] ?_ ?_ rfl rfl hov ⟨rfl, rfl⟩ rfl
      · rw [View.log, heardIn_append]
        rfl
      · rw [seen_log, List.append_nil]
        rfl
  | ping i j p =>
      refine htold.opened hsv [.ping p] ?_ ?_ rfl rfl hov ⟨rfl, rfl⟩ rfl
      · simp only [View.guarded, View.log, heardIn_append, List.append_assoc]
        rfl
      · rw [View.seen_guarded, seen_log]
        change (((s.view.setRecv r).log _).log _).seen = _
        rw [seen_log, seen_log]
        rfl
  | pong i j p =>
      refine htold.opened hsv [.pong p] ?_ ?_ ?_ (List.flatMap_singleton ..) ?_ ⟨?_, ?_⟩ rfl
      · simp only [View.guarded, View.call_eq, View.log, heardIn_append, List.append_assoc,
          expected]
        split_ifs <;> rfl
      · rw [View.seen_guarded, View.seen_call _ _ fun _ _ => rfl]
        change (((s.view.setRecv r).log _).log _).seen = _
        rw [seen_log, seen_log]
        rfl
      all_goals simp only [View.guarded, View.call_eq, View.log, hov]
  | close i j h9 h10 p => exact htold.closeFrame hov hsv i j h9 h10 p
  | failed =>
      rw [View.close_eq hov]
      refine htold.closed hsv (.failed 1002) [] 1002 rfl ?_ ?_ ?_ rfl rfl rfl ⟨rfl, rfl⟩
      · simp [heardIn]
      · rw [List.append_nil]
      · rw [View.seen, observe_concat]
        change (s.view.setRecv r).seen.record _ = _
        simp [Seen.record, protocolError, hsv]
  | fragment p _ => exact Told.fragment ho hi hcb hs htold htext hview
  | refused p _ => exact absurd (hi.text_mem_of_refused ho hview) htext

/-! ## Whole runs

A run without header lines, so that no other function of the user is called.  A run counts up to
where its object is freed (`Run`). -/

lemma heardIn_view (s : Cws) : heardIn s.view.trace = heardIn s.trace := by
  rw [Cws.view, heardIn, heardIn, List.filterMap_filter]
  refine congrArg (List.filterMap · s.trace) (funext fun e => ?_)
  cases e <;> rfl

/-- After a closing there are no more receive events. -/
lemma Ended.last {s : Cws} (h : Ended s.view) (htold : Told s.view) {pre post : List Event}
    {code : ℤ}
    (htrace : s.trace = pre ++ .closing code :: post) (c : Callback) (d : UInt8) :
    .callback c d ∉ post := by
  intro hmem
  have hview : s.view.trace
      = pre.filter Event.isReceive ++ .closing code :: post.filter Event.isReceive := by
    rw [Cws.view, htrace, List.filter_append]
    rfl
  have hpost : Event.callback c d ∈ post.filter Event.isReceive := List.mem_filter.mpr ⟨hmem, rfl⟩
  generalize post.filter Event.isReceive = post' at hview hpost
  rcases List.eq_nil_or_concat post' with rfl | ⟨l, x, rfl⟩
  · exact absurd hpost List.not_mem_nil
  have hclosed {q : List Event} (hq : q = pre.filter Event.isReceive ++ .closing code :: l) :
      .closed code ∈ heardIn q := by
    rw [hq, heardIn_append]
    exact List.mem_append_right _ List.mem_cons_self
  cases h with
  | opened _ hs =>
      refine htold.not_closed hs code ?_
      rw [hview, List.concat_eq_append, ← List.cons_append, ← List.append_assoc, heardIn_append]
      exact List.mem_append_left _ (hclosed rfl)
  | closed _ _ heq hno =>
      rw [hview, List.concat_eq_append, ← List.cons_append, ← List.append_assoc] at heq
      exact hno code (hclosed (List.append_inj' heq rfl).1.symm)

variable {env : Env} {cfg : Cfg}

/-- **What the application hears of a stream in which no text begins is what the reference makes of
it**, however it is cut: the messages, pings and pongs, and whether and with what code the
connection is closed; after that nothing is called. -/
theorem binary_stream_heard (acts : List Action) (hcb : cfg.cb.onFragment = false)
    (hheader : ∀ line status version, .header line status version ∉ acts)
    (htext : Item.start .text ∉ decode none (streamBytes env (Cws.fresh cfg) acts)) :
    let s := run env (Cws.fresh cfg) acts
    let its := decode none (streamBytes env (Cws.fresh cfg) acts)
    heardIn s.trace = its.flatMap (expected cfg.cb) ∧
      (s.closeState.received = true ↔ its.any Item.isClosing = true) ∧
      ∀ pre code post, s.trace = pre ++ .closing code :: post → ∀ c d, .callback c d ∉ post := by
  intro s its
  obtain ⟨htracks, hcfg, hview⟩ := @run_view_induction env
    (fun bs _ v => v.cfg = cfg ∧
      ((∃ t, Item.start .text ∉ decode none (bs ++ t)) → Told v ∧ Ended v))
    (fun bs buf v h => by
      refine ⟨h.1, ?_⟩
      rintro ⟨t, ht⟩
      exact h.2 ⟨buf ++ t, by rwa [← List.append_assoc]⟩)
    (fun _ _ _ _ h => h)
    (fun bs buf rest s s' w r _ _ ho hr hi heffect hview h => by
      refine ⟨(congrArg View.cfg hview).trans (heffect.cfg.trans h.1), ?_⟩
      rintro ⟨t, ht⟩
      obtain ⟨htold, -⟩ := h.2 ⟨t, ht⟩
      refine htold.effect (t := t) ?_ ho hi heffect hview (hr.shape ho).live ?_
      · have hcfg : s.cfg = cfg := h.1
        rw [hcfg]
        exact hcb
      · rwa [hr.meaning])
    cfg ⟨rfl, fun _ => ⟨⟨rfl, fun _ _ h => absurd h.symm (Option.some_ne_none _)⟩,
      .opened rfl rfl⟩⟩ acts
    fun line status version hmem => absurd hmem (hheader line status version)
  obtain ⟨htold, hended⟩ := hview ⟨[], by rwa [List.append_nil]⟩
  have hreading : Reading (streamBytes env (Cws.fresh cfg) acts) [] s.core := by
    cases htracks with
    | reading h => exact h
    | refused _ _ h =>
        have hstart := h []
        rw [List.append_nil] at hstart
        exact absurd hstart htext
  have hsame : its.flatMap (expected cfg.cb) = s.core.seen.items.flatMap (expected cfg.cb) ∧
      its.any Item.isClosing = s.core.seen.isClosed := by
    have hits : its = s.core.seen.items ∨ _ ∧ its = s.core.seen.items ++ [.unfinished] :=
      hreading.whole
    rcases hits with h | ⟨-, h⟩
    · rw [h]
      exact ⟨rfl, rfl⟩
    · rw [h, List.flatMap_append, List.any_append]
      exact ⟨List.append_nil _, Bool.or_false _⟩
  refine ⟨?_, ?_, fun pre code post htrace => hended.last htold htrace⟩
  · have hheard := htold.heard
    rw [heardIn_view, hcfg] at hheard
    rw [hsame.1]
    exact hheard
  · rw [hsame.2]
    exact hended.received_iff

/-- Two parts of a binary message with a ping in between, cut in the middle of the first, and then a
frame with a reserved bit. -/
theorem binary_stream_heard_reserved :
    let acts := [Action.receive [0x02, 2, 0xff], .receive [0xfe, 0x89, 0, 0x80, 1, 0xfd, 0xc0, 0]]
    let s := run .quiet (Cws.fresh { cb := { onFragment := false } }) acts
    let its := decode none (streamBytes .quiet (Cws.fresh { cb := { onFragment := false } }) acts)
    heardIn s.trace = its.flatMap (expected { onFragment := false }) ∧
      (s.closeState.received = true ↔ its.any Item.isClosing = true) ∧
      ∀ pre code post, s.trace = pre ++ .closing code :: post → ∀ c d, .callback c d ∉ post :=
  binary_stream_heard [.receive [0x02, 2, 0xff], .receive [0xfe, 0x89, 0, 0x80, 1, 0xfd, 0xc0, 0]]
    rfl (by simp) (by decide +kernel)

end CurlWs
