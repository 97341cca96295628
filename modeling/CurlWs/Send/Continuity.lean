import CurlWs.Library.Fragments
import CurlWs.Send.Closing

/-!
# Continuity of messages

`frame_sender_data` decides from the options of the last data frame alone whether a frame may begin
a message or has to continue one.

**The grammar.**  The data frames of a client are messages of one frame, or of a first frame,
continuations and a last one.  `dataGrammar` is this in the terms of `Fragments`, with an opcode and
a fin bit as a letter.

**One bit.**  What the code keeps is `last_sent_data_frame_info`, and of it only whether a message
is open counts (`isOpen`).  `dataOpcode` accepts the options of a frame only if its letter may come
next (`dataOpcode_ok`), and the options it is sent with are the new last ones (`reads_concat`).

**Frames that are refused memory.**  They are handed to `send_frame` and do not reach the queue, but
`last_sent_data_frame_info` has been set for them.  The frames handed over are therefore the ones in
order (`Event.handsOver`).

* **`data_frames_in_order`** — whatever is sent in whatever order, the data frames are the beginning
  of a sequence of fragmented messages.
-/

namespace CurlWs

open Fragments

/-- The data frames of RFC 6455, as an opcode and a fin bit. -/
def dataGrammar : Grammar (ℕ × Bool) where
  whole := {x | (x.1 = wsOpcodeText ∨ x.1 = wsOpcodeBinary) ∧ x.2 = true}
  first := {x | (x.1 = wsOpcodeText ∨ x.1 = wsOpcodeBinary) ∧ x.2 = false}
  middle := {(wsOpcodeContinuation, false)}
  last := {(wsOpcodeContinuation, true)}

/-- The frame an event hands to `send_frame`, whether or not there is memory for it. -/
def Event.handsOver : Event → Option CwsFrame
  | .queued f => some f
  | .allocFailed f => some f
  | _ => none

/-- The opcode and the fin bit of a data frame. -/
def CwsFrame.dataLetter (f : CwsFrame) : Option (ℕ × Bool) :=
  if controlOpcode f.opcode = some false then some (f.opcode, f.fin) else none

/-- The data frames handed to `send_frame`. -/
def handedData (t : List Event) : List (ℕ × Bool) :=
  (t.filterMap Event.handsOver).filterMap CwsFrame.dataLetter

/-- A message is open, as `frame_sender_data` sees it. -/
def isOpen (lastInfo : Flags) : Bool := lastInfo ≠ 0 && cwsLast &&& lastInfo = 0

/-! ## One frame

What is accepted after what, and the bit that is left. -/

/-- What `frame_sender_data` accepts. -/
inductive Continues (lastInfo : Flags) : ℕ → Prop where
  | start {opcode : ℕ} (hclosed : isOpen lastInfo = false)
      (hop : opcode = wsOpcodeText ∨ opcode = wsOpcodeBinary) : Continues lastInfo opcode
  | continuation (hopen : isOpen lastInfo = true) :
      Continues lastInfo wsOpcodeContinuation

/-- No message is open: there has been no data frame, or the last one ended its message. -/
lemma isOpen_eq_false {lastInfo : Flags} :
    isOpen lastInfo = false ↔ lastInfo = 0 ∨ cwsLast &&& lastInfo ≠ 0 := by
  simp [isOpen, or_iff_not_imp_left]

lemma isOpen_eq_true {lastInfo : Flags} :
    isOpen lastInfo = true ↔ ¬ (lastInfo = 0 ∨ cwsLast &&& lastInfo ≠ 0) := by
  rw [← isOpen_eq_false, Bool.not_eq_false]

/-- Accepted options say what kind of frame it is, so they are not zero. -/
lemma dataOpcode_ok {lastInfo options : Flags} {opcode : ℕ}
    (h : dataOpcode lastInfo options = .ok opcode) :
    Continues lastInfo opcode ∧ options ≠ 0 := by
  simp only [dataOpcode] at h
  have hne : options &&& (cwsCont ||| cwsBinary ||| cwsText) ≠ 0 → options ≠ 0 := by
    rintro hne rfl
    exact hne (BitVec.zero_and)
  split_ifs at h with h1 h2 h3 h4 h5 h6 h7
  · cases h
    exact ⟨.continuation (isOpen_eq_true.mpr h3), hne (by rw [h1]; decide)⟩
  · cases h
    refine ⟨.start (isOpen_eq_false.mpr ?_) (.inl rfl), hne ?_⟩
    · by_cases h0 : lastInfo = 0
      · exact .inl h0
      · exact .inr fun hlast => h6 ⟨h0, hlast⟩
    · rcases h4 with h4 | h4 <;> rw [h4] <;> decide
  · cases h
    refine ⟨.start (isOpen_eq_false.mpr ?_) (.inr rfl), hne ?_⟩
    · by_cases h0 : lastInfo = 0
      · exact .inl h0
      · exact .inr fun hlast => h6 ⟨h0, hlast⟩
    · rcases h4 with h4 | h4 <;> rw [h4] <;> decide

/-- The codes `frame_sender_data` refuses options with are not `CWSE_OK`. -/
lemma dataOpcode_error {lastInfo options : Flags} {e : CWScode}
    (h : dataOpcode lastInfo options = .error e) : e ≠ .ok := by
  simp only [dataOpcode] at h
  split_ifs at h <;> cases h <;> decide

/-- A frame that is accepted continues the sequence, and its options record where it leaves off. -/
lemma reads_concat {w : List (ℕ × Bool)} {lastInfo options : Flags} {f : CwsFrame}
    (h : dataGrammar.Reads w (isOpen lastInfo)) (hf : DataFrame lastInfo options f) :
    dataGrammar.Reads (w ++ [(f.opcode, f.fin)]) (isOpen options) := by
  obtain ⟨hcont, hne⟩ := dataOpcode_ok hf.opcode
  have hfin : f.fin = !isOpen options := by
    rw [hf.fin, isOpen, decide_eq_true hne, Bool.true_and, ← decide_not]
  generalize f.opcode = opcode at hcont ⊢
  cases ho : isOpen options with
  | true =>
      rw [ho] at hfin
      cases hcont with
      | start hclosed hop =>
          rw [hclosed] at h
          exact h.first ⟨hop, hfin⟩
      | continuation hopen =>
          rw [hopen] at h
          exact h.middle (by rw [hfin]; rfl)
  | false =>
      rw [ho] at hfin
      cases hcont with
      | start hclosed hop =>
          rw [hclosed] at h
          exact h.whole ⟨hop, hfin⟩
      | continuation hopen =>
          rw [hopen] at h
          exact h.last (by rw [hfin]; rfl)

/-! ## Every run

Control frames and events of the receive path leave the sequence alone.  A run counts up to where
its object is freed (`Run`). -/

/-- The data frames are in order, and `last_sent_data_frame_info` says where they leave off. -/
def Continuity (o : Out) : Prop := dataGrammar.Reads (handedData o.trace) (isOpen o.lastInfo)

/-- An event that hands over no data frame. -/
lemma handedData_concat {e : Event} (he : e.handsOver.bind CwsFrame.dataLetter = none)
    (t : List Event) : handedData (t ++ [e]) = handedData t := by
  rw [handedData, List.filterMap_append, List.filterMap_append, handedData]
  cases hframe : e.handsOver with
  | none => rw [List.filterMap_cons_none hframe, List.filterMap_nil, List.filterMap_nil,
      List.append_nil]
  | some f =>
      rw [hframe, Option.bind_some] at he
      rw [List.filterMap_cons_some hframe, List.filterMap_nil, List.filterMap_cons_none he,
        List.filterMap_nil, List.append_nil]

/-- A data frame more. -/
lemma handedData_data {e : Event} {f : CwsFrame} (he : e.handsOver = some f)
    (hf : controlOpcode f.opcode = some false) (t : List Event) :
    handedData (t ++ [e]) = handedData t ++ [(f.opcode, f.fin)] := by
  have hletter : f.dataLetter = some (f.opcode, f.fin) := if_pos hf
  rw [handedData, List.filterMap_append, List.filterMap_append, List.filterMap_cons_some he,
    List.filterMap_nil, List.filterMap_cons_some hletter, List.filterMap_nil, handedData]

lemma ControlFrame.dataLetter {f : CwsFrame} (hf : ControlFrame f) : f.dataLetter = none := by
  rw [CwsFrame.dataLetter]
  rcases hf.opcode with h | h | h <;> rw [h] <;> rfl

lemma DataFrame.controlOpcode {lastInfo options : Flags} {f : CwsFrame}
    (hf : DataFrame lastInfo options f) : controlOpcode f.opcode = some false := by
  obtain ⟨hcont, -⟩ := dataOpcode_ok hf.opcode
  generalize f.opcode = opcode at hcont
  cases hcont with
  | start _ hop => rcases hop with rfl | rfl <;> rfl
  | continuation => rfl

/-- **What a step does to the data frames**: nothing, or it hands one over and records its
options. -/
theorem data_micro {o o' : Out} (hstep : Micro o o') :
    (o'.lastInfo = o.lastInfo ∧ handedData o'.trace = handedData o.trace) ∨
      ∃ f, DataFrame o.lastInfo o'.lastInfo f ∧
        handedData o'.trace = handedData o.trace ++ [(f.opcode, f.fin)] := by
  cases hstep with
  | @control f hq hf hop =>
      exact .inl ⟨rfl, handedData_concat (e := .queued f) hf.dataLetter o.trace⟩
  | @controlFailed f hf hop =>
      exact .inl ⟨rfl, handedData_concat (e := .allocFailed f) hf.dataLetter o.trace⟩
  | @data f options hany hf =>
      exact .inr ⟨f, hf, handedData_data rfl hf.controlOpcode o.trace⟩
  | @dataFailed f options hany hf =>
      exact .inr ⟨f, hf, handedData_data rfl hf.controlOpcode o.trace⟩
  | closeIgnored => exact .inl ⟨rfl, handedData_concat rfl o.trace⟩
  | @close code reason len f hq hcode hf =>
      refine .inl ⟨rfl, (handedData_concat rfl _).trans ?_⟩
      have hpush := handedData_concat (e := .queued f) hf.dataLetter
      exact (hpush _).trans (handedData_concat rfl o.trace)
  | closeLost =>
      exact .inl ⟨rfl, (handedData_concat rfl _).trans (handedData_concat rfl o.trace)⟩
  | @closeFailed code reason len f hq hcode hop =>
      refine .inl ⟨rfl, (handedData_concat rfl _).trans ?_⟩
      have hfail := handedData_concat (e := .allocFailed f)
        (by rw [Event.handsOver, Option.bind_some, CwsFrame.dataLetter, hop]; rfl)
      exact (hfail _).trans (handedData_concat rfl o.trace)
  | received | closed | closeSent => exact .inl ⟨rfl, handedData_concat rfl o.trace⟩
  | unpause | pause | advance | popped => exact .inl ⟨rfl, rfl⟩
  | sent bytes => exact .inl ⟨rfl, handedData_concat rfl o.trace⟩

/-- **Every step** keeps the order. -/
theorem continuity_micro {o o' : Out} (h : Continuity o) (hstep : Micro o o') : Continuity o' := by
  rcases data_micro hstep with ⟨hinfo, hdata⟩ | ⟨f, hf, hdata⟩
  · rw [Continuity, hinfo, hdata]
    exact h
  · rw [Continuity, hdata]
    exact reads_concat h hf

lemma handedData_filter (t : List Event) :
    handedData (t.filter fun e => !e.isReceive) = handedData t := by
  rw [handedData, List.filterMap_filter, handedData]
  refine congrArg (List.filterMap CwsFrame.dataLetter) (List.filterMap_congr fun e _ => ?_)
  cases e <;> rfl

/-- **Continuity.**  In every run, the data frames handed to `send_frame` are the beginning of a
sequence of messages, each a single frame, or a first frame, continuations and a last one. -/
theorem data_frames_in_order (env : Env) (cfg : Cfg) (acts : List Action) :
    dataGrammar.Initial (handedData (run env (Cws.fresh cfg) acts).trace) := by
  have h : Continuity (run env (Cws.fresh cfg) acts).out :=
    run_out_invariant (P := Continuity) .nil continuity_micro env acts
  rw [← handedData_filter]
  exact Grammar.initial_of_reads ⟨_, rfl⟩ h

end CurlWs
