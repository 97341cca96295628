import CurlWs.Receive.CloseFrame
import CurlWs.Send.Progress
import CurlWs.Send.RoundTrip

/-!
# The ordinary close

`cws_close` with a code that is not negative: which codes and reasons it takes, and what the server
reads of them.

**Queued and read back.**  `Posts` says that a call has put one control frame behind all that waits,
and that a server which reads its buffer finds a frame with the opcode and the payload that were
meant.  This is shown for every control frame (`out_control`, `parseOutput_control`).

**The reason.**  It is given by NULL, by a pointer and a length, or by a pointer and `SIZE_MAX` if a
NUL follows it; `Reason` has the three ways, each with the bytes that it stands for.  All go through
the same checks (`Reason.normalize`): the bytes are well-formed, and there are at most 122 of them.

**The code.**  A code goes with a reason, and no code with none (`CodeFits`); the payload is the
code in two bytes and the reason, or empty (`closeBytes`).  The receiving side of the library hears
from it what was meant (`closeHeard_closeBytes`).

## Main results

* **`out_control`**, **`parseOutput_control`** — an accepted control frame is queued once, and read
  back as it was meant.
* **`cwsClose_accepted`** — a close that is normalized is queued.
* **`closes_as_documented_iff`** — the length of the reason is limited to one byte less than is
  documented.
-/

namespace CurlWs

open Utf8 WebSocket

/-! ## One control frame is queued

A ping, a pong or a close, with memory and while nothing keeps it back. -/

/-- From one state to the other one control frame has been queued, behind all that waits, and a
server reads its buffer as a frame with the payload `p`. -/
def Posts (s s' : Cws) (opcode : ℕ) (p : List Byte) : Prop :=
  ∃ f, Controls opcode p f ∧ queuedFrames s'.trace = queuedFrames s.trace ++ [f] ∧
    s'.send = s.send ++ [encodedBuf s.cfg f] ∧
    parseOutput (encodedBuf s.cfg f).buffer = some [⟨true, opcode, p⟩]

/-- The opcodes of control frames. -/
def IsControlOpcode (opcode : ℕ) : Prop := controlOpcode opcode = some true

/-- **A server reads the buffer of a control frame.** -/
theorem parseOutput_control {opcode : ℕ} {p : List Byte} {f : CwsFrame}
    (hop : IsControlOpcode opcode) (h : Controls opcode p f) (cfg : Cfg) :
    parseOutput (encodedBuf cfg f).buffer = some [⟨true, opcode, p⟩] := by
  have hlen : f.payloadLen ≤ 125 := h.len.trans_le h.short
  have hsize : bufferSize cfg f = wsCtlFrameMax := if_pos h.isControl
  have hbuffer : (encodedBuf cfg f).buffer = [f].flatMap encoding := by
    have henc : encodedLen f ≤ wsCtlFrameMax := by
      rw [encodedLen, headerLen, if_pos hlen, wsCtlFrameMax, wsFrameHeaderMin, wsFrameHeaderMask,
        wsCtlPayloadMax]
      omega
    simp only [encodedBuf, hsize, frameEncode_of_le (show wsCtlFrameMax < sizeModulus by decide)
      henc, List.flatMap_cons, List.flatMap_nil, List.append_nil]
  have hsendable : Sendable f := by
    refine ⟨h.mask, ?_, readable_of_data h.data h.len, hlen.trans_lt (by decide),
      fun _ => ⟨h.fin_eq, hlen⟩⟩
    rw [h.opcode_eq, h.isControl]
    exact hop
  rw [hbuffer, parseOutput_encoding fun g hg => List.mem_singleton.mp hg ▸ hsendable]
  simp only [List.map_cons, List.map_nil, CwsFrame.toFrame, h.fin_eq, h.opcode_eq, h.data]

/-- A frame that is not urgent is queued behind all that waits. -/
lemma posts_of_push {s s' : Cws} {opcode : ℕ} {p : List Byte} {f : CwsFrame}
    (hop : IsControlOpcode opcode) (h : Controls opcode p f)
    (hsend : s'.out.send = (s.out.push f).send)
    (hframes : queuedFrames s'.out.trace = queuedFrames (s.out.push f).trace) :
    Posts s s' opcode p := by
  refine ⟨f, h, ?_, ?_, parseOutput_control hop h s.cfg⟩
  · rw [← Cws.queuedFrames_out, hframes, ← Cws.queuedFrames_out]
    exact queuedFrames_queued ..
  · refine hsend.trans ?_
    rw [← enqueue_of_not_urgent, ← h.isUrgent]
    rfl

section

variable {env : Env} (halloc : ∀ t, env.alloc t = true)

include halloc

/-- **`frame_sender_control`**, for a payload that is not too long, while nothing keeps it from
being queued. -/
theorem out_control {s : Cws} (hq : s.closeState.queued = false) {options : Flags} {opcode : ℕ}
    (hop : ControlOptions options opcode) {data : Option (List Byte)} {len : ℕ}
    (hread : ∀ d ∈ data, len ≤ d.length) (hlen : (givenBytes data len).length ≤ wsCtlPayloadMax) :
    ∃ f, Controls opcode (givenBytes data len) f ∧
      (frameSenderControl env s options data len).1 = .ok ∧
      (frameSenderControl env s options data len).2.out = s.out.push f ∧
      (frameSenderControl env s options data len).2.trace = s.trace ++ [.queued f] := by
  obtain ⟨hdata, hlen'⟩ := payloadOf_given hread
  have hshort : ¬ wsCtlPayloadMax < (payloadOf data len).2 := by
    rw [hlen']
    exact not_lt.mpr hlen
  rw [frameSenderControl_eq env s hop, hq, if_neg (by decide), if_neg hshort]
  refine ⟨senderControlFrame opcode data len (env.random s.clock),
    ⟨rfl, rfl, rfl, rfl, rfl, hdata, hlen', hlen⟩, ?_⟩
  rcases out_sendFrame env s.tick (senderControlFrame opcode data len (env.random s.clock)) with
    ⟨hok, hout⟩ | ⟨hfail, -⟩
  · refine ⟨hok, hout, ?_⟩
    rw [sendFrame, if_pos (halloc _)]
    rfl
  · rw [sendFrame, if_pos (halloc _)] at hfail
    cases hfail

end

/-! ## The payload of a close frame

From the arguments of `cws_close` to the bytes that are sent. -/

/-- The payload of a close frame with a code, or without one, which is written as the code zero. -/
def closeBytes (code : ℤ) (text : List Byte) : List Byte :=
  if code = 0 then [] else bigEndianBytes 2 code.toNat ++ text

lemma length_closeBytes_le (code : ℤ) (text : List Byte) :
    (closeBytes code text).length ≤ text.length + 2 := by
  rw [closeBytes]
  split_ifs
  · exact Nat.zero_le _
  · rw [List.length_append, length_bigEndianBytes]
    omega

/-- What `cws_close` hands to `frame_sender_control`. -/
lemma givenBytes_closePayload (code : ℤ) {reason : Option (List Byte)} {len : ℕ} {text : List Byte}
    (htext : (reason.getD []).take len = text) :
    givenBytes (closePayload code reason len) (if code ≠ 0 then len + 2 else len)
      = closeBytes code text := by
  rw [givenBytes, closePayload, closeBytes]
  by_cases hcode : code = 0
  · simp [hcode]
  · rw [if_neg hcode, if_pos hcode, if_pos hcode, ← shifts_two, htext]
    simp only [Option.getD_some, List.take_succ_cons, List.cons_append, List.nil_append]
    rw [← htext, List.take_take, min_self]

/-- **`cws_close`** queues one close frame for every close that is not urgent and that
`_normalize_close_inputs` passes. -/
theorem cwsClose_accepted {env : Env} (halloc : ∀ t, env.alloc t = true) {s : Cws}
    (hq : s.closeState.queued = false) {code : ℤ} (hcode : 0 ≤ code)
    {reason : Option (List Byte)} {len : ℕ} (hnull : ¬ (reason = none ∧ 0 < len)) {c : CloseInputs}
    (hnorm : normalizeCloseInputs code reason len = .ok c) {text : List Byte}
    (htext : (reason.getD []).take c.len = text) (hlen : text.length = c.len) :
    ∃ f, Controls wsOpcodeClose (closeBytes c.code text) f ∧
      (cwsClose env s code reason len).1 = .ok ∧
      (cwsClose env s code reason len).2.out
        = ((s.out.log (.closeCall code reason len false)).push f).setClose
          { s.closeState with queued := true } := by
  obtain ⟨hoptions, hshort, -⟩ := normalizeCloseInputs_ok hnull hnorm
  rw [if_neg (not_lt.mpr hcode)] at hoptions
  have hgiven := givenBytes_closePayload c.code htext
  have hfits : (closeBytes c.code text).length ≤ wsCtlPayloadMax := by
    refine (length_closeBytes_le c.code text).trans ?_
    simp only [wsCtlPayloadMax] at hshort ⊢
    omega
  have hread : ∀ d ∈ closePayload c.code reason c.len,
      (if c.code ≠ 0 then c.len + 2 else c.len) ≤ d.length := by
    intro d hd
    rw [closePayload] at hd
    split_ifs at hd ⊢ with hzero
    · rw [← Option.some_inj.mp hd, htext, List.length_cons, List.length_cons, hlen]
    · cases hd
  obtain ⟨f, hf, hok, hout, -⟩ := out_control halloc
    (s := s.log (.closeCall code reason len s.closeState.queued)) hq .close hread (hgiven ▸ hfits)
  rw [hgiven] at hf
  refine ⟨f, hf, ?_⟩
  have hstate := congrArg Out.closeState hout
  simp only [cwsClose, if_neg hnull, hnorm, hoptions]
  generalize frameSenderControl env (s.log (.closeCall code reason len s.closeState.queued)) cwsCloseBit
    (closePayload c.code reason c.len) (if c.code ≠ 0 then c.len + 2 else c.len) = r at hok hout hstate
  have hqueued : r.2.closeState.queued = false := (congrArg CloseState.queued hstate).trans hq
  rw [hqueued, if_neg (by decide)]
  refine ⟨hok, ?_⟩
  rw [out_setClose, hout, out_log rfl, hq]
  exact congrArg (Out.setClose _) (congrArg (fun c => { c with queued := true }) hstate)

/-! ## The documented limit

What the documentation promises, and for which reasons it is kept. -/

/-- The reason a call of `cws_close` is given, by NULL, by its first byte and its length, or by its
first byte and `SIZE_MAX` if a NUL follows it. -/
inductive Reason : Option (List Byte) → ℕ → List Byte → Prop where
  | null : Reason none 0 []
  | bytes (text after : List Byte) (h : text.length < sizeMax) :
      Reason (some (text ++ after)) text.length text
  | terminated (text after : List Byte) (h : 0 ∉ text) :
      Reason (some (text ++ 0 :: after)) sizeMax text

/-- The length up to the NUL. -/
lemma strlen_terminated {text : List Byte} (h : 0 ∉ text) (after : List Byte) :
    strlen (text ++ 0 :: after) = text.length := by
  have hall : ∀ b ∈ text, (decide (b ≠ 0)) = true := by
    intro b hb
    refine decide_eq_true ?_
    rintro rfl
    exact h hb
  rw [strlen, List.takeWhile_append_of_pos hall, List.takeWhile_cons_of_neg (by simp),
    List.append_nil]

/-- No length is given without a pointer. -/
lemma Reason.not_null {reason : Option (List Byte)} {len : ℕ} {text : List Byte}
    (h : Reason reason len text) : ¬ (reason = none ∧ 0 < len) := by
  rintro ⟨hnone, hpos⟩
  cases h with
  | null => exact absurd hpos (lt_irrefl 0)
  | bytes => cases hnone
  | terminated => cases hnone

lemma Reason.take {reason : Option (List Byte)} {len : ℕ} {text : List Byte}
    (h : Reason reason len text) : (reason.getD []).take text.length = text := by
  cases h with
  | null => rfl
  | bytes => exact List.take_left
  | terminated => exact List.take_left

/-- The first half of `_normalize_close_inputs`. -/
lemma Reason.normalize {reason : Option (List Byte)} {len : ℕ} {text : List Byte}
    (h : Reason reason len text) : normalizeReason reason len =
      if ¬ WellFormed text then .error .invalidUtf8
      else if 122 < text.length then .error .appDataLengthTooLong
      else .ok text.length := by
  have hsome (r : List Byte) (hlen : (if len = sizeMax then strlen r else len) = text.length)
      (htake : r.take text.length = text) : normalizeReason (some r) len =
        if ¬ WellFormed text then .error .invalidUtf8
        else if 122 < text.length then .error .appDataLengthTooLong
        else .ok text.length := by
    simp only [normalizeReason, hlen, htake, Ne, utf8Validate_length_iff, wsCtlPayloadMax]
    by_cases hempty : 0 < text.length
    · rw [if_pos hempty]
    · obtain rfl : text = [] := List.length_eq_zero_iff.mp (Nat.eq_zero_of_not_pos hempty)
      rw [if_neg hempty, if_neg (not_not.mpr WellFormed.nil), if_neg (by decide)]
  cases h with
  | null =>
      rw [if_neg (not_not.mpr WellFormed.nil), if_neg (by decide)]
      rfl
  | bytes _ after hlt => exact hsome _ (if_neg hlt.ne) List.take_left
  | terminated _ after hzero =>
      exact hsome _ ((if_pos rfl).trans (strlen_terminated hzero after)) List.take_left

/-- What the receiver of a close frame makes of it: `_handle_close` puts 1005 in the place of a code
that is not there, and zero back in the place of 1005. -/
def closeHeard (p : List Byte) : Option (ℤ × List Byte) :=
  (closeReport p).map fun r => (if r.1 = 1005 then 0 else r.1, r.2.getD [])

/-- A close frame is heard as it was meant. -/
lemma closeHeard_closeBytes {code : ℤ} {text : List Byte}
    (h : code = 0 ∧ text = [] ∨ isCloseCodeValid code = true ∧ WellFormed text)
    (hlen : text.length < sizeMax) : closeHeard (closeBytes code text) = some (code, text) := by
  rcases h with ⟨rfl, rfl⟩ | ⟨hvalid, hwell⟩
  · rfl
  · have hrange : 1000 ≤ code ∧ code ≤ 4999 ∧ code ≠ 1005 := by
      simp only [isCloseCodeValid, Bool.or_eq_true, Bool.and_eq_true, decide_eq_true_eq] at hvalid
      omega
    have hzero : ¬ code = 0 := by omega
    generalize hp : closeBytes code text = p
    rw [closeBytes, if_neg hzero] at hp
    have hplen : p.length = text.length + 2 := by
      rw [← hp, List.length_append, length_bigEndianBytes, Nat.add_comm]
    have hdrop : p.drop 2 = text := by
      rw [← hp]
      exact List.drop_left' (length_bigEndianBytes 2 _)
    have hcode : closeCode p = code := by
      rw [closeCode, ← hp, List.take_left' (length_bigEndianBytes 2 _),
        bigEndian_bigEndianBytes 2 _ (by omega)]
      omega
    have hgood : ¬ (p.length = 1 ∨ isCloseCodeValid code = false ∨ ¬ WellFormed text) := by
      rintro (hone | hbad | hill)
      · omega
      · exact absurd (hvalid.symm.trans hbad) (by decide)
      · exact hill hwell
    rw [closeHeard, closeReport, if_neg (by omega), hdrop, hcode, if_neg hgood]
    simp only [Option.map_some, if_neg hrange.2.2, closeReason, if_neg hlen.ne, Option.getD_some,
      List.take_length]

/-- What is documented of a call of `cws_close` with the reason `text`. -/
structure ClosesAsDocumented (env : Env) (s : Cws) (code : ℤ) (reason : Option (List Byte))
    (len : ℕ) (text : List Byte) : Prop where
  accepts : (cwsClose env s code reason len).1 = .ok ↔
    code = 0 ∧ text = [] ∨
      isCloseCodeValid code = true ∧ WellFormed text ∧ text.length ≤ 123
  sends : (cwsClose env s code reason len).1 = .ok →
    Posts s (cwsClose env s code reason len).2 wsOpcodeClose (closeBytes code text) ∧
      closeHeard (closeBytes code text) = some (code, text)

/-- The code goes with the reason. -/
def CodeFits (code : ℤ) (text : List Byte) : Prop :=
  code = 0 ∧ text = [] ∨ isCloseCodeValid code = true

instance (code : ℤ) (text : List Byte) : Decidable (CodeFits code text) :=
  inferInstanceAs (Decidable (_ ∨ _))

/-- **`_normalize_close_inputs`**, for a code that is not negative. -/
lemma Reason.normalizeCloseInputs {code : ℤ} (hcode : 0 ≤ code) {reason : Option (List Byte)}
    {len : ℕ} {text : List Byte} (h : Reason reason len text) :
    normalizeCloseInputs code reason len =
      if ¬ WellFormed text then .error .invalidUtf8
      else if 122 < text.length then .error .appDataLengthTooLong
      else if CodeFits code text then .ok ⟨code, cwsCloseBit, text.length⟩
      else .error .invalidCloseReasonCode := by
  simp only [CurlWs.normalizeCloseInputs, h.normalize, if_neg (not_lt.mpr hcode)]
  by_cases hwell : WellFormed text
  · by_cases hlong : 122 < text.length
    · simp only [hwell, hlong, not_true, if_false, if_true]
    · have hempty : ¬ 0 < text.length ↔ text = [] := by
        rw [Nat.not_lt, Nat.le_zero, List.length_eq_zero_iff]
      simp only [hwell, hlong, not_true, if_false, CodeFits]
      by_cases hzero : code = 0
      · have hinvalid : ¬ isCloseCodeValid 0 = true := by decide
        subst hzero
        simp only [hinvalid, Bool.false_eq_true, or_false, true_and, if_true, ← hempty, ite_not]
      · simp only [hzero, false_and, false_or, if_false]
  · simp only [hwell, not_false_iff, if_true]

/-- What `cws_close` takes. -/
theorem cwsClose_ok_iff {env : Env} (halloc : ∀ t, env.alloc t = true) {s : Cws}
    (hq : s.closeState.queued = false) {code : ℤ} (hcode : 0 ≤ code)
    {reason : Option (List Byte)} {len : ℕ} {text : List Byte} (h : Reason reason len text) :
    ((cwsClose env s code reason len).1 = .ok ↔
      WellFormed text ∧ text.length ≤ 122 ∧ CodeFits code text) ∧
      ((cwsClose env s code reason len).1 = .ok →
        Posts s (cwsClose env s code reason len).2 wsOpcodeClose (closeBytes code text)) := by
  have hnorm := h.normalizeCloseInputs hcode
  have hrefused (e : CWScode) (he : normalizeCloseInputs code reason len = .error e) :
      (cwsClose env s code reason len).1 = e := by
    simp only [cwsClose, if_neg h.not_null, he]
  have hnot (hno : (cwsClose env s code reason len).1 ≠ .ok)
      (hbad : ¬ (WellFormed text ∧ text.length ≤ 122 ∧ CodeFits code text)) :
      ((cwsClose env s code reason len).1 = .ok ↔
        WellFormed text ∧ text.length ≤ 122 ∧ CodeFits code text) ∧
        ((cwsClose env s code reason len).1 = .ok →
          Posts s (cwsClose env s code reason len).2 wsOpcodeClose (closeBytes code text)) :=
    ⟨iff_of_false hno hbad, fun hok => absurd hok hno⟩
  by_cases hwell : WellFormed text
  · rw [if_neg (not_not.mpr hwell)] at hnorm
    by_cases hlong : 122 < text.length
    · rw [if_pos hlong] at hnorm
      refine hnot ?_ fun ho => absurd hlong (not_lt.mpr ho.2.1)
      rw [hrefused _ hnorm]
      decide
    · rw [if_neg hlong] at hnorm
      by_cases hfits : CodeFits code text
      · rw [if_pos hfits] at hnorm
        obtain ⟨f, hf, hok, hout⟩ :=
          cwsClose_accepted halloc hq hcode h.not_null hnorm h.take rfl
        refine ⟨iff_of_true hok ⟨hwell, not_lt.mp hlong, hfits⟩, fun _ => ?_⟩
        refine posts_of_push rfl hf (by rw [hout]; rfl) ?_
        rw [hout, queuedFrames_setClose]
        refine (queuedFrames_queued ..).trans ?_
        rw [queuedFrames_note _ rfl]
        exact (queuedFrames_queued ..).symm
      · rw [if_neg hfits] at hnorm
        refine hnot ?_ fun ho => hfits ho.2.2
        rw [hrefused _ hnorm]
        decide
  · rw [if_pos hwell] at hnorm
    refine hnot ?_ fun ho => hwell ho.1
    rw [hrefused _ hnorm]
    decide

/-- **The limit of the reason is 122 bytes.**  `cws_close` does what is documented of it unless the
reason has 123. -/
theorem closes_as_documented_iff (env : Env) (halloc : ∀ t, env.alloc t = true) (s : Cws)
    (hq : s.closeState.queued = false) (code : ℤ) (hcode : 0 ≤ code)
    (reason : Option (List Byte)) (len : ℕ) (text : List Byte) (h : Reason reason len text) :
    ClosesAsDocumented env s code reason len text ↔
      ¬ (isCloseCodeValid code = true ∧ WellFormed text ∧ text.length = 123) := by
  obtain ⟨hok, hposts⟩ := cwsClose_ok_iff halloc hq hcode h
  constructor
  · rintro hdoc ⟨hvalid, hwell, hlen⟩
    have hlong := (hok.mp (hdoc.accepts.mpr (.inr ⟨hvalid, hwell, hlen.le⟩))).2.1
    omega
  · intro hshort
    refine ⟨hok.trans ⟨?_, ?_⟩, fun hsent => ⟨hposts hsent, ?_⟩⟩
    · intro hsent
      rcases hsent.2.2 with hzero | hvalid
      · exact .inl hzero
      · exact .inr ⟨hvalid, hsent.1, hsent.2.1.trans (by decide)⟩
    · rintro (hzero | ⟨hvalid, hwell, hlen⟩)
      · exact ⟨hzero.2 ▸ .nil, hzero.2 ▸ Nat.zero_le _, .inl hzero⟩
      · refine ⟨hwell, ?_, .inr hvalid⟩
        have hne : text.length ≠ 123 := fun heq => hshort ⟨hvalid, hwell, heq⟩
        omega
    · obtain ⟨hwell, hlen, hfits⟩ := hok.mp hsent
      refine closeHeard_closeBytes (hfits.imp_right fun hvalid => ⟨hvalid, hwell⟩) ?_
      exact hlen.trans_lt (by decide)

/-- A farewell, on a fresh connection. -/
theorem closes_as_documented_bye :
    ClosesAsDocumented .quiet (Cws.fresh {}) 1000 (some [0x62, 0x79, 0x65, 0]) sizeMax
        [0x62, 0x79, 0x65] ↔
      ¬ (isCloseCodeValid 1000 = true ∧ WellFormed ([0x62, 0x79, 0x65] : List Byte) ∧
        ([0x62, 0x79, 0x65] : List Byte).length = 123) :=
  closes_as_documented_iff .quiet (fun _ => rfl) (Cws.fresh {}) rfl 1000 (by decide) _ _ _
    (.terminated [0x62, 0x79, 0x65] [] (by decide))

/-- A reason of 123 letters is refused. -/
theorem close_refuses_limit :
    let text : List Byte := List.replicate 123 0x61
    Reason (some text) 123 text ∧
      (cwsClose .quiet (Cws.fresh {}) 1000 (some text) 123).1 = .appDataLengthTooLong ∧
      ¬ ClosesAsDocumented .quiet (Cws.fresh {}) 1000 (some text) 123 text := by
  intro text
  have hlen : text.length = 123 := List.length_replicate
  have hreason := Reason.bytes text [] (hlen.trans_lt (by decide))
  rw [List.append_nil, hlen] at hreason
  refine ⟨hreason, by decide +kernel, fun h => ?_⟩
  have hwell : WellFormed text := by decide +kernel
  have hok := h.accepts.mpr (.inr ⟨rfl, hwell, hlen.le⟩)
  have hrefused : (cwsClose .quiet (Cws.fresh {}) 1000 (some text) 123).1 ≠ .ok := by
    decide +kernel
  exact hrefused hok

end CurlWs
