import CurlWs.Send.Blocks

/-!
# The urgent close

A negative code asks `cws_close` for a close frame in front of all that waits.

**What is asked for.**  `ClosesAtOnce` states what the urgent form of a close is documented to do:
it is accepted like the ordinary form, its frame has the same payload and goes in front of all that
has not begun, and nothing is sent after it.

**What happens.**  `_normalize_close_inputs` passes the urgent form with the option `CWS_URGENT`
(`normalizeCloseInputs_urgent`).  `frame_sender_control` refuses all options outside its mask of
control options, and this one is outside.  Whatever the answer is, `cws_close` then sets
`CLOSE_QUEUED`.

* **`urgent_close_refused`** — no urgent close is ever sent: `frame_sender_control` refuses its
  options.
-/

namespace CurlWs

/-- The code that asks for the urgent form of a close. -/
def urgentCode (code : ℤ) : ℤ := if code = 0 then -1 else -code

/-- What the urgent form of a close is for. -/
structure ClosesAtOnce (env : Env) (s : Cws) (code : ℤ) (reason : Option (List Byte)) (len : ℕ) :
    Prop where
  /-- It is accepted. -/
  ok : (cwsClose env s (urgentCode code) reason len).1 = .ok
  /-- Its frame has the payload of the ordinary form, and is in front of all that has not begun. -/
  placed : ∃ f g begun rest,
    queuedFrames (cwsClose env s (urgentCode code) reason len).2.trace =
      queuedFrames s.trace ++ [f] ∧
    queuedFrames (cwsClose env s code reason len).2.trace = queuedFrames s.trace ++ [g] ∧
    f.opcode = wsOpcodeClose ∧ f.payload = g.payload ∧ f.payloadLen = g.payloadLen ∧
    s.send = begun ++ rest ∧ (∀ b ∈ begun, 0 < b.sent) ∧ (∀ b ∈ rest, b.sent = 0) ∧
    (cwsClose env s (urgentCode code) reason len).2.send = begun ++ encodedBuf s.cfg f :: rest
  /-- Nothing is sent after it. -/
  last : ∀ acts more,
    let t := run env (cwsClose env s (urgentCode code) reason len).2 acts
    t.closeState.sent = true → sentBytes (run env t more).trace = sentBytes t.trace

/-- The urgent form is normalized to the same code and the same length. -/
lemma normalizeCloseInputs_urgent {code : ℤ} {reason : Option (List Byte)} {len : ℕ}
    {c : CloseInputs} (hcode : 0 ≤ code) (h : normalizeCloseInputs code reason len = .ok c) :
    normalizeCloseInputs (urgentCode code) reason len =
      .ok { c with options := cwsCloseBit ||| cwsUrgent } := by
  have hneg : urgentCode code < 0 := by
    rw [urgentCode]
    split_ifs <;> omega
  simp only [normalizeCloseInputs, if_neg (not_lt.mpr hcode), if_pos hneg] at h ⊢
  cases hreason : normalizeReason reason len with
  | error e =>
      simp only [hreason] at h
      cases h
  | ok n =>
      simp only [hreason] at h ⊢
      by_cases hzero : code = 0
      · have hone : urgentCode code = -1 := if_pos hzero
        rw [if_pos hzero] at h
        rw [if_pos hone, if_pos rfl]
        split_ifs at h ⊢
        cases h
        rw [hzero]
      · rw [if_neg hzero] at h
        split_ifs at h with hvalid
        cases h
        -- one is not a close code, so its negation is not the code for zero
        have hone : ¬ urgentCode code = -1 := by
          rw [urgentCode, if_neg hzero]
          rintro hone
          rw [show code = 1 by omega] at hvalid
          exact absurd hvalid (by decide)
        have hback : 0 - urgentCode code = code := by
          rw [urgentCode, if_neg hzero]
          omega
        rw [if_neg hone, hback, if_neg hzero, if_pos hvalid]

/-- **The urgent close is never sent.**  Whatever close would be accepted, its urgent form is
refused: nothing is queued, and `CLOSE_QUEUED` is set all the same. -/
theorem urgent_close_refused (env : Env) (s : Cws) (code : ℤ) (reason : Option (List Byte))
    (len : ℕ) (hq : s.closeState.queued = false) (hcode : 0 ≤ code)
    (haccepted : CloseAccepted code reason len) :
    let r := cwsClose env s (urgentCode code) reason len
    ¬ ClosesAtOnce env s code reason len ∧ r.1 = .invalidOptions ∧ r.2.send = s.send ∧
      queuedFrames r.2.trace = queuedFrames s.trace ∧ r.2.closeState.queued = true := by
  intro r
  obtain ⟨hnull, c, hc⟩ := haccepted
  have hr : r = (.invalidOptions,
      Cws.verboseClose
        { s.log (.closeCall (urgentCode code) reason len s.closeState.queued) with
          closeState := { s.closeState with queued := true } }) := by
    show cwsClose env s (urgentCode code) reason len = _
    simp only [cwsClose, if_neg hnull, normalizeCloseInputs_urgent hcode hc,
      frameSenderControl_urgent]
    exact if_neg (by rw [Cws.log, hq]; decide)
  refine ⟨fun hcloses => ?_, ?_, ?_, ?_, ?_⟩
  · have hok : r.1 = .ok := hcloses.ok
    rw [hr] at hok
    cases hok
  · rw [hr]
  · rw [hr]
    rfl
  · rw [hr]
    exact (queuedFrames_concat rfl _).trans (queuedFrames_concat rfl _)
  · rw [hr]
    rfl

/-- The urgent form of a close with code 1001, on a fresh connection. -/
theorem urgent_close_refused_fresh :
    (cwsClose Env.quiet (Cws.fresh {}) (-1001) none 0).1 = .invalidOptions :=
  (urgent_close_refused Env.quiet (Cws.fresh {}) 1001 none 0 rfl (by decide)
    ⟨by decide, _, rfl⟩).2.1

/-- The ordinary form is accepted and the urgent one is not. -/
theorem not_closes_at_once :
    (cwsClose Env.quiet (Cws.fresh {}) 1001 none 0).1 = .ok ∧
      ¬ ClosesAtOnce Env.quiet (Cws.fresh {}) 1001 none 0 := by
  refine ⟨by decide +kernel, fun h => ?_⟩
  have hok := h.ok
  exact absurd hok (by decide +kernel)

end CurlWs
