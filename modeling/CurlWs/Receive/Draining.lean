import CurlWs.Library.Draining
import CurlWs.Receive.Reading

/-!
# Nothing is left of a chunk

The loop of `_receive_cb` goes on while there are bytes left and something has been consumed, and
the call returns the length of the chunk in any case.  An iteration that consumed nothing would lose
the rest of the chunk.

**The loop.**  `receiving` is the loop in the terms of `Draining`: a body, and a reason to go on.
Its heads are the states in which an iteration begins, its ends the ways in which it is left.  The
model of `_receive_cb` runs this loop with as much fuel as there are bytes, which is enough
(`receiveLoop_eq`).

**Progress.**  With the connection open and the receive state in order (`Ongoing`), an iteration
takes part of a header, or of a payload, or fails the connection.  A frame without payload is dealt
with in the iteration that completes its header, which consumes a byte of the header
(`iterate_ongoing`).

**What is left.**  So the loop ends with the chunk or with the connection (`Drains`).  Only a call
that does not get as far as the loop leaves bytes: the body of a response that redirects is not
looked at.

## Main results

* **`productive`** — in every state of an open connection, an iteration consumes something or the
  connection is closed in it.
* **`receive_drains`** — so a call that does not end in a closed connection has processed its whole
  chunk, unless it is the body of a response that redirects.
-/

namespace CurlWs

open Draining

/-- The loop of `_receive_cb`. -/
def receiving (env : Env) : Loop Cws Byte where
  round := cwsProcessFrame env
  stop s := s.closeState.received

/-- `_receive_cb` gets as far as its loop. -/
def Enters (s : Cws) (buf : List Byte) : Prop :=
  buf ≠ [] ∧ ¬ (s.cfg.followRedirects = true ∧ s.headerState.redirection = true) ∧
    s.closeState.received = false

instance (s : Cws) (buf : List Byte) : Decidable (Enters s buf) :=
  inferInstanceAs (Decidable (_ ∧ _))

/-- The bytes of a chunk that a call of `_receive_cb` has not processed when it returns. -/
def unprocessed (env : Env) (s : Cws) (buf : List Byte) : List Byte :=
  if Enters s buf then ((receiving env).run buf.length (s, buf)).2.2 else buf

/-! ## One iteration

Which bytes an iteration leaves, and that it takes some. -/

/-- What an iteration leaves is the end of what it was given. -/
lemma suffix_processPayload (env : Env) (s : Cws) (f : CwsFrame) (buf : List Byte) :
    (processPayload env s f buf).2 <:+ buf := by
  simp only [processPayload]
  split_ifs
  · simp only [processControlFrame]
    split_ifs <;> exact List.drop_suffix _ buf
  · simp only [processDataFrame]
    split_ifs
    · exact List.suffix_refl buf
    · exact List.drop_suffix _ buf

lemma suffix_processFrameHeader (env : Env) (s : Cws) (buf : List Byte) :
    (processFrameHeader env s buf).2.2 <:+ buf := by
  simp only [processFrameHeader]
  split_ifs
  · exact List.suffix_refl buf
  · exact List.drop_suffix _ buf
  · exact List.suffix_refl buf
  · exact List.drop_suffix _ buf

/-- **One iteration** takes its bytes from the front. -/
theorem suffix_processFrame (env : Env) (s : Cws) (buf : List Byte) :
    (cwsProcessFrame env s buf).2 <:+ buf := by
  simp only [cwsProcessFrame]
  cases s.recv.frame with
  | some f => exact suffix_processPayload env s f buf
  | none =>
      have hheader := suffix_processFrameHeader env s buf
      generalize processFrameHeader env s buf = d at hheader
      obtain ⟨f, s', rest⟩ := d
      cases f with
      | none => exact hheader
      | some f =>
          simp only at hheader ⊢
          split_ifs
          · exact (suffix_processPayload ..).trans hheader
          · cases openStream s'.recv f with
            | none => exact hheader
            | some r => exact (suffix_processPayload ..).trans hheader

/-- An iteration leaves no more than it was given. -/
lemma shrinks (env : Env) : (receiving env).Shrinks := by
  intro s buf
  exact (suffix_processFrame env s buf).length_le

/-- An open connection whose receive state is in order. -/
def Ongoing (s : Cws) : Prop := s.closeState.received = false ∧ Shape s.core

/-- An iteration in an open connection consumes something and leaves the receive state in order, or
the connection is closed in it. -/
lemma iterate_ongoing {s : Cws} {buf : List Byte} (h : Ongoing s) (hbuf : buf ≠ []) (env : Env) :
    let r := cwsProcessFrame env s buf
    r.1.closeState.received = true ∨ Ongoing r.1 ∧ r.2.length < buf.length := by
  intro r
  cases hc : r.1.closeState.received with
  | true => exact .inl rfl
  | false =>
      refine .inr ?_
      cases iteration_cases h.1 h.2 hbuf env with
      | quiet _ hshape _ _ => exact ⟨⟨hc, (hshape hc).1⟩, (hshape hc).2⟩
      | piece _ _ _ _ _ _ _ hshape hlt _ _ _ _ => exact ⟨⟨hc, hshape⟩, hlt⟩
      | refused _ _ _ _ _ _ hclosed _ _ _ => exact absurd (hclosed.symm.trans hc) (by simp)

/-- **Every iteration is productive.** -/
theorem productive {env : Env} {a : Cws × List Byte} (h : Ongoing a.1) :
    (receiving env).Productive a := by
  intro hmore
  rcases iterate_ongoing h hmore env with hclosed | ⟨-, hlt⟩
  · exact .inr hclosed
  · exact .inl hlt

/-- Every head of the loop is a state in order. -/
lemma ongoing_heads {env : Env} {a b : Cws × List Byte} (hab : (receiving env).Heads a b)
    (h : Ongoing a.1) : Ongoing b.1 := by
  refine hab.invariant (I := fun c => Ongoing c.1) ?_ h
  intro c d hc hcd
  rcases iterate_ongoing hc hcd.more env with hclosed | ⟨hd, -⟩
  · exact absurd (hclosed.symm.trans (congrArg (·.1.closeState.received) hcd.round))
      (by rw [show d.1.closeState.received = false from hcd.live]; simp)
  · exact hcd.round ▸ hd

/-! ## One call

From the iterations to what `_receive_cb` does with a chunk.  A run counts up to where its object is
freed (`Run`). -/

/-- The model of `_receive_cb` runs this loop. -/
lemma receiveLoop_eq (env : Env) (fuel : ℕ) : ∀ (s : Cws) (buf : List Byte),
    receiveLoop env fuel s buf = ((receiving env).run fuel (s, buf)).2.1 := by
  induction fuel with
  | zero =>
      intro s buf
      rfl
  | succ fuel ih =>
      intro s buf
      have hstop : (receiving env).stop (cwsProcessFrame env s buf).1
          = (cwsProcessFrame env s buf).1.closeState.received := rfl
      have hround : (receiving env).round s buf = cwsProcessFrame env s buf := rfl
      simp only [receiveLoop, Loop.run, hround, hstop, List.isEmpty_iff, List.length_pos_iff]
      by_cases hnil : buf = []
      · rw [if_neg (not_not.mpr hnil), if_pos hnil]
      · rw [if_pos hnil, if_neg hnil]
        by_cases hclosed : (cwsProcessFrame env s buf).1.closeState.received = true
        · rw [if_pos (.inr hclosed), if_pos hclosed]
        · rw [if_neg hclosed]
          by_cases hsame : (cwsProcessFrame env s buf).2.length = buf.length
          · rw [if_pos (.inl hsame), if_pos hsame]
          · rw [if_neg (not_or.mpr ⟨hsame, hclosed⟩), if_neg hsame]
            exact ih _ _

/-- A call that gets to the loop ends where the loop does. -/
lemma receiveCb_enters {s : Cws} {buf : List Byte} (h : Enters s buf) (env : Env) :
    (receiveCb env s buf).2 = ((receiving env).run buf.length (s, buf)).2.1 := by
  obtain ⟨hbuf, hredirect, hopen⟩ := h
  rw [receiveCb, if_neg hbuf, if_neg hredirect, if_neg (by simp [hopen])]
  exact receiveLoop_eq env buf.length s buf

lemma receiveCb_of_not_enters {s : Cws} {buf : List Byte} (h : ¬ Enters s buf) (env : Env) :
    (receiveCb env s buf).2 = s := by
  rw [receiveCb]
  split_ifs with hnil hredirect hclosed
  · rfl
  · rfl
  · rfl
  · exact absurd ⟨hnil, hredirect, Bool.eq_false_of_not_eq_true hclosed⟩ h

/-- What is expected of the loop of a call that gets as far. -/
structure Drains (env : Env) (s : Cws) (buf : List Byte) : Prop where
  /-- Every iteration consumes at least one byte, unless `CLOSE_RECEIVED` is set in it. -/
  progress : ∀ a, (receiving env).Heads (s, buf) a → a.2 ≠ [] →
    let r := cwsProcessFrame env a.1 a.2
    r.2 <:+ a.2 ∧ (r.2.length < a.2.length ∨ r.1.closeState.received = true)
  /-- There is no infinite sequence of iterations. -/
  terminates : Acc (fun b a => (receiving env).Again a b) (s, buf)
  /-- The call returns in the state in which the loop is left, and that is not for want of
  progress. -/
  ends : ∃ a e b, (receiving env).Heads (s, buf) a ∧ (receiving env).Ends a e b ∧ e ≠ .stuck ∧
    (receiveCb env s buf).2 = b.1 ∧ unprocessed env s buf = b.2

/-- The loop of any connection in order. -/
theorem drains_of_ongoing {s : Cws} {buf : List Byte} (h : Enters s buf) (hshape : Shape s.core)
    (env : Env) : Drains env s buf := by
  have hstart : Ongoing s := ⟨h.2.2, hshape⟩
  refine ⟨fun a ha hmore => ?_, (Loop.terminates (shrinks env)).apply _, ?_⟩
  · exact ⟨suffix_processFrame env a.1 a.2, productive (ongoing_heads ha hstart) hmore⟩
  · obtain ⟨a, hheads, hends⟩ := Loop.ends_run (shrinks env) buf.length (s, buf) le_rfl
    refine ⟨a, _, _, hheads, hends, ?_, receiveCb_enters h env, if_pos h⟩
    rcases Loop.consumed_or_stopped (productive (ongoing_heads hheads hstart)) hends with
      ⟨he, -⟩ | ⟨he, -⟩
    · rw [he]
      decide
    · rw [he]
      decide

/-- A connection that is open after the loop has processed the chunk. -/
lemma Drains.processed {env : Env} {s : Cws} {buf : List Byte} (h : Drains env s buf)
    (hstart : Ongoing s) (hopen : (receiveCb env s buf).2.closeState.received = false) :
    unprocessed env s buf = [] := by
  obtain ⟨a, e, b, hheads, hends, -, hstate, hrest⟩ := h.ends
  rw [hrest]
  rcases Loop.consumed_or_stopped (productive (ongoing_heads hheads hstart)) hends with
    ⟨-, hnil⟩ | ⟨-, hstop⟩
  · exact hnil
  · rw [hstate] at hopen
    exact absurd (hopen.symm.trans hstop) (by simp)

/-- **The loop of `_receive_cb`**, in every state of every run and for every chunk. -/
theorem receive_drains (env : Env) (cfg : Cfg) (acts : List Action) (buf : List Byte) :
    let s := run env (Cws.fresh cfg) acts
    (Enters s buf → Drains env s buf) ∧
      ((receiveCb env s buf).2.closeState.received = false →
        ¬ (s.cfg.followRedirects = true ∧ s.headerState.redirection = true) →
          unprocessed env s buf = []) := by
  intro s
  have hshape (h : s.closeState.received = false) : Shape s.core :=
    (run_reading env cfg acts).shape h
  refine ⟨fun h => drains_of_ongoing h (hshape h.2.2) env, fun hopen hredirect => ?_⟩
  by_cases henters : Enters s buf
  · exact (drains_of_ongoing henters (hshape henters.2.2) env).processed
      ⟨henters.2.2, hshape henters.2.2⟩ hopen
  · rw [unprocessed, if_neg henters]
    by_contra hbuf
    refine henters ⟨hbuf, hredirect, ?_⟩
    rwa [receiveCb_of_not_enters henters] at hopen

/-- The rest of a ping, and a frame behind it. -/
theorem receive_drains_ping :
    let s := run .quiet (Cws.fresh {}) [.receive [0x89]]
    Drains .quiet s [0, 0x82, 1, 7] ∧ unprocessed .quiet s [0, 0x82, 1, 7] = [] := by
  intro s
  obtain ⟨hdrains, hprocessed⟩ := receive_drains .quiet {} [.receive [0x89]] [0, 0x82, 1, 7]
  refine ⟨hdrains ⟨?_, ?_, ?_⟩, hprocessed ?_ ?_⟩
  all_goals decide +kernel

/-- The body of a response that redirects is not looked at, and the connection stays open. -/
theorem redirect_not_processed :
    let s := run .quiet (Cws.fresh { followRedirects := true }) [.header [0x0d, 0x0a] 302 2]
    (receiveCb .quiet s [0x6f, 0x6b]).2.closeState.received = false ∧
      unprocessed .quiet s [0x6f, 0x6b] ≠ [] := by
  decide +kernel

end CurlWs
