import CurlWs.Handshake.Headers
import CurlWs.Library.Countdown
import CurlWs.Send.LostClose
import CurlWs.Send.Progress

/-!
# The closing handshake comes to its end

Once both sides have decided to close, the frames that wait leave one drain after another, the close
frame last, and the drain after that ends the upload, whatever else the application and the server
do meanwhile.

**What is pending.**  `pending` counts the bytes of the queue that have not been sent.  A drain
takes as many as curl asks for, or all of them (`pending_sendCb`).  Nothing adds to them once
`CLOSE_RECEIVED` and `CLOSE_QUEUED` are set: no frame is queued any more (`ending_micro`).

**A countdown.**  With this the runs from such a state are an instance of `Countdown`: the state is
ready, every action keeps it so and takes its room off what is pending, and with nothing pending the
next drain reaches the goal.

**What is assumed.**  A frame that does not fit its buffer is never sent and stops the queue, so the
data frames have to fit; a close frame must not have been lost when the memory for it was refused;
and curl that follows a redirection is given nothing.  Each of these is a hypothesis about the state
from which the counting starts.

## Main results

* **`pending_sendCb`** — what a drain takes from the bytes that wait.
* **`close_completes`** — the connection is closed once curl has asked for as many bytes as waited,
  and then once more.
-/

namespace CurlWs

/-- How many bytes of the queue have not been sent. -/
def pending (queue : List BufQueue) : ℕ := (queue.map fun b => b.written - b.sent).sum

@[simp] lemma pending_nil : pending [] = 0 := rfl

@[simp] lemma pending_cons (head : BufQueue) (rest : List BufQueue) :
    pending (head :: rest) = head.written - head.sent + pending rest := by
  rw [pending, List.map_cons, List.sum_cons, pending]

/-- A live queue with nothing pending is empty. -/
lemma eq_nil_of_pending {queue : List BufQueue} (hlive : ∀ b ∈ queue, b.Live)
    (h : pending queue = 0) : queue = [] := by
  cases queue with
  | nil => rfl
  | cons head rest =>
      have hleft := (hlive head List.mem_cons_self).left
      rw [pending_cons] at h
      omega

/-! ## A drain

The loop that fills the buffer of curl, and the whole of a call. -/

/-- **The loop of `_fill_outgoing_buffer`**, entered with what is left of the head, uses up its room
or what is pending. -/
lemma pending_fillLoop (fuel : ℕ) : ∀ {s : Cws} {len left : ℕ}, Tidy s.send →
    (∀ b ∈ s.send, b.Live) → (∀ b ∈ s.send.head?, left = b.written - b.sent) → len ≤ fuel →
    pending (fillLoop fuel s len left).2.send ≤ pending s.send - len := by
  induction fuel with
  | zero =>
      intro s len left _ _ _ hlen
      obtain rfl := Nat.le_zero.mp hlen
      exact le_rfl
  | succ fuel ih =>
      intro s len left ht hlive hleft hlen
      cases hs : s.send with
      | nil =>
          rw [fillLoop, hs]
          simp only [hs, pending_nil, Nat.zero_sub, le_refl]
      | cons head rest =>
          rw [hs] at ht hlive hleft
          have hhead := (hlive head List.mem_cons_self).left
          have hleft' : left = head.written - head.sent := hleft head rfl
          have hrest : ∀ b ∈ rest, b.Live := fun b hb => hlive b (List.mem_cons_of_mem _ hb)
          by_cases hroom : len = 0
          · rw [fillLoop_stop _ (.inl hroom), hs, hroom, Nat.sub_zero]
          rw [fillLoop_cons hs fuel (by omega) (by omega) rfl]
          generalize hk : min len left = k
          simp only [pending_cons]
          split_ifs with hwhole hclose
          · exact Nat.zero_le _
          · have hnext := @ih { s with send := rest } (len - k)
              (left - k + (rest.head?.map (·.written)).getD 0) ht.tail hrest (fun b hb => ?_)
              (by omega)
            · refine hnext.trans ?_
              show pending rest - (len - k) ≤ _
              omega
            · change b ∈ rest.head? at hb
              have hzero := ht.2 b (List.mem_of_mem_head? hb)
              rw [hb, Option.map_some, Option.getD_some]
              omega
          · have hmore := @ih { s with send := { head with sent := head.sent + k } :: rest }
              (len - k) (left - k)
              ⟨.inr (show head.sent + k < head.written by omega), ht.2⟩ (fun b hb => ?_)
              (fun b hb => ?_) (by omega)
            · refine hmore.trans ?_
              show pending ({ head with sent := head.sent + k } :: rest) - (len - k) ≤ _
              rw [pending_cons]
              simp only
              omega
            · rcases List.mem_cons.mp hb with rfl | hb
              · refine ⟨show head.sent + k < head.written by omega, ?_⟩
                exact (hlive head List.mem_cons_self).held
              · exact hrest b hb
            · obtain rfl := Option.some.inj hb
              show left - k = head.written - (head.sent + k)
              omega

/-- **What a drain takes** from the bytes that wait. -/
theorem pending_sendCb {s : Cws} (ht : Tidy s.send) (hlive : ∀ b ∈ s.send, b.Live)
    (hdirect : s.headerState.redirection = false) (len : ℕ) :
    pending (sendCb s len).2.send ≤ pending s.send - len := by
  rw [sendCb, if_neg (by rw [hdirect]; decide)]
  split_ifs with hs hready
  · simp only [Cws.verboseClose, Cws.log, hs, pending_nil, Nat.zero_le]
  · simp only [hs, pending_nil, Nat.zero_le]
  · show pending (fillOutgoingBuffer s len).2.send ≤ _
    obtain ⟨head, rest, hcons⟩ := List.exists_cons_of_ne_nil hs
    have hfill : fillOutgoingBuffer s len = fillLoop len s len (head.written - head.sent) := by
      rw [fillOutgoingBuffer, hcons]
    rw [hfill]
    refine pending_fillLoop len ht hlive (fun b hb => ?_) le_rfl
    rw [hcons] at hb
    obtain rfl := Option.some.inj hb
    rfl

/-! ## The steps of the sending side

What the application and the server may do while the queue empties. -/

/-- Both sides have decided to close, and nothing keeps the frames that wait from leaving. -/
structure Ending (o : Out) : Prop where
  received : o.closeState.received = true
  queued : o.closeState.queued = true
  hasClose : o.HasClose
  live : ∀ b ∈ o.send, b.Live

/-- **Every step** leaves it so, and adds nothing to what is pending. -/
theorem ending_micro {o o' : Out} (h : Ending o) (hstep : Micro o o') :
    Ending o' ∧ pending o'.send ≤ pending o.send := by
  obtain ⟨hreceived, hqueued, hhas, hlive⟩ := h
  have hany : o.closeState.any = true := by simp [CloseState.any, hqueued]
  cases hstep with
  | control hq => exact absurd (hq.symm.trans hqueued) (by decide)
  | data hno => exact absurd (hno.symm.trans hany) (by decide)
  | close code reason len hq => exact absurd (hq.symm.trans hqueued) (by decide)
  | closeLost code reason len hq => exact absurd (hq.symm.trans hqueued) (by decide)
  | closeFailed code reason len hq => exact absurd (hq.symm.trans hqueued) (by decide)
  | controlFailed | dataFailed | closeIgnored | unpause | pause | sent =>
      exact ⟨⟨hreceived, hqueued, hhas, hlive⟩, le_rfl⟩
  | received => exact ⟨⟨rfl, hqueued, hhas, hlive⟩, le_rfl⟩
  | closed => exact ⟨⟨hreceived, hqueued, hhas, hlive⟩, le_rfl⟩
  | @advance head rest k hs hk hlt =>
      rw [hs] at hlive
      refine ⟨⟨hreceived, hqueued, hhas.imp_left ?_, fun b hb => ?_⟩, ?_⟩
      · rintro ⟨b, hb, hclose⟩
        rw [hs] at hb
        rcases List.mem_cons.mp hb with rfl | hb
        · exact ⟨_, List.mem_cons_self, hclose⟩
        · exact ⟨b, List.mem_cons_of_mem _ hb, hclose⟩
      · rcases List.mem_cons.mp hb with rfl | hb
        · exact ⟨hlt, (hlive head List.mem_cons_self).held⟩
        · exact hlive b (List.mem_cons_of_mem _ hb)
      · rw [hs, pending_cons, pending_cons]
        simp only
        omega
  | @popped head rest hs hlt hc =>
      rw [hs] at hlive
      refine ⟨⟨hreceived, hqueued, hhas.imp_left ?_, ?_⟩, ?_⟩
      · rintro ⟨b, hb, hclose⟩
        rw [hs] at hb
        rcases List.mem_cons.mp hb with rfl | hb
        · exact absurd (hc.symm.trans hclose) (by decide)
        · exact ⟨b, hb, hclose⟩
      · exact fun b hb => hlive b (List.mem_cons_of_mem _ hb)
      · rw [hs, pending_cons]
        exact Nat.le_add_left _ _
  | closeSent =>
      exact ⟨⟨hreceived, hqueued, .inr rfl, List.forall_mem_nil _⟩, Nat.zero_le _⟩

/-- **Any number of steps**, one after the other. -/
lemma ending_steps {o o' : Out} (hsteps : Steps o o') (h : Ending o) :
    Ending o' ∧ pending o'.send ≤ pending o.send := by
  induction hsteps with
  | refl => exact ⟨h, le_rfl⟩
  | tail _ hstep ih =>
      obtain ⟨hending, hle⟩ := ending_micro ih.1 hstep
      exact ⟨hending, hle.trans ih.2⟩

/-! ## Every run

The actions of a run, each with the room that it offers.  A run counts up to where its object is
freed (`Run`). -/

/-- The end is near, and curl has not been told to follow a redirection. -/
structure NearEnd (s : Cws) : Prop where
  ending : Ending s.out
  tidy : Tidy s.send
  direct : s.headerState.redirection = false

/-- The bytes curl asks for. -/
def Action.room : Action → ℕ
  | .send len => len
  | _ => 0

/-- Curl hands over a line of the response. -/
def Action.isHeader : Action → Bool
  | .header .. => true
  | _ => false

/-- Only a line of the response makes a redirection. -/
lemma headerState_step (env : Env) (s : Cws) {a : Action} (ha : a.isHeader = false) :
    (step env s a).headerState = s.headerState := by
  cases a with
  | api c => exact congrArg View.headerState (view_apiCall env s c)
  | send len => exact congrArg View.headerState (view_sendCb s len)
  | receive buf => exact congrArg Prod.snd (fixed_receiveCb env s buf)
  | header => cases ha

/-- **The bytes that wait run out**, and the next drain ends the upload. -/
lemma countdown (env : Env) : Countdown (step env) NearEnd (fun s => s.closeState.closed = true)
    (fun a => a.isHeader = false) (fun s => pending s.send) Action.room where
  keeps := fun {s a} h ha => by
    have hsteps := steps_step env h.tidy a
    exact ⟨(ending_steps hsteps h.ending).1, hsteps.tidy h.tidy,
      (congrArg _ (headerState_step env s ha)).trans h.direct⟩
  takes := fun {s a} h ha => by
    cases a with
    | send len => exact pending_sendCb h.tidy h.ending.live h.direct len
    | api c => exact (ending_steps (steps_step env h.tidy (.api c)) h.ending).2
    | receive buf => exact (ending_steps (steps_step env h.tidy (.receive buf)) h.ending).2
    | header => cases ha
  reaches := fun {s a} h ha hzero hpos => by
    cases a with
    | send len =>
        have hnil : s.send = [] := eq_nil_of_pending h.ending.live hzero
        have hsent : s.closeState.sent = true := by
          rcases h.ending.hasClose with ⟨b, hb, -⟩ | hsent
          · exact absurd hnil (List.ne_nil_of_mem hb)
          · exact hsent
        have hreceived : s.closeState.received = true := h.ending.received
        rw [step, sendCb, if_neg (by rw [h.direct]; decide), if_pos hnil]
        split_ifs with hready
        · rfl
        · simpa [CloseState.readyToClose, hsent, hreceived] using hready
    | api | receive | header => exact absurd hpos (lt_irrefl 0)
  stays := fun {s a} h ha hclosed =>
    (onward_steps (steps_step env h.tidy a)).le.closed hclosed

/-- **The closing handshake completes.**  From a state of any run in which `CLOSE_RECEIVED` and
`CLOSE_QUEUED` are set, no close was lost, every data frame fits and curl follows no redirection:
once curl has asked for as many bytes as are pending, and then once more, the queue is empty and
`CLOSED` is set, whatever the application, the callbacks and the server do in between. -/
theorem close_completes (env : Env) (cfg : Cfg) (hcfg : cfg.Sizable) (acts : List Action) :
    let s := run env (Cws.fresh cfg) acts
    s.closeState.received = true → s.closeState.queued = true → ¬ CloseLost s.trace →
    (∀ f ∈ dataFrames s.trace, Fits cfg f) → s.headerState.redirection = false →
    ∀ (drains : List Action) (len : ℕ) (more : List Action),
      (∀ a ∈ drains ++ .send len :: more, a.isHeader = false) →
      pending s.send ≤ (drains.map Action.room).sum → 0 < len →
      let s' := run env s (drains ++ .send len :: more)
      s'.closeState.closed = true ∧ s'.send = [] := by
  intro s hreceived hqueued hkept hfits hdirect drains len more hheaders hroom hlen
  have hdata : dataFrames s.out.trace = dataFrames s.trace := by
    rw [dataFrames, s.queuedFrames_out, dataFrames]
  have hs : s.out.cfg = cfg := cfg_run env cfg acts
  have hlive : ∀ b ∈ s.send, b.Live := by
    refine live_run hcfg env acts ?_
    rw [hdata, hs]
    exact hfits
  have hhas : s.out.HasClose := by
    by_contra hno
    refine hkept ((closeLost_filter s.trace).mp ?_)
    exact ((kept_run env cfg acts).set hqueued).mpr hno
  have hnear : NearEnd s := ⟨⟨hreceived, hqueued, hhas, hlive⟩, tidy_run env cfg acts, hdirect⟩
  refine ⟨(countdown env).goal_run hnear hheaders hroom hlen, ?_⟩
  have hready := (countdown env).ready_run _ hnear hheaders
  have hwork := (countdown env).work_run _ hnear hheaders
  refine eq_nil_of_pending hready.ending.live (Nat.le_zero.mp (hwork.trans ?_))
  rw [List.map_append, List.sum_append]
  show pending s.send - _ ≤ 0
  omega

/-- The server closes; the answer of eight bytes leaves five bytes at a time. -/
theorem close_completes_answer :
    let s := run .quiet (Cws.fresh {}) [.receive [0x88, 0x02, 0x03, 0xe8]]
    let s' := run .quiet s ([.send 5, .receive [0x00], .send 5] ++ .send 5 :: [])
    pending s.send = 8 ∧ s'.closeState.closed = true ∧ s'.send = [] := by
  intro s
  have hwaiting : ∃ b ∈ s.send, b.isCloseFrame = true := by decide +kernel
  have hkept : ¬ CloseLost s.trace := by
    intro hlost
    have hqueued : s.out.closeState.queued = true := by decide +kernel
    have hiff := (kept_run .quiet {} [.receive [0x88, 0x02, 0x03, 0xe8]]).set hqueued
    exact hiff.mp ((closeLost_filter s.trace).mpr hlost) (.inl hwaiting)
  exact ⟨by decide +kernel, close_completes .quiet {} (by decide)
    [.receive [0x88, 0x02, 0x03, 0xe8]] (by decide +kernel) (by decide +kernel) hkept
    (by decide +kernel) (by decide +kernel) [.send 5, .receive [0x00], .send 5] 5 [] (by decide)
    (by decide +kernel) (by decide)⟩

end CurlWs
