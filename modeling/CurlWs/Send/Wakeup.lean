import CurlWs.Send.Closing

/-!
# No lost wake-up

When `_send_cb` finds nothing to send it tells curl to pause, and curl asks again only after
`curl_easy_pause`.  Whatever makes something to send has to end the pause.

**Who sleeps.**  The pause bit is set in one place only, with an empty queue and while the
connection is not ready to be closed.  `Awake` says that this is still so as long as the bit is set.

**Who wakes.**  A frame that is queued ends the pause in `send_frame`.  The other reason for curl to
ask again is that both sides have closed, and the last of the two to do so may be the server:
`_error_close` sets `CLOSE_RECEIVED`, and ends the pause when it is done.  Between the two, the
invariant does not hold, so it is shown for the steps that leave this bit alone (`awake_micro`) and
for `_error_close` as a whole (`along_awake`).

* **`never_asleep`** — while there is something to send, or the connection is ready to be closed,
  curl is not paused.
-/

namespace CurlWs

/-! ## The invariant

What a pause stands for, step by step. -/

/-- A pause is only kept while there is nothing to send and the connection is not to be closed. -/
def Awake (o : Out) : Prop :=
  o.pauseSend = true → o.send = [] ∧ o.closeState.readyToClose = false

/-- A queue that is not empty is not paused. -/
lemma Awake.not_paused {o : Out} (h : Awake o) {head : BufQueue} {rest : List BufQueue}
    (hs : o.send = head :: rest) : o.pauseSend = false := by
  by_contra hp
  have hempty := (h (Bool.eq_true_of_not_eq_false hp)).1
  exact List.cons_ne_nil _ _ (hs.symm.trans hempty)

/-- **Every step** that leaves `CLOSE_RECEIVED` alone keeps the invariant. -/
theorem awake_micro {o o' : Out} (h : Awake o) (hstep : Micro o o')
    (hr : o'.closeState.received = o.closeState.received) : Awake o' := by
  cases hstep with
  | control | data | close | unpause => exact fun hp => absurd hp Bool.false_ne_true
  | controlFailed | dataFailed | closeIgnored | closeLost | closeFailed | sent => exact h
  | received hnot => exact absurd (hr.trans hnot).symm Bool.false_ne_true
  | pause hs hc => exact fun _ => ⟨hs, hc⟩
  | closed hs hc =>
      intro hp
      refine ⟨(h hp).1, ?_⟩
      show (_ && !true) = false
      exact Bool.and_false _
  | advance hs hk hlt =>
      intro hp
      exact absurd (hp.symm.trans (h.not_paused hs)) (by decide)
  | popped hs hlt hc =>
      intro hp
      exact absurd (hp.symm.trans (h.not_paused hs)) (by decide)
  | closeSent hs hlt hc =>
      intro hp
      exact absurd (hp.symm.trans (h.not_paused hs)) (by decide)

/-- `CLOSE_RECEIVED` is never cleared, so it is the same at the ends exactly if it is the same all
along. -/
lemma awake_steps {o o' : Out} (hsteps : Steps o o') :
    o'.closeState.received = o.closeState.received → Awake o → Awake o' := by
  induction hsteps with
  | refl =>
      intro _ h
      exact h
  | @tail o₁ o₂ hsteps hstep ih =>
      intro hr h
      have hle := (onward_steps hsteps).le.received
      have hle' := (onward_micro hstep).le.received
      have hsame : o₁.closeState.received = o.closeState.received := by
        cases hnow : o.closeState.received with
        | true => exact hle hnow
        | false =>
            by_contra hset
            rw [hnow] at hr
            exact absurd (hr.symm.trans (hle' (Bool.eq_true_of_not_eq_false hset))) (by decide)
      exact awake_micro (ih hsame h) hstep (hr.trans hsame.symm)

/-! ## Every run

The actions of a run, callbacks included.  A run counts up to where its object is freed (`Run`). -/

/-- **The public functions** leave `CLOSE_RECEIVED` alone, and `_error_close`, which sets it, ends
the pause. -/
lemma along_awake (env : Env) : Along env fun s s' => Awake s.out → Awake s'.out where
  quiet := fun hout h => by rwa [hout]
  trans := fun h h' hs => h' (h hs)
  api := fun s c =>
    awake_steps (steps_apiCall env s c) (congrArg View.received (view_apiCall env s c))
  fail := fun s code reason len h => by
    simp only [errorClose]
    split_ifs
    · exact h
    · rw [out_unpauseSend]
      exact fun hp => absurd hp Bool.false_ne_true

lemma awake_step (env : Env) {s : Cws} (ht : Tidy s.send) (h : Awake s.out) (a : Action) :
    Awake (step env s a).out := by
  cases a with
  | api c => exact (along_awake env).api s c h
  | send len =>
      exact awake_steps (steps_sendCb ht len) (congrArg View.received (view_sendCb s len)) h
  | receive buf => exact (along_awake env).receiveCb s buf h
  | header line status version => exact (along_awake env).headerCb s line status version h

/-- **Every run** keeps the invariant. -/
lemma awake_run (env : Env) (cfg : Cfg) (acts : List Action) :
    Awake (run env (Cws.fresh cfg) acts).out :=
  (run_invariant (P := fun s => Tidy s.send ∧ Awake s.out)
    ⟨tidy_nil, fun hp => absurd hp Bool.false_ne_true⟩
    (fun _ a h => ⟨(steps_step env h.1 a).tidy h.1, awake_step env h.1 h.2 a⟩) acts).2

/-- **No lost wake-up.**  In every state of every run in which there is something in the queue, or
both sides have closed and curl is to be told, the pause bit is clear. -/
theorem never_asleep (env : Env) (cfg : Cfg) (acts : List Action) :
    let s := run env (Cws.fresh cfg) acts
    s.send ≠ [] ∨ s.closeState.readyToClose = true → s.pauseSend = false := by
  intro s hwork
  have h : Awake s.out := awake_run env cfg acts
  by_contra hp
  obtain ⟨hs, hc⟩ := h (Bool.eq_true_of_not_eq_false hp)
  rcases hwork with hne | hready
  · exact hne hs
  · exact absurd (hready.symm.trans hc) (by decide)

/-- A ping ends the pause that an empty queue has led to. -/
theorem never_asleep_ping :
    (run Env.quiet (Cws.fresh {}) [.send 10]).pauseSend = true ∧
      (run Env.quiet (Cws.fresh {}) [.send 10, .api (.ping none 0)]).pauseSend = false := by
  refine ⟨by decide +kernel, never_asleep Env.quiet {} _ (.inl ?_)⟩
  intro hs
  exact absurd (congrArg List.length hs) (by decide +kernel)

end CurlWs
