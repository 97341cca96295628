import CurlWs.Send.Closing
import CurlWs.Send.Encode

/-!
# Progress of the queue

A buffer that holds no bytes is never finished: it stays at the head of the queue, and `_send_cb`
tells curl that the upload is over.  `send_frame` makes such a buffer of every frame that does not
fit, and reports success.

**Frames that fit.**  Control frames always do, as their payload is bounded before they are built.
As long as every data frame does too, each buffer in the queue has bytes left to be sent and holds
as many as it says (`BufQueue.Live`, `LiveQueue`).

**A frame that does not.**  Its buffer says that nothing was written.  It is never at the end of its
bytes, so it is never taken out, and neither is anything behind it.  A close frame would empty the
queue, but it goes behind all the others and is not reached (`Stalls`).

**Both directions.**  What is expected of the queue is `Flows`: every buffer has something left, and
the upload ends only when both sides have closed.  The first half of the theorem is that it does
where all data frames fit; the second, that one which does not fit stops it in every later state.

* **`queue_flows`** — while every data frame fits, every buffer makes progress and the upload ends
  only when both sides have closed; a data frame that does not fit stops the queue for good.
-/

namespace CurlWs

/-! ## The frames that fit

Buffers with something left, along the steps. -/

/-- No step changes the configuration. -/
lemma micro_cfg {o o' : Out} (h : Micro o o') : o'.cfg = o.cfg := by
  cases h <;> rfl

/-- Control frames always fit. -/
lemma ControlFrame.fits {f : CwsFrame} (hf : ControlFrame f) (cfg : Cfg) : Fits cfg f := by
  have hlen := hf.len
  simp only [wsCtlPayloadMax] at hlen
  rw [Fits, if_pos hf.isControl, encodedLen, headerLen, if_pos hlen]
  simp only [wsCtlFrameMax, wsFrameHeaderMin, wsFrameHeaderMask, wsCtlPayloadMax]
  omega

/-- A buffer that is not finished and holds what it says. -/
structure BufQueue.Live (b : BufQueue) : Prop where
  left : b.sent < b.written
  held : b.written ≤ b.buffer.length

/-- The buffer of a frame that fits has something left. -/
lemma encodedBuf_live {cfg : Cfg} (hcfg : cfg.Sizable) {f : CwsFrame} (hf : Fits cfg f) :
    (encodedBuf cfg f).Live := by
  obtain ⟨hwritten, hbuffer⟩ := encodedBuf_of_fits hcfg hf
  refine ⟨?_, ?_⟩
  · rw [hwritten]
    exact encodedLen_pos f
  · rw [hwritten, hbuffer, length_encoding]

/-- If every data frame fits, every buffer is live. -/
def LiveQueue (o : Out) : Prop :=
  (∀ f ∈ dataFrames o.trace, Fits o.cfg f) → ∀ b ∈ o.send, b.Live

lemma dataFrames_mono {o o' : Out} (h : Micro o o') :
    ∀ f ∈ dataFrames o.trace, f ∈ dataFrames o'.trace := by
  have hgrow : o.trace <+: o'.trace := by
    cases h <;> simp [Out.push, Out.log, Out.setClose]
  intro f hf
  exact ((hgrow.filterMap _).filter _).subset hf

lemma mem_dataFrames_push (o : Out) {f : CwsFrame} (hf : f.isControl = false) :
    f ∈ dataFrames (o.push f).trace := by
  refine List.mem_filter.mpr ⟨?_, by rw [hf]; rfl⟩
  exact (queuedFrames_queued o.trace f).symm ▸ List.mem_append_right _ (List.mem_singleton_self f)

lemma live_push {o : Out} {f : CwsFrame} (hcfg : o.cfg.Sizable) (hf : Fits o.cfg f)
    (h : ∀ b ∈ o.send, b.Live) : ∀ b ∈ (o.push f).send, b.Live := by
  intro b hb
  rcases mem_enqueue.mp hb with rfl | hb
  · exact encodedBuf_live hcfg hf
  · exact h b hb

/-- **Every step** leaves every buffer live. -/
lemma liveQueue_micro {o o' : Out} (hcfg : o.cfg.Sizable) (h : LiveQueue o) (hstep : Micro o o') :
    LiveQueue o' := by
  intro hfits
  have hlive : ∀ b ∈ o.send, b.Live := by
    refine h fun f hf => ?_
    rw [← micro_cfg hstep]
    exact hfits f (dataFrames_mono hstep f hf)
  cases hstep with
  | control _ hf => exact live_push hcfg (hf.fits _) hlive
  | @data f options _ hf =>
      exact live_push (o := { o with lastInfo := options }) hcfg
        (hfits f (mem_dataFrames_push { o with lastInfo := options } hf.isControl)) hlive
  | close code reason len _ _ hf =>
      exact live_push (o := o.log (.closeCall code reason len false)) hcfg (hf.fits _) hlive
  | advance hs _ hlt =>
      rw [hs] at hlive
      intro b hb
      rcases List.mem_cons.mp hb with rfl | hb
      · exact ⟨hlt, (hlive _ List.mem_cons_self).held⟩
      · exact hlive b (List.mem_cons_of_mem _ hb)
  | popped hs =>
      rw [hs] at hlive
      exact fun b hb => hlive b (List.mem_cons_of_mem _ hb)
  | closeSent => exact List.forall_mem_nil _
  | _ => exact hlive

/-! ## The frames that do not fit

A buffer with nothing in it, along the steps. -/

/-- A close frame is the last in the queue. -/
def ClosesLast (queue : List BufQueue) : Prop := ∀ b ∈ queue.dropLast, b.isCloseFrame = false

/-- A data frame that was not encoded stays in the queue. -/
structure Stalls (o : Out) : Prop where
  last : ClosesLast o.send
  stuck : ∀ f ∈ dataFrames o.trace, (encodedBuf o.cfg f).written = 0 → ∃ b ∈ o.send, b.written = 0

lemma ClosesLast.eq_nil {head : BufQueue} {rest : List BufQueue} (h : ClosesLast (head :: rest))
    (hclose : head.isCloseFrame = true) : rest = [] := by
  by_contra hne
  rw [ClosesLast, List.dropLast_cons_of_ne_nil hne] at h
  exact absurd ((h head List.mem_cons_self).symm.trans hclose) (by decide)

/-- There is no close frame. -/
lemma closesLast_of_not_waiting {queue : List BufQueue}
    (h : ∀ b ∈ queue, b.isCloseFrame = false) : ClosesLast queue :=
  fun b hb => h b (List.mem_of_mem_dropLast hb)

lemma enqueue_of_not_urgent (queue : List BufQueue) (b : BufQueue) :
    enqueue queue b false = queue ++ [b] := by
  cases queue <;> rfl

lemma Closing.no_close {o : Out} (h : Closing o) (hq : o.closeState.queued = false) :
    ∀ b ∈ o.send, b.isCloseFrame = false := by
  intro b hb
  by_contra hclose
  exact absurd (hq.symm.trans (h.waiting b hb (Bool.eq_true_of_not_eq_false hclose))) (by decide)

/-- The queue without close frames keeps being so. -/
lemma closesLast_push {o : Out} (h : Closing o) (hq : o.closeState.queued = false) {f : CwsFrame}
    (hop : f.opcode ≠ wsOpcodeClose) : ClosesLast (o.push f).send := by
  refine closesLast_of_not_waiting fun b hb => ?_
  rcases mem_enqueue.mp hb with rfl | hb
  · exact decide_eq_false hop
  · exact h.no_close hq b hb

lemma stuck_push {o : Out} (h : Stalls o) {f : CwsFrame} :
    ∀ g ∈ dataFrames (o.push f).trace, (encodedBuf o.cfg g).written = 0 →
      ∃ b ∈ (o.push f).send, b.written = 0 := by
  intro g hg hzero
  change g ∈ dataFrames (o.trace ++ [.queued f]) at hg
  rw [dataFrames, queuedFrames_queued, List.filter_append] at hg
  rcases List.mem_append.mp hg with hg | hg
  · obtain ⟨b, hb, hbz⟩ := h.stuck g hg hzero
    exact ⟨b, mem_enqueue.mpr (.inr hb), hbz⟩
  · rw [List.mem_singleton.mp (List.mem_of_mem_filter hg)] at hzero
    exact ⟨_, mem_enqueue.mpr (.inl rfl), hzero⟩

/-- The queue and the frames queued so far are the same. -/
lemma Stalls.of_eq {o o' : Out} (h : Stalls o) (hcfg : o'.cfg = o.cfg) (hs : o'.send = o.send)
    (hf : queuedFrames o'.trace = queuedFrames o.trace) : Stalls o' := by
  refine ⟨?_, fun f hmem hzero => ?_⟩
  · rw [hs]
    exact h.last
  · rw [dataFrames, hf] at hmem
    rw [hcfg] at hzero
    rw [hs]
    exact h.stuck f hmem hzero

/-- **Every step** leaves the buffer where it is. -/
lemma stalls_micro {o o' : Out} (hc : Closing o) (h : Stalls o) (hstep : Micro o o') :
    Stalls o' := by
  cases hstep with
  | control hq _ hop => exact ⟨closesLast_push hc hq hop, stuck_push h⟩
  | controlFailed => exact h.of_eq rfl rfl (queuedFrames_note o rfl)
  | @data f options hany hf =>
      have hq : o.closeState.queued = false := by
        simp only [CloseState.any, Bool.or_eq_false_iff] at hany
        exact hany.1.1.2
      exact ⟨closesLast_push hc hq hf.not_close,
        stuck_push (o := { o with lastInfo := options }) ⟨h.last, h.stuck⟩⟩
  | dataFailed => exact h.of_eq rfl rfl (queuedFrames_note _ rfl)
  | closeIgnored => exact h.of_eq rfl rfl (queuedFrames_note o rfl)
  | @close code reason len f hq _ hf _ hurgent =>
      have hnote : Stalls (o.log (.closeCall code reason len false)) :=
        h.of_eq rfl rfl (queuedFrames_note o rfl)
      have hpush : Stalls ((o.log (.closeCall code reason len false)).push f) := by
        refine ⟨?_, stuck_push hnote⟩
        rw [Out.push, hurgent, enqueue_of_not_urgent, ClosesLast, List.dropLast_concat]
        exact hc.no_close hq
      exact hpush.of_eq rfl rfl (queuedFrames_setClose _ _)
  | closeLost =>
      refine h.of_eq rfl rfl ?_
      rw [queuedFrames_setClose, queuedFrames_note o rfl]
  | closeFailed =>
      refine h.of_eq rfl rfl ?_
      rw [queuedFrames_setClose, queuedFrames_note _ rfl, queuedFrames_note o rfl]
  | received => exact h.of_eq rfl rfl (queuedFrames_setClose o _)
  | unpause => exact h.of_eq rfl rfl rfl
  | pause => exact h.of_eq rfl rfl rfl
  | closed => exact h.of_eq rfl rfl (queuedFrames_setClose o _)
  | @advance head rest k hs hk hlt =>
      obtain ⟨hlast, hstuck⟩ := h
      rw [hs] at hlast hstuck
      refine ⟨fun b hb => ?_, fun f hf hzero => ?_⟩
      · cases rest with
        | nil => exact absurd hb List.not_mem_nil
        | cons next rest =>
            rcases List.mem_cons.mp hb with rfl | hb
            · exact hlast head List.mem_cons_self
            · exact hlast b (List.mem_cons_of_mem _ hb)
      · obtain ⟨b, hb, hbz⟩ := hstuck f hf hzero
        rcases List.mem_cons.mp hb with rfl | hb
        · omega
        · exact ⟨b, List.mem_cons_of_mem _ hb, hbz⟩
  | @popped head rest hs hlt =>
      obtain ⟨hlast, hstuck⟩ := h
      rw [hs] at hlast hstuck
      refine ⟨fun b hb => ?_, fun f hf hzero => ?_⟩
      · cases rest with
        | nil => exact absurd hb List.not_mem_nil
        | cons next rest => exact hlast b (List.mem_cons_of_mem _ hb)
      · obtain ⟨b, hb, hbz⟩ := hstuck f hf hzero
        rcases List.mem_cons.mp hb with rfl | hb
        · omega
        · exact ⟨b, hb, hbz⟩
  | @closeSent head rest hs hlt hclose =>
      -- nothing is behind the close frame, so nothing that is stuck is discarded with it
      obtain ⟨hlast, hstuck⟩ := h
      rw [hs] at hlast hstuck
      refine ⟨List.forall_mem_nil _, fun f hf hzero => ?_⟩
      rw [dataFrames, queuedFrames_setClose] at hf
      obtain ⟨b, hb, hbz⟩ := hstuck f hf hzero
      rw [hlast.eq_nil hclose] at hb
      rw [List.mem_singleton.mp hb] at hbz
      omega
  | sent => exact h.of_eq rfl rfl (queuedFrames_note o rfl)

/-! ## Every run

The two invariants, and what a drain does.  A run counts up to where its object is freed (`Run`). -/

lemma cfg_run (env : Env) (cfg : Cfg) (acts : List Action) :
    (run env (Cws.fresh cfg) acts).cfg = cfg :=
  run_out_invariant (P := fun o => o.cfg = cfg) rfl (fun h hstep => (micro_cfg hstep).trans h) env
    acts

lemma live_run {cfg : Cfg} (hcfg : cfg.Sizable) (env : Env) (acts : List Action) :
    LiveQueue (run env (Cws.fresh cfg) acts).out := by
  refine (run_out_invariant (P := fun o => o.cfg = cfg ∧ LiveQueue o)
    ⟨rfl, fun _ => List.forall_mem_nil _⟩ ?_ env acts).2
  rintro o o' ⟨rfl, h⟩ hstep
  exact ⟨micro_cfg hstep, liveQueue_micro hcfg h hstep⟩

lemma stalls_run (env : Env) (cfg : Cfg) (acts : List Action) :
    Stalls (run env (Cws.fresh cfg) acts).out :=
  (run_out_invariant (P := fun o => Closing o ∧ Stalls o)
    ⟨closing_fresh cfg, List.forall_mem_nil _, List.forall_mem_nil _⟩
    (fun h hstep => ⟨closing_micro h.1 hstep, stalls_micro h.1 h.2 hstep⟩) env acts).2

/-- A drain of a live queue moves something. -/
lemma fillOutgoingBuffer_ne_nil {s : Cws} {head : BufQueue} {rest : List BufQueue}
    (hs : s.send = head :: rest) (hlive : head.Live) {len : ℕ} (hlen : 0 < len) :
    (fillOutgoingBuffer s len).1 ≠ [] := by
  obtain ⟨hleft, hheld⟩ := hlive
  obtain ⟨n, rfl⟩ := Nat.exists_eq_succ_of_ne_zero hlen.ne'
  have hout : (head.buffer.drop head.sent).take (min (n + 1) (head.written - head.sent)) ≠ [] := by
    rw [← List.length_pos_iff, List.length_take, List.length_drop]
    omega
  simp only [fillOutgoingBuffer, hs]
  rw [fillLoop_cons hs n (by omega) (by omega) rfl]
  simp only
  split_ifs
  · exact hout
  · exact List.append_ne_nil_of_left_ne_nil hout _
  · exact List.append_ne_nil_of_left_ne_nil hout _

/-- Every buffer makes progress, and the end of the upload is reported to curl only when both sides
have closed. -/
structure Flows (s : Cws) : Prop where
  progress : ∀ b ∈ s.send, b.sent < b.written
  upload : ∀ len, 0 < len → (sendCb s len).1.rv = 0 →
    s.closeState.sent = true ∧ s.closeState.received = true

/-- Live buffers flow. -/
lemma flows_of_live {s : Cws} (h : ∀ b ∈ s.send, b.Live) : Flows s := by
  refine ⟨fun b hb => (h b hb).left, fun len hlen hrv => ?_⟩
  rw [sendCb] at hrv
  split_ifs at hrv with hred hs hready
  · exact absurd hrv hlen.ne'
  · simp only [CloseState.readyToClose, Bool.and_eq_true] at hready
    exact hready.1
  · exact absurd hrv (show curlReadfuncPause ≠ 0 by decide)
  · obtain ⟨head, rest, hcons⟩ := List.exists_cons_of_ne_nil hs
    have hhead := h head (hcons ▸ List.mem_cons_self)
    exact absurd (List.length_eq_zero_iff.mp hrv) (fillOutgoingBuffer_ne_nil hcons hhead hlen)

/-- **When the queue flows.**  It does in every run all of whose data frames fit; and a data frame
whose length is that of a payload in memory and that does not fit stops it for good. -/
theorem queue_flows (env : Env) (cfg : Cfg) (acts : List Action) (hcfg : cfg.Sizable) :
    let s := run env (Cws.fresh cfg) acts
    ((∀ f ∈ dataFrames s.trace, Fits cfg f) → Flows s) ∧
      ((∀ f ∈ dataFrames s.trace, encodedLen f < sizeModulus) → Flows s →
        ∀ f ∈ dataFrames s.trace, Fits cfg f) := by
  intro s
  have hdata : dataFrames s.out.trace = dataFrames s.trace := by
    rw [dataFrames, s.queuedFrames_out, dataFrames]
  have hs : s.out.cfg = cfg := cfg_run env cfg acts
  refine ⟨fun hfits => flows_of_live (live_run hcfg env acts ?_), fun hlen hflows f hf => ?_⟩
  · rw [hdata, hs]
    exact hfits
  · by_contra hnot
    obtain ⟨b, hb, hzero⟩ := (stalls_run env cfg acts).stuck f (hdata ▸ hf)
      (hs.symm ▸ encodedBuf_of_not_fits hcfg (hlen f hf) hnot)
    have hprogress := hflows.progress b hb
    omega

/-- A message that is sent in two frames flows. -/
theorem queue_flows_block :
    Flows (run Env.quiet (Cws.fresh { maxPayloadSize := 1 })
      [.api (.sendBlkText (some [0x41, 0x42]) 2)]) :=
  (queue_flows Env.quiet _ _ (by decide)).1 (by decide +kernel)

/-- With a maximum of one byte, a message of ten bytes passed to `cws_send_strm_binary` is accepted
and never sent: `_send_cb` reports the end of the upload, and the ping behind it is stuck. -/
theorem queue_stalls :
    let cfg : Cfg := { maxPayloadSize := 1 }
    let message : Option (List Byte) := some (List.replicate 10 0)
    let s := run Env.quiet (Cws.fresh cfg)
      [.api (.sendStrmBinary (cwsFirst ||| cwsLast) message 10), .api (.ping none 0)]
    ¬ Flows s ∧
      (cwsSendStrmBinary Env.quiet (Cws.fresh cfg) (cwsFirst ||| cwsLast) message 10).1 = .ok ∧
      s.send.map (fun b => (b.sent, b.written)) = [(0, 0), (0, 6)] ∧
      (sendCb s 100).1 = { rv := 0 } ∧ (sendCb s 100).2.send = s.send ∧ s.closeState = {} := by
  refine ⟨fun h => ?_, by decide +kernel⟩
  exact absurd (h.upload 100 (by decide) (by decide +kernel)).1 (by decide +kernel)

end CurlWs
