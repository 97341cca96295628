import CurlWs.Send.Blocks

/-!
# Calls that fail

A call that is refused before its first frame is built changes nothing.  Once a frame is built,
`last_sent_data_frame_info` has been overwritten, and when the pool has no memory for the frame, or
for a later one of the same message, nothing is taken back.

**Plans.**  What a call is going to do can be told from its arguments: the options of its first
frame and the number of its frames (`ApiCall.plan`).  Whether that frame is built depends on the
state (`Admits`), and whether there is memory for all of them on the allocator (`Supplied`).

**Outcomes.**  `Outcome` is what becomes of a plan: refused, it leaves everything; admitted, it
succeeds if it is supplied, has something in the queue after the first frame, and has the options of
the first frame recorded if there was no memory even for that.  One frame has such an outcome, and a
block of frames by induction over the rest (`Outcome.of_sent`).

**Clean failures.**  From the outcome alone it can be told when a failure leaves no trace
(`Outcome.clean_iff`).  One case is a coincidence: the options recorded are those that were there.

* **`fails_cleanly_iff`** — when a call that fails leaves the queue and the continuity state alone.
-/

namespace CurlWs

/-! ## What a call plans

Of the arguments, of the state and of the memory. -/

/-- The queue and the continuity state are as before. -/
structure Untouched (s s' : Cws) : Prop where
  send : s'.send = s.send
  info : s'.lastSentDataFrameInfo = s.lastSentDataFrameInfo

/-- If the call fails, it leaves them alone. -/
def FailsCleanly (env : Env) (s : Cws) (c : ApiCall) : Prop :=
  (apiCall env s c).1 ≠ .ok → Untouched s (apiCall env s c).2

/-- The calls that send data. -/
def ApiCall.isData : ApiCall → Bool
  | .sendBlkBinary .. | .sendBlkText .. | .sendStrmBinary .. | .sendStrmText .. => true
  | _ => false

/-- The options of the first frame of a block, and the number of its frames. -/
def blockPlan (cfg : Cfg) (type : Flags) (data : Option (List Byte)) (len : ℕ) : Flags × ℕ :=
  let n := if data = none then 0 else len
  (withLast (type ||| cwsFirst) (n ≤ cfg.maxPayloadSize), blockCount cfg.maxPayloadSize n)

/-- The same for a part of a stream, which is one frame. -/
def streamPlan (type info : Flags) (data : Option (List Byte)) (len : ℕ) : Option (Flags × ℕ) :=
  if data = none ∧ 0 < len then none
  else if info = 0 ∧ len = 0 then none
  else some (if cwsFirst &&& info ≠ 0 then info ||| type else info ||| cwsCont, 1)

/-- The options of the first frame of a call, and the number of its frames, if its arguments are not
refused and there is something to send. -/
def ApiCall.plan (cfg : Cfg) : ApiCall → Option (Flags × ℕ)
  | .sendBlkBinary data len =>
      if data = none ∧ 0 < len then none else some (blockPlan cfg cwsBinary data len)
  | .sendBlkText none len => if 0 < len then none else some (blockPlan cfg cwsText none len)
  | .sendBlkText (some t) len =>
      let n := textLen (some t) len
      if 0 < len ∧ utf8Validate (t.take n) ≠ some n then none
      else some (blockPlan cfg cwsText (some t) n)
  | .sendStrmBinary info data len => streamPlan cwsBinary info data len
  | .sendStrmText info none len => streamPlan cwsText info none len
  | .sendStrmText info (some t) len =>
      if 0 < len then
        (utf8Validate (t.take (textLen (some t) len))).bind (streamPlan cwsText info (some t))
      else streamPlan cwsText info (some t) len
  | _ => none

/-- `frame_sender_data` gets as far as building a frame with these options. -/
def Admits (s : Cws) (options : Flags) : Prop :=
  options = options &&& (cwsNonctrlMask ||| cwsFirst ||| cwsLast) ∧
    (∃ opcode, dataOpcode s.lastSentDataFrameInfo options = .ok opcode) ∧ s.closeState.any = false

/-- There is memory for the next `n` data frames.  Each consults the surroundings for its masking
key first. -/
def Supplied (env : Env) (s : Cws) (n : ℕ) : Prop := ∀ i < n, env.alloc (s.clock + 2 * i + 1) = true

/-! ## What comes of it

The three ways of ending, for one frame and for those after it. -/

/-- The result of sending `n` frames, the first with the options `options`. -/
structure Outcome (env : Env) (s : Cws) (options : Flags) (n : ℕ) (r : CWScode × Cws) : Prop where
  refused : ¬ Admits s options → r.1 ≠ .ok ∧ Untouched s r.2
  ok : Admits s options → (r.1 = .ok ↔ Supplied env s n)
  queued : Admits s options → env.alloc (s.clock + 1) = true → s.send.length < r.2.send.length
  failed : Admits s options → env.alloc (s.clock + 1) = false →
    r.2.send = s.send ∧ r.2.lastSentDataFrameInfo = options

/-- **When a failure is clean**, from the outcome. -/
lemma Outcome.clean_iff {env : Env} {s : Cws} {options : Flags} {n : ℕ} {r : CWScode × Cws}
    (h : Outcome env s options n r) :
    (r.1 ≠ .ok → Untouched s r.2) ↔ (Admits s options → Supplied env s n ∨
      env.alloc (s.clock + 1) = false ∧ options = s.lastSentDataFrameInfo) := by
  by_cases hadm : Admits s options
  · refine ⟨fun hclean _ => ?_, fun hcond hfail => ?_⟩
    · by_cases hsupplied : Supplied env s n
      · exact .inl hsupplied
      · have huntouched := hclean fun hok => hsupplied ((h.ok hadm).mp hok)
        cases halloc : env.alloc (s.clock + 1) with
        | true =>
            have hmore := h.queued hadm halloc
            rw [huntouched.send] at hmore
            exact absurd hmore (lt_irrefl _)
        | false => exact .inr ⟨rfl, (h.failed hadm halloc).2.symm.trans huntouched.info⟩
    · rcases hcond hadm with hsupplied | ⟨halloc, hsame⟩
      · exact absurd ((h.ok hadm).mpr hsupplied) hfail
      · obtain ⟨hsend, hinfo⟩ := h.failed hadm halloc
        exact ⟨hsend, hinfo.trans hsame⟩
  · exact iff_of_true (fun _ => (h.refused hadm).2) fun h => absurd h hadm

/-- What stays the same, and what the next frame needs, after a frame was queued. -/
structure Sent (s : Cws) (options : Flags) (s' : Cws) : Prop where
  cfg : s'.cfg = s.cfg
  clock : s'.clock = s.clock + 2
  closeState : s'.closeState = s.closeState
  info : s'.lastSentDataFrameInfo = options
  send : s'.send.length = s.send.length + 1

/-- A frame that is built and has memory is queued. -/
lemma frameSenderData_sent {env : Env} {s : Cws} {options : Flags} (hadm : Admits s options)
    (halloc : env.alloc (s.clock + 1) = true) (data : Option (List Byte)) (len : ℕ) :
    (frameSenderData env s options data len).1 = .ok ∧
      Sent s options (frameSenderData env s options data len).2 := by
  obtain ⟨hallowed, ⟨opcode, hop⟩, hopen⟩ := hadm
  rw [frameSenderData_eq, if_neg (not_not.mpr hallowed), hop]
  simp only [hopen, Bool.false_eq_true, if_false]
  generalize hs₁ : Cws.tick { s with lastSentDataFrameInfo := options } = s₁
  have halloc₁ : env.alloc s₁.clock = true := by
    rw [← hs₁]
    exact halloc
  rw [sendFrame, if_pos halloc₁, ← hs₁]
  exact ⟨rfl, rfl, rfl, rfl, rfl, length_enqueue _ _ _⟩

/-- Without memory, the options have been recorded all the same. -/
lemma frameSenderData_failed {env : Env} {s : Cws} {options : Flags} (hadm : Admits s options)
    (halloc : env.alloc (s.clock + 1) = false) (data : Option (List Byte)) (len : ℕ) :
    (frameSenderData env s options data len).1 = .outOfMemory ∧
      (frameSenderData env s options data len).2.send = s.send ∧
      (frameSenderData env s options data len).2.lastSentDataFrameInfo = options := by
  obtain ⟨hallowed, ⟨opcode, hop⟩, hopen⟩ := hadm
  rw [frameSenderData_eq, if_neg (not_not.mpr hallowed), hop]
  simp only [hopen, Bool.false_eq_true, if_false]
  generalize hs₁ : Cws.tick { s with lastSentDataFrameInfo := options } = s₁
  have halloc₁ : ¬ env.alloc s₁.clock = true := by
    rw [← hs₁, Bool.not_eq_true]
    exact halloc
  rw [sendFrame, if_neg halloc₁, ← hs₁]
  exact ⟨rfl, rfl, rfl⟩

/-- A frame that is not built leaves the connection as it is. -/
lemma frameSenderData_refused (env : Env) {s : Cws} {options : Flags}
    (hadm : ¬ Admits s options) (data : Option (List Byte)) (len : ℕ) :
    (frameSenderData env s options data len).1 ≠ .ok ∧
      (frameSenderData env s options data len).2 = s := by
  rw [frameSenderData_eq]
  by_cases hallowed : options ≠ options &&& (cwsNonctrlMask ||| cwsFirst ||| cwsLast)
  · rw [if_pos hallowed]
    exact ⟨by rintro ⟨⟩, rfl⟩
  rw [if_neg hallowed]
  cases hop : dataOpcode s.lastSentDataFrameInfo options with
  | error e => exact ⟨dataOpcode_error hop, rfl⟩
  | ok opcode =>
      have hany : s.closeState.any = true := by
        by_contra hopen
        exact hadm ⟨not_not.mp hallowed, ⟨opcode, hop⟩, Bool.eq_false_of_not_eq_true hopen⟩
      rw [hany]
      exact ⟨by rintro ⟨⟩, rfl⟩

lemma supplied_one {env : Env} {s : Cws} : Supplied env s 1 ↔ env.alloc (s.clock + 1) = true :=
  ⟨fun h => h 0 Nat.one_pos, fun h i hi => by rwa [Nat.lt_one_iff.mp hi]⟩

/-- The first frame, and the frames after it. -/
lemma supplied_succ {env : Env} {s s' : Cws} {n : ℕ} (hclock : s'.clock = s.clock + 2) :
    Supplied env s (n + 1) ↔ env.alloc (s.clock + 1) = true ∧ Supplied env s' n := by
  constructor
  · intro h
    refine ⟨h 0 (Nat.succ_pos n), fun i hi => ?_⟩
    have hnext := h (i + 1) (Nat.succ_lt_succ hi)
    rw [hclock]
    rwa [show s.clock + 2 + 2 * i + 1 = s.clock + 2 * (i + 1) + 1 by ring]
  · rintro ⟨hfirst, hrest⟩ i hi
    cases i with
    | zero => exact hfirst
    | succ i =>
        have hnext := hrest i (Nat.lt_of_succ_lt_succ hi)
        rw [hclock] at hnext
        rwa [show s.clock + 2 * (i + 1) + 1 = s.clock + 2 + 2 * i + 1 by ring]

section

variable {env : Env} {s : Cws} {options : Flags}

/-- Nothing comes of a call that is refused. -/
lemma Outcome.of_refused {n : ℕ} {r : CWScode × Cws} (hadm : ¬ Admits s options)
    (hfail : r.1 ≠ .ok) (hsame : r.2 = s) : Outcome env s options n r := by
  refine ⟨fun _ => ⟨hfail, ?_⟩, fun h => absurd h hadm, fun h => absurd h hadm,
    fun h => absurd h hadm⟩
  rw [hsame]
  exact ⟨rfl, rfl⟩

/-- Without memory for the first frame, only the record of it remains. -/
lemma Outcome.of_failed {n : ℕ} {r : CWScode × Cws} (hadm : Admits s options)
    (halloc : env.alloc (s.clock + 1) = false) (hfail : r.1 ≠ .ok)
    (hsame : r.2.send = s.send ∧ r.2.lastSentDataFrameInfo = options) :
    Outcome env s options (n + 1) r := by
  have hnone : ¬ env.alloc (s.clock + 1) = true := by
    rw [halloc]
    decide
  exact ⟨fun h => absurd hadm h, fun _ => iff_of_false hfail fun h => hnone (h 0 (Nat.succ_pos n)),
    fun _ h => absurd h hnone, fun _ _ => hsame⟩

/-- **One frame.** -/
lemma outcome_frameSenderData (env : Env) (s : Cws) (options : Flags) (data : Option (List Byte))
    (len : ℕ) : Outcome env s options 1 (frameSenderData env s options data len) := by
  by_cases hadm : Admits s options
  · cases halloc : env.alloc (s.clock + 1) with
    | true =>
        obtain ⟨hok, hsent⟩ := frameSenderData_sent hadm halloc data len
        refine ⟨fun h => absurd hadm h, fun _ => iff_of_true hok (supplied_one.mpr halloc),
          fun _ _ => ?_, fun _ h => absurd (halloc.symm.trans h) (by decide)⟩
        rw [hsent.send]
        exact Nat.lt_succ_self _
    | false =>
        obtain ⟨hfail, hsame⟩ := frameSenderData_failed hadm halloc data len
        refine .of_failed hadm halloc ?_ hsame
        rw [hfail]
        decide
  · obtain ⟨hfail, hsame⟩ := frameSenderData_refused env hadm data len
    exact .of_refused hadm hfail hsame

/-- When the first frame was queued, the result is that of the frames after it. -/
lemma Outcome.of_sent {s' : Cws} {options' : Flags} {n : ℕ} {r : CWScode × Cws}
    (hadm : Admits s options) (halloc : env.alloc (s.clock + 1) = true) (hsent : Sent s options s')
    (hadm' : Admits s' options') (hrest : Outcome env s' options' n r) :
    Outcome env s options (n + 1) r := by
  have hlen := hsent.send
  refine ⟨fun h => absurd hadm h, fun _ => ?_, fun _ _ => ?_,
    fun _ h => absurd (halloc.symm.trans h) (by decide)⟩
  · rw [hrest.ok hadm', supplied_succ hsent.clock]
    exact (and_iff_right halloc).symm
  · -- the queue has grown by the first frame already, whatever comes of the second
    cases halloc' : env.alloc (s'.clock + 1) with
    | true =>
        have hgrow := hrest.queued hadm' halloc'
        omega
    | false =>
        rw [(hrest.failed hadm' halloc').1]
        omega

end

/-! ## Blocks

A message that is cut into frames: the options of the later ones are those of continuations. -/

lemma blockOptions_open {options : Flags} {opcode : ℕ} (h : BlockOptions options opcode) :
    isOpen options = true := by
  cases h <;> decide

/-- After a frame that is not the last of its message, a continuation is let through. -/
lemma Sent.admits {s s' : Cws} {options : Flags} {opcode : ℕ} (h : Sent s options s')
    (hoptions : BlockOptions options opcode) (hadm : Admits s options) (last : Bool) :
    Admits s' (withLast cwsCont last) := by
  have hmust := isOpen_eq_true.mp (blockOptions_open hoptions)
  refine ⟨by cases last <;> decide, ⟨wsOpcodeContinuation, ?_⟩, ?_⟩
  · rw [h.info]
    cases last <;> simp only [dataOpcode, withLast, if_neg hmust] <;> rfl
  · rw [h.closeState]
    exact hadm.2.2

/-- **`data_block_sender`**: the frames of a message. -/
lemma outcome_dataBlockLoop (env : Env) (fuel : ℕ) : ∀ (s : Cws) {options : Flags} {opcode : ℕ}
    (buffer : List Byte) (len : ℕ), BlockOptions options opcode → len ≤ fuel →
    Outcome env s (withLast options (len ≤ s.cfg.maxPayloadSize))
      (blockCount s.cfg.maxPayloadSize len) (dataBlockLoop env fuel s options buffer len) := by
  have hlast : ∀ (s : Cws) (options : Flags) (buffer : List Byte) (len : ℕ),
      len ≤ s.cfg.maxPayloadSize →
      Outcome env s (withLast options (len ≤ s.cfg.maxPayloadSize))
        (blockCount s.cfg.maxPayloadSize len)
        (frameSenderData env s (options ||| cwsLast) (some buffer) len) := by
    intro s options buffer len hlen
    rw [decide_eq_true hlen, blockCount_le s.cfg.maxPayloadSize_pos hlen]
    exact outcome_frameSenderData ..
  induction fuel with
  | zero =>
      intro s options opcode buffer len _ hfuel
      exact hlast s options buffer len (by omega)
  | succ fuel ih =>
      intro s options opcode buffer len hoptions hfuel
      have hpos := s.cfg.maxPayloadSize_pos
      simp only [dataBlockLoop]
      by_cases hmore : s.cfg.maxPayloadSize < len
      · rw [if_pos hmore, decide_eq_false (not_le.mpr hmore), blockCount_add hpos hmore]
        show Outcome env s options _ _
        by_cases hadm : Admits s options
        · cases halloc : env.alloc (s.clock + 1) with
          | true =>
              obtain ⟨hok, hsent⟩ :=
                frameSenderData_sent hadm halloc (some buffer) s.cfg.maxPayloadSize
              rw [if_neg (not_not.mpr hok)]
              generalize (frameSenderData env s options (some buffer) s.cfg.maxPayloadSize).2 = s'
                at hsent
              have hrest := ih s' (buffer.drop s.cfg.maxPayloadSize) (len - s.cfg.maxPayloadSize)
                .cont (by omega)
              rw [hsent.cfg] at hrest
              exact .of_sent hadm halloc hsent (hsent.admits hoptions hadm _) hrest
          | false =>
              obtain ⟨hfail, hsame⟩ :=
                frameSenderData_failed hadm halloc (some buffer) s.cfg.maxPayloadSize
              have hne : (frameSenderData env s options (some buffer) s.cfg.maxPayloadSize).1 ≠ .ok
                  := by
                rw [hfail]
                decide
              rw [if_pos hne]
              exact .of_failed hadm halloc hne hsame
        · obtain ⟨hne, hsame⟩ := frameSenderData_refused env hadm (some buffer)
            s.cfg.maxPayloadSize
          rw [if_pos hne]
          exact .of_refused hadm hne hsame
      · rw [if_neg hmore]
        exact hlast s options buffer len (not_lt.mp hmore)

/-- A closed connection, or one that is closing, takes no data. -/
lemma outcome_closed {env : Env} {s : Cws} {options : Flags} {n : ℕ}
    (hany : s.closeState.any = true) : Outcome env s options n (.closedConnection, s) := by
  have hadm : ¬ Admits s options := fun h => absurd (hany.symm.trans h.2.2) (by decide)
  exact .of_refused hadm (by rintro ⟨⟩) rfl

lemma outcome_dataBlockSender (env : Env) (s : Cws) {type : Flags}
    (htype : type = cwsBinary ∨ type = cwsText) (data : Option (List Byte)) (len : ℕ) :
    Outcome env s (blockPlan s.cfg type data len).1 (blockPlan s.cfg type data len).2
      (dataBlockSender env s type data len) := by
  have hknown : ¬ (type ≠ cwsBinary ∧ type ≠ cwsText) := by
    rcases htype with rfl | rfl <;> decide
  have hblock : ∃ opcode, BlockOptions (type ||| cwsFirst) opcode := by
    rcases htype with rfl | rfl
    · exact ⟨_, .binary⟩
    · exact ⟨_, .text⟩
  have hone : blockPlan s.cfg type none len = (type ||| cwsFirst ||| cwsLast, 1) := by
    simp only [blockPlan, if_true, blockCount_le s.cfg.maxPayloadSize_pos (Nat.zero_le _)]
    rfl
  simp only [dataBlockSender]
  rw [if_neg hknown]
  by_cases hany : s.closeState.any = true
  · rw [if_pos hany]
    exact outcome_closed hany
  rw [if_neg hany]
  cases data with
  | none =>
      rw [hone]
      exact outcome_frameSenderData ..
  | some buffer =>
      cases len with
      | zero =>
          have hsame : blockPlan s.cfg type (some buffer) 0 = blockPlan s.cfg type none 0 := rfl
          rw [hsame, hone]
          exact outcome_frameSenderData ..
      | succ n =>
          obtain ⟨opcode, hblock⟩ := hblock
          exact outcome_dataBlockLoop env (n + 1) s buffer (n + 1) hblock le_rfl

/-! ## Calls

Each of the four calls that send data. -/

/-- The result of a call with this plan. -/
def PlanOutcome (env : Env) (s : Cws) (r : CWScode × Cws) : Option (Flags × ℕ) → Prop
  | none => Untouched s r.2
  | some (options, n) => Outcome env s options n r

/-- **`_send_stream`**: one frame, or nothing to send. -/
lemma planOutcome_sendStream (env : Env) (s : Cws) (type info : Flags) (data : Option (List Byte))
    (len : ℕ) :
    PlanOutcome env s (sendStream env s type info data len) (streamPlan type info data len) := by
  simp only [sendStream, streamPlan]
  split_ifs
  · exact ⟨rfl, rfl⟩
  · exact ⟨rfl, rfl⟩
  · exact ⟨rfl, rfl⟩
  · exact outcome_frameSenderData ..
  · exact outcome_frameSenderData ..

/-- **A call does what it plans.** -/
theorem planOutcome_apiCall (env : Env) (s : Cws) {c : ApiCall} (hc : c.isData = true) :
    PlanOutcome env s (apiCall env s c) (c.plan s.cfg) := by
  cases c with
  | sendBlkBinary data len =>
      simp only [apiCall, cwsSendBlkBinary, ApiCall.plan]
      split_ifs
      · exact ⟨rfl, rfl⟩
      · exact outcome_dataBlockSender env s (.inl rfl) data len
  | sendBlkText text len =>
      cases text with
      | none =>
          simp only [apiCall, cwsSendBlkText, ApiCall.plan]
          split_ifs
          · exact ⟨rfl, rfl⟩
          · exact outcome_dataBlockSender env s (.inr rfl) none len
      | some t =>
          simp only [apiCall, cwsSendBlkText, ApiCall.plan]
          change PlanOutcome env s (if 0 < len then
            if utf8Validate (t.take (textLen (some t) len)) ≠ some (textLen (some t) len)
            then (.invalidUtf8, s)
            else dataBlockSender env s cwsText (some t) (textLen (some t) len)
            else dataBlockSender env s cwsText (some t) len) _
          by_cases hpos : 0 < len
          · rw [if_pos hpos]
            simp only [hpos, true_and]
            split_ifs
            · exact ⟨rfl, rfl⟩
            · exact outcome_dataBlockSender env s (.inr rfl) (some t) _
          · rw [if_neg hpos, if_neg fun h => hpos h.1]
            have hzero : len = 0 := Nat.eq_zero_of_not_pos hpos
            rw [hzero]
            exact outcome_dataBlockSender env s (.inr rfl) (some t) 0
  | sendStrmBinary info data len => exact planOutcome_sendStream ..
  | sendStrmText info text len =>
      cases text with
      | none => exact planOutcome_sendStream ..
      | some t =>
          rw [apiCall, cwsSendStrmText_some]
          simp only [ApiCall.plan]
          split_ifs
          · cases utf8Validate (t.take (textLen (some t) len)) with
            | none => exact ⟨rfl, rfl⟩
            | some n => exact planOutcome_sendStream ..
          · exact planOutcome_sendStream ..
  | ping | pong | close | destroy => cases hc

/-- **When a failure is clean.**  A call that sends data leaves the queue and the continuity state
alone when it fails, exactly if it never gets as far as building a frame, or there is memory for all
its frames, or there is none for the first and the options of that frame are those of the last data
frame before it. -/
theorem fails_cleanly_iff (env : Env) (s : Cws) (c : ApiCall) (hc : c.isData = true) :
    FailsCleanly env s c ↔
      ∀ options n, c.plan s.cfg = some (options, n) → Admits s options →
        Supplied env s n ∨
          env.alloc (s.clock + 1) = false ∧ options = s.lastSentDataFrameInfo := by
  have h := planOutcome_apiCall env s hc
  cases hplan : c.plan s.cfg with
  | none =>
      rw [hplan] at h
      exact iff_of_true (fun _ => h) fun _ _ hnone => by cases hnone
  | some plan =>
      obtain ⟨options, n⟩ := plan
      rw [hplan] at h
      refine (Outcome.clean_iff h).trans ⟨?_, fun hcond => hcond options n rfl⟩
      rintro hcond _ _ ⟨⟩
      exact hcond

/-- Two frames, with memory for both. -/
theorem fails_cleanly_supplied :
    FailsCleanly Env.quiet (Cws.fresh { maxPayloadSize := 1 })
      (.sendBlkBinary (some [0, 0]) 2) :=
  (fails_cleanly_iff Env.quiet _ _ rfl).mpr fun _ _ _ _ => .inl fun _ _ => rfl

/-- Without memory for the frame, `cws_send_strm_text` of the first part of a message fails and
leaves the message open: the same call is refused when there is memory again.  Without memory for
the second of two frames, `cws_send_blk_binary` leaves the first in the queue. -/
theorem fails_half_way :
    let empty : Env := { Env.quiet with alloc := fun _ => false }
    let once : Env := { Env.quiet with alloc := fun t => t < 2 }
    let part : ApiCall := .sendStrmText cwsFirst (some [0x61]) 1
    let block : ApiCall := .sendBlkBinary (some [0, 0]) 2
    let small : Cws := Cws.fresh { maxPayloadSize := 1 }
    (¬ FailsCleanly empty (Cws.fresh {}) part ∧
      (apiCall Env.quiet (apiCall empty (Cws.fresh {}) part).2 part).1 = .streamContinuityIssue) ∧
    ¬ FailsCleanly once small block ∧ (apiCall once small block).1 = .outOfMemory ∧
      (apiCall once small block).2.send.length = 1 := by
  refine ⟨⟨fun h => ?_, by decide +kernel⟩, fun h => ?_, by decide +kernel, by decide +kernel⟩
  · exact absurd (h (by decide +kernel)).info (by decide +kernel)
  · exact absurd (h (by decide +kernel)).send (by decide +kernel)

end CurlWs
