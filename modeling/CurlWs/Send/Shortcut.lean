import CurlWs.Send.StreamInfo

/-!
# The empty block

A call of `cws_send_strm_binary` that neither begins nor ends a message and has no payload sends
nothing.  Whether it is an error is decided by a test of its own, on `last_sent_data_frame_info`,
which does not look at `CWS_LAST` nor at `close_state`.

**The record.**  `last_sent_data_frame_info` is zero until the first data frame (`unsent_run`), and
then it has the options of the last one.  That a message is open is a fact about the frames handed
over (`MessageOpen`), and the record says so if its mark of the last frame is looked at
(`messageOpen_run`).

**Two paths.**  An empty block is accepted if the record is not zero (`sendStrmBinary_empty`); one
with a payload goes through `frame_sender_data`, which asks for an open message and no close
(`code_sendStrmBinary`).  `ShortcutAgrees` compares the two.

* **`shortcut_agrees_iff`** — when the test says what `frame_sender_data` would.
-/

namespace CurlWs

/-- The data frames handed over leave a message open. -/
def MessageOpen (t : List Event) : Prop := dataGrammar.Reads (handedData t) true

/-! ## The record of the last frame

What the record says of the frames so far, in every run. -/

/-- `last_sent_data_frame_info` is zero until there is a data frame. -/
def Unsent (o : Out) : Prop := o.lastInfo = 0 ↔ handedData o.trace = []

lemma unsent_micro {o o' : Out} (h : Unsent o) (hstep : Micro o o') : Unsent o' := by
  rcases data_micro hstep with ⟨hinfo, hdata⟩ | ⟨f, hf, hdata⟩
  · rw [Unsent, hinfo, hdata]
    exact h
  · obtain ⟨-, hne⟩ := dataOpcode_ok hf.opcode
    rw [Unsent, hdata]
    exact iff_of_false hne (List.concat_ne_nil _ _)

/-- **In every run** the record is zero exactly before the first data frame. -/
lemma unsent_run (env : Env) (cfg : Cfg) (acts : List Action) :
    (run env (Cws.fresh cfg) acts).lastSentDataFrameInfo = 0 ↔
      handedData (run env (Cws.fresh cfg) acts).trace = [] := by
  have h : Unsent (run env (Cws.fresh cfg) acts).out :=
    run_out_invariant (P := Unsent) (iff_of_true rfl rfl) unsent_micro env acts
  rw [← handedData_filter]
  exact h

/-- A data frame leaves a message open or not, by its fin bit. -/
lemma dataGrammar_disjoint :
    Disjoint (dataGrammar.first ∪ dataGrammar.middle) (dataGrammar.whole ∪ dataGrammar.last) := by
  have hopen (x : ℕ × Bool) (hx : x ∈ dataGrammar.first ∪ dataGrammar.middle) : x.2 = false := by
    rcases hx with ⟨-, hx⟩ | rfl
    · exact hx
    · rfl
  have hclosed (x : ℕ × Bool) (hx : x ∈ dataGrammar.whole ∪ dataGrammar.last) : x.2 = true := by
    rcases hx with ⟨-, hx⟩ | rfl
    · exact hx
    · rfl
  refine Set.disjoint_left.mpr fun x hx hx' => ?_
  exact Bool.false_ne_true ((hopen x hx).symm.trans (hclosed x hx'))

/-- **In every run** a message is open exactly if the record says so. -/
lemma messageOpen_run (env : Env) (cfg : Cfg) (acts : List Action) :
    MessageOpen (run env (Cws.fresh cfg) acts).trace ↔
      isOpen (run env (Cws.fresh cfg) acts).lastSentDataFrameInfo = true := by
  have h : Continuity (run env (Cws.fresh cfg) acts).out :=
    run_out_invariant (P := Continuity) .nil continuity_micro env acts
  rw [MessageOpen, ← handedData_filter]
  constructor
  · intro hopen
    exact h.unique dataGrammar_disjoint hopen
  · intro hopen
    rw [← hopen]
    exact h

/-! ## The two paths

The code of a call, with a payload and without. -/

lemma sendStrmBinary_empty (env : Env) (s : Cws) (data : Option (List Byte)) :
    cwsSendStrmBinary env s 0 data 0 =
      if s.lastSentDataFrameInfo ≠ 0 then (.ok, s) else (.streamContinuityIssue, s) := by
  have hsend : cwsSendStrmBinary env s 0 data 0 = sendStream env s cwsBinary 0 data 0 := rfl
  rw [hsend, sendStream_eq, if_neg, streamResult, if_pos ⟨rfl, rfl⟩]
  rintro ⟨-, hlen⟩
  exact Nat.lt_irrefl 0 hlen

/-- A call with a payload, when there is memory. -/
lemma code_sendStrmBinary {env : Env} (halloc : ∀ n, env.alloc n = true) (s : Cws) (buf : List Byte)
    {len : ℕ} (hlen : 0 < len) :
    (cwsSendStrmBinary env s 0 (some buf) len).1 =
      if isOpen s.lastSentDataFrameInfo = false then .streamContinuityIssue
      else if s.closeState.any then .closedConnection
      else .ok := by
  have hsend : cwsSendStrmBinary env s 0 (some buf) len
      = sendStream env s cwsBinary 0 (some buf) len := rfl
  have hforeign : ¬ Foreign 0 := by decide
  have hstray : ¬ Stray cwsBinary 0 := by decide
  obtain ⟨f, hplain⟩ := frameSenderData_plain (.inl rfl) hforeign hstray env s (some buf) len
  have hfirst : decide (cwsFirst &&& (0 : Flags) ≠ 0) = false := rfl
  rw [hsend, sendStream_eq, if_neg (by rintro ⟨⟨⟩, -⟩),
    streamResult_full (not_and_of_not_right _ hlen.ne'), hplain, hfirst]
  split_ifs
  · rfl
  · rfl
  · rw [code_sendFrame, halloc]
    rfl

/-- An empty block does what a block with a payload would, short of sending it: the code is the
same, which is `CWSE_OK` when a message is open and there is no close. -/
structure ShortcutAgrees (env : Env) (s : Cws) : Prop where
  same : ∀ data buf len, 0 < len → len ≤ buf.length → len ≤ s.cfg.maxPayloadSize →
    (cwsSendStrmBinary env s 0 data 0).1 = (cwsSendStrmBinary env s 0 (some buf) len).1
  ok : ∀ data, (cwsSendStrmBinary env s 0 data 0).1 = .ok ↔
    MessageOpen s.trace ∧ s.closeState.any = false
  unchanged : ∀ data, (cwsSendStrmBinary env s 0 data 0).2 = s

lemma sendStrmBinary_empty_ok (env : Env) (s : Cws) (data : Option (List Byte)) :
    (cwsSendStrmBinary env s 0 data 0).1 = .ok ↔ s.lastSentDataFrameInfo ≠ 0 := by
  rw [sendStrmBinary_empty]
  split_ifs with hlast
  · exact iff_of_true rfl hlast
  · exact iff_of_false (by rintro ⟨⟩) hlast

/-- The two tests, in a state whose record of the last frame is right. -/
lemma shortcut_agrees_state {env : Env} (halloc : ∀ n, env.alloc n = true) {s : Cws}
    (hmsg : MessageOpen s.trace ↔ isOpen s.lastSentDataFrameInfo = true) :
    ShortcutAgrees env s ↔ s.lastSentDataFrameInfo = 0 ∨
      MessageOpen s.trace ∧ s.closeState.any = false := by
  constructor
  · intro h
    by_cases hlast : s.lastSentDataFrameInfo = 0
    · exact .inl hlast
    · exact .inr ((h.ok none).mp ((sendStrmBinary_empty_ok env s none).mpr hlast))
  · intro h
    refine ⟨?_, ?_, ?_⟩
    · intro data buf len hlen _ _
      rw [code_sendStrmBinary halloc s buf hlen, sendStrmBinary_empty]
      rcases h with hlast | ⟨hopen, hany⟩
      · rw [hlast]
        rfl
      · rw [hmsg] at hopen
        have hlast : s.lastSentDataFrameInfo ≠ 0 := fun h0 => isOpen_eq_true.mp hopen (.inl h0)
        rw [if_pos hlast, hopen, hany]
        rfl
    · intro data
      rw [sendStrmBinary_empty_ok]
      rcases h with hlast | ⟨hopen, hany⟩
      · refine iff_of_false (not_not.mpr hlast) ?_
        rintro ⟨hopen, -⟩
        exact isOpen_eq_true.mp (hmsg.mp hopen) (.inl hlast)
      · refine iff_of_true ?_ ⟨hopen, hany⟩
        intro hlast
        exact isOpen_eq_true.mp (hmsg.mp hopen) (.inl hlast)
    · intro data
      rw [sendStrmBinary_empty]
      split_ifs <;> rfl

/-- **When the shorter test agrees.**  No data frame has been sent so far, or a message is open and
there is no close.  After a whole message, and once there is a close, an empty block is accepted
where any other would be refused. -/
theorem shortcut_agrees_iff (env : Env) (halloc : ∀ n, env.alloc n = true) (cfg : Cfg)
    (acts : List Action) :
    let s := run env (Cws.fresh cfg) acts
    ShortcutAgrees env s ↔
      handedData s.trace = [] ∨ MessageOpen s.trace ∧ s.closeState.any = false := by
  intro s
  have hunsent : s.lastSentDataFrameInfo = 0 ↔ handedData s.trace = [] := unsent_run env cfg acts
  rw [← hunsent]
  exact shortcut_agrees_state halloc (messageOpen_run env cfg acts)

/-- Between the fragments of a message. -/
theorem shortcut_agrees_open :
    ShortcutAgrees .quiet (run .quiet (Cws.fresh {})
      [.api (.sendStrmBinary cwsFirst (some [0x68, 0x69]) 2)]) := by
  have halloc (n : ℕ) : Env.quiet.alloc n = true := rfl
  refine (shortcut_agrees_iff .quiet halloc {}
    [.api (.sendStrmBinary cwsFirst (some [0x68, 0x69]) 2)]).mpr (.inr ⟨?_, by decide +kernel⟩)
  have hdata : handedData (run .quiet (Cws.fresh {})
      [.api (.sendStrmBinary cwsFirst (some [0x68, 0x69]) 2)]).trace
        = [] ++ [(wsOpcodeBinary, false)] := by decide +kernel
  rw [MessageOpen, hdata]
  exact .first .nil ⟨.inr rfl, rfl⟩

/-- After a whole message an empty block is accepted, and a block with a payload is not. -/
theorem empty_after_message :
    let s := run .quiet (Cws.fresh {})
      [.api (.sendStrmBinary (cwsFirst ||| cwsLast) (some [0x68, 0x69]) 2)]
    (cwsSendStrmBinary .quiet s 0 none 0).1 = .ok ∧
      (cwsSendStrmBinary .quiet s 0 (some [0x78]) 1).1 = .streamContinuityIssue ∧
      ¬ ShortcutAgrees .quiet s := by
  intro s
  have hempty : (cwsSendStrmBinary .quiet s 0 none 0).1 = .ok := by decide +kernel
  have hfull : (cwsSendStrmBinary .quiet s 0 (some [0x78]) 1).1 = .streamContinuityIssue := by
    decide +kernel
  refine ⟨hempty, hfull, ?_⟩
  intro h
  have hmax : 1 ≤ s.cfg.maxPayloadSize := by decide +kernel
  have hsame := h.same none [0x78] 1 Nat.one_pos (Nat.le_refl 1) hmax
  rw [hempty, hfull] at hsame
  cases hsame

end CurlWs
