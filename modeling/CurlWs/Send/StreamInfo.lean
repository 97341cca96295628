import CurlWs.Send.Stream

/-!
# The info of a stream call

`_send_stream` adds the type of the call to its `info` and leaves the type bits in it that the
caller has set.  `frame_sender_data` refuses more than one.  An `info` of zero with no payload does
not get that far.

**Bits.**  A word is its part inside a mask and its part outside.  `SameMarkers` says that two infos
agree outside the type bits; `Stray` that an info has a type bit besides the one that is added; and
`Foreign` that it has a bit that is neither.

**One call.**  What the two functions do with an info comes down to `streamResult`.  With a foreign
or a stray bit it is `CWSE_INVALID_OPTIONS`, and otherwise the options are the same for all infos
with the same markers (`SameMarkers.options`).

**Two calls.**  They are compared in a way that shows any difference from outside: either the
results are the same, keys included, or they differ in the code or in the number of frames in the
queue (`Compare`).  So a difference that is found is one that the caller can see.

## Main results

* **`apiCall_part`** — what a call of the two functions comes down to.
* **`types_ignored_iff`** — when two values of `info` that differ in their type bits do the same.
-/

namespace CurlWs

/-! ## Bits

Words of any width, and masks. -/

section
variable {w : ℕ}

/-- A word is its part inside a mask and its part outside. -/
lemma and_or_and_not (x m : BitVec w) : (x &&& m) ||| (x &&& ~~~m) = x := by
  ext i
  simp only [BitVec.getElem_or, BitVec.getElem_and, BitVec.getElem_not]
  cases x[i] <;> cases m[i] <;> rfl

lemma eq_and_iff {x m : BitVec w} : x = x &&& m ↔ x &&& ~~~m = 0 := by
  constructor
  · intro h
    rw [h, BitVec.and_assoc, BitVec.and_not_self]
    exact BitVec.and_zero
  · intro h
    have hsplit := and_or_and_not x m
    rw [h] at hsplit
    exact hsplit.symm.trans BitVec.or_zero

/-- Adding the bits of a mask to a word makes it the mask, if nothing of the word is outside. -/
lemma or_eq_right_iff {x m : BitVec w} : x ||| m = m ↔ x &&& ~~~m = 0 := by
  constructor
  · intro h
    have hout : (x ||| m) &&& ~~~m = 0 := by rw [h, BitVec.and_not_self]
    rw [BitVec.and_or_distrib_right, BitVec.and_not_self] at hout
    exact BitVec.or_zero.symm.trans hout
  · intro h
    rw [eq_and_iff.mpr h]
    ext i
    simp only [BitVec.getElem_or, BitVec.getElem_and]
    cases x[i] <;> cases m[i] <;> rfl

lemma and_or_self_right (x y : BitVec w) : y &&& (x ||| y) = y := by
  ext i
  simp only [BitVec.getElem_or, BitVec.getElem_and]
  cases x[i] <;> cases y[i] <;> rfl

/-- What is added anyway does not matter in a word. -/
lemma or_eq_of_part {x y m : BitVec w} (h : x &&& m ||| y = y) : x ||| y = x &&& ~~~m ||| y := by
  conv_lhs => rw [← and_or_and_not x m, BitVec.or_comm (x &&& m), BitVec.or_assoc, h]

end

/-! ## Type bits

The bits of an info, sorted by what `_send_stream` makes of them. -/

/-- The type `_send_stream` adds to the info of a call. -/
def streamLabel (type info : Flags) : Flags := if cwsFirst &&& info ≠ 0 then type else cwsCont

/-- There is a type bit in the info besides the one that is added. -/
def Stray (type info : Flags) : Prop := info &&& cwsNonctrlMask &&& ~~~streamLabel type info ≠ 0

/-- There is a bit in the info that is neither a marker nor a type bit. -/
def Foreign (info : Flags) : Prop := info &&& ~~~(cwsNonctrlMask ||| cwsFirst ||| cwsLast) ≠ 0

instance (type info : Flags) : Decidable (Stray type info) := inferInstanceAs (Decidable (_ ≠ _))
instance (info : Flags) : Decidable (Foreign info) := inferInstanceAs (Decidable (_ ≠ _))

/-- The two words differ in type bits only. -/
def SameMarkers (info info' : Flags) : Prop :=
  info &&& ~~~cwsNonctrlMask = info' &&& ~~~cwsNonctrlMask

instance (info info' : Flags) : Decidable (SameMarkers info info') :=
  inferInstanceAs (Decidable (_ = _))

variable {type info info' : Flags}

/-- A part of the word that has no type bit in it. -/
lemma SameMarkers.and_eq (h : SameMarkers info info') {m : Flags}
    (hm : ~~~cwsNonctrlMask &&& m = m) : info &&& m = info' &&& m := by
  rw [← hm, ← BitVec.and_assoc, h, BitVec.and_assoc]

/-- The type that is added depends on the markers. -/
lemma SameMarkers.label (h : SameMarkers info info') :
    streamLabel type info = streamLabel type info' := by
  have hfirst : cwsFirst &&& info = cwsFirst &&& info' := by
    rw [BitVec.and_comm, BitVec.and_comm cwsFirst]
    exact h.and_eq (by decide)
  rw [streamLabel, streamLabel, hfirst]

lemma SameMarkers.foreign (h : SameMarkers info info') : Foreign info ↔ Foreign info' := by
  rw [Foreign, Foreign, h.and_eq (by decide)]

lemma label_cases (ht : type = cwsBinary ∨ type = cwsText) (info : Flags) :
    streamLabel type info = cwsCont ∨ streamLabel type info = cwsBinary ∨
      streamLabel type info = cwsText := by
  rw [streamLabel]
  split_ifs
  · exact .inr ht
  · exact .inl rfl

/-- Nothing is left of the type bits but the one that is added. -/
lemma or_label_of_not_stray (h : ¬ Stray type info) :
    info &&& cwsNonctrlMask ||| streamLabel type info = streamLabel type info :=
  or_eq_right_iff.mpr (not_not.mp h)

/-- Two such words lead to the same options. -/
lemma SameMarkers.options (hm : SameMarkers info info') (h : ¬ Stray type info)
    (h' : ¬ Stray type info') :
    info ||| streamLabel type info = info' ||| streamLabel type info' := by
  rw [or_eq_of_part (or_label_of_not_stray h), or_eq_of_part (or_label_of_not_stray h'), hm,
    hm.label]

/-! ## The options

From the info to the options of `frame_sender_data`. -/

/-- The type bits of the options of a call. -/
lemma options_types (ht : type = cwsBinary ∨ type = cwsText) (info : Flags) :
    (info ||| streamLabel type info) &&& cwsNonctrlMask
      = info &&& cwsNonctrlMask ||| streamLabel type info := by
  rw [BitVec.and_or_distrib_right]
  rcases label_cases ht info with h | h | h <;> rw [h] <;> rfl

/-- The marker of the first fragment stays what it was. -/
lemma options_first (ht : type = cwsBinary ∨ type = cwsText) (info : Flags) :
    cwsFirst &&& (info ||| streamLabel type info) = cwsFirst &&& info := by
  rw [BitVec.and_or_distrib_left]
  have hzero : cwsFirst &&& streamLabel type info = 0 := by
    rcases label_cases ht info with h | h | h <;> rw [h] <;> rfl
  rw [hzero]
  exact BitVec.or_zero

/-- The options have a bit that is not allowed if the info has one. -/
lemma options_allowed (ht : type = cwsBinary ∨ type = cwsText) (info : Flags) :
    (info ||| streamLabel type info ≠
      (info ||| streamLabel type info) &&& (cwsNonctrlMask ||| cwsFirst ||| cwsLast)) ↔
        Foreign info := by
  have hzero : streamLabel type info &&& ~~~(cwsNonctrlMask ||| cwsFirst ||| cwsLast) = 0 := by
    rcases label_cases ht info with h | h | h <;> rw [h] <;> rfl
  rw [Ne, eq_and_iff, BitVec.and_or_distrib_right, hzero, Foreign]
  exact not_congr (iff_of_eq (congrArg (· = 0) BitVec.or_zero))

/-- A type bit too many. -/
lemma dataOpcode_stray (ht : type = cwsBinary ∨ type = cwsText) (h : Stray type info)
    (lastinfo : Flags) :
    dataOpcode lastinfo (info ||| streamLabel type info) = .error .invalidOptions := by
  have hne (c : Flags) (hc : c = cwsCont ∨ c = cwsBinary ∨ c = cwsText) :
      (info ||| streamLabel type info) &&& cwsNonctrlMask ≠ c := by
    intro heq
    rw [options_types ht] at heq
    have hlabel : streamLabel type info &&& c = streamLabel type info := by
      rw [← heq]
      exact and_or_self_right _ _
    have hsame : streamLabel type info = c := by
      rcases label_cases ht info with hl | hl | hl <;> rw [hl] at hlabel ⊢ <;>
        rcases hc with rfl | rfl | rfl <;> first | rfl | exact absurd hlabel (by decide)
    rw [← hsame] at heq
    exact h (or_eq_right_iff.mp heq)
  have hmask : cwsCont ||| cwsBinary ||| cwsText = cwsNonctrlMask := rfl
  rw [dataOpcode, hmask, if_neg (hne _ (.inl rfl)), if_neg]
  rintro (hbin | htext)
  · exact hne _ (.inr (.inl rfl)) hbin
  · exact hne _ (.inr (.inr rfl)) htext

/-- A frame that begins a message while one is open, or goes on with none while none is. -/
lemma dataOpcode_plain (ht : type = cwsBinary ∨ type = cwsText) (h : ¬ Stray type info)
    (lastinfo : Flags) :
    ∃ opcode, dataOpcode lastinfo (info ||| streamLabel type info) =
      if isOpen lastinfo = decide (cwsFirst &&& info ≠ 0) then .error .streamContinuityIssue
      else .ok opcode := by
  have htypes := options_types ht info
  rw [or_label_of_not_stray h] at htypes
  have hmask : cwsCont ||| cwsBinary ||| cwsText = cwsNonctrlMask := rfl
  rw [dataOpcode, hmask, htypes, options_first ht]
  by_cases hfirst : cwsFirst &&& info ≠ 0
  · have hlabel : streamLabel type info = type := if_pos hfirst
    have hne : type ≠ cwsCont := by
      rcases ht with rfl | rfl <;> decide
    have hopen : lastinfo ≠ 0 ∧ cwsLast &&& lastinfo = 0 ↔
        isOpen lastinfo = decide (cwsFirst &&& info ≠ 0) := by
      rw [decide_eq_true hfirst, isOpen_eq_true, not_or, not_not]
    rw [hlabel, if_neg hne, if_pos ht, if_neg hfirst]
    exact ⟨_, if_congr hopen rfl rfl⟩
  · have hlabel : streamLabel type info = cwsCont := if_neg hfirst
    have hclosed : lastinfo = 0 ∨ cwsLast &&& lastinfo ≠ 0 ↔
        isOpen lastinfo = decide (cwsFirst &&& info ≠ 0) := by
      rw [decide_eq_false hfirst, isOpen_eq_false]
    rw [hlabel, if_pos rfl, if_neg hfirst]
    exact ⟨_, if_congr hclosed rfl rfl⟩

/-! ## The calls

Both stream functions, for any arguments. -/

namespace Part

lemma streamType_cases (p : Part) : p.streamType = cwsBinary ∨ p.streamType = cwsText := by
  rw [streamType]
  split_ifs
  · exact .inr rfl
  · exact .inl rfl

/-- The two calls with different infos. -/
def withInfo (p : Part) (info : Flags) : Part := { p with info }

end Part

/-- The result of `_send_stream` for an argument that is not refused. -/
def streamResult (env : Env) (s : Cws) (type info : Flags) (data : Option (List Byte)) (n : ℕ) :
    CWScode × Cws :=
  if info = 0 ∧ n = 0 then
    if s.lastSentDataFrameInfo ≠ 0 then (.ok, s) else (.streamContinuityIssue, s)
  else frameSenderData env s (info ||| streamLabel type info) data n

/-- **`_send_stream`**, for arguments that are refused and for others. -/
lemma sendStream_eq (env : Env) (s : Cws) (type info : Flags) (data : Option (List Byte)) (n : ℕ) :
    sendStream env s type info data n =
      if data = none ∧ 0 < n then (.badFunctionArgument, s)
      else streamResult env s type info data n := by
  have hlabel : (if cwsFirst &&& info ≠ 0 then info ||| type else info ||| cwsCont)
      = info ||| streamLabel type info := by
    rw [streamLabel]
    split_ifs <;> rfl
  simp only [sendStream, streamResult, hlabel]

/-- **A call** is refused before its info is looked at, or is sent on with it. -/
theorem apiCall_part (env : Env) (s : Cws) (p : Part) :
    apiCall env s p.call =
      match p.entry with
      | .error e => (e, s)
      | .ok n => streamResult env s p.streamType p.info p.data n := by
  rw [apiCall_entry]
  cases hentry : p.entry with
  | error e => rfl
  | ok n => exact (sendStream_eq ..).trans (if_neg (Part.entry_not_null hentry))

/-! ## Two infos

Two calls that differ in their type bits only. -/

variable {env : Env} {s : Cws} {data : Option (List Byte)} {n : ℕ}

lemma zero_and_flags (m : Flags) : 0 &&& m = 0 := BitVec.zero_and

lemma code_sendFrame (env : Env) (s : Cws) (f : CwsFrame) :
    (sendFrame env s f).1 = if env.alloc s.clock then .ok else .outOfMemory := by
  rw [sendFrame]
  split_ifs <;> rfl

lemma length_sendFrame {f : CwsFrame} (h : (sendFrame env s f).1 = .ok) :
    (sendFrame env s f).2.send.length = s.send.length + 1 := by
  rw [sendFrame] at h ⊢
  split_ifs at h ⊢
  exact length_enqueue _ _ _

/-- Two results with the same code and as many frames in the queue, whatever the frames are. -/
def Alike (r r' : CWScode × Cws) : Prop := r.1 = r'.1 ∧ r.2.send.length = r'.2.send.length

lemma Alike.symm {r r' : CWScode × Cws} (h : Alike r r') : Alike r' r := ⟨h.1.symm, h.2.symm⟩

/-- Two results are the same, or they are told apart without looking at a frame. -/
inductive Compare (P : Prop) (r r' : CWScode × Cws) : Prop where
  | same (hp : P) (h : r = r')
  | differ (hp : ¬ P) (h : ¬ Alike r r')

namespace Compare

variable {P Q : Prop} {r r' : CWScode × Cws}

lemma congr (h : Compare P r r') (hpq : P ↔ Q) : Compare Q r r' := by
  cases h with
  | same hp h => exact .same (hpq.mp hp) h
  | differ hp h => exact .differ (mt hpq.mpr hp) h

lemma symm (h : Compare P r r') : Compare P r' r := by
  cases h with
  | same hp h => exact .same hp h.symm
  | differ hp h => exact .differ hp fun halike => h halike.symm

/-- The results are the same exactly if the condition holds. -/
lemma eq_iff (h : Compare P r r') : r = r' ↔ P := by
  cases h with
  | same hp h => exact iff_of_true h hp
  | differ hp h =>
      refine iff_of_false ?_ hp
      rintro rfl
      exact h ⟨rfl, rfl⟩

lemma eq_of_alike (h : Compare P r r') (halike : Alike r r') : r = r' := by
  cases h with
  | same _ h => exact h
  | differ _ h => exact absurd halike h

end Compare

lemma streamResult_full (h : ¬ (info = 0 ∧ n = 0)) :
    streamResult env s type info data n
      = frameSenderData env s (info ||| streamLabel type info) data n := if_neg h

/-- **`frame_sender_data`, of options with one type bit.** -/
theorem frameSenderData_plain (ht : type = cwsBinary ∨ type = cwsText) (hf : ¬ Foreign info)
    (hs : ¬ Stray type info) (env : Env) (s : Cws) (data : Option (List Byte)) (n : ℕ) :
    ∃ f, frameSenderData env s (info ||| streamLabel type info) data n =
      if isOpen s.lastSentDataFrameInfo = decide (cwsFirst &&& info ≠ 0) then
        (.streamContinuityIssue, s)
      else if s.closeState.any then (.closedConnection, s)
      else sendFrame env
        (Cws.tick { s with lastSentDataFrameInfo := info ||| streamLabel type info }) f := by
  obtain ⟨opcode, hop⟩ := dataOpcode_plain ht hs s.lastSentDataFrameInfo
  refine ⟨senderDataFrame (info ||| streamLabel type info) opcode data n (env.random s.clock), ?_⟩
  rw [frameSenderData_eq, if_neg (mt (options_allowed ht info).mp hf), hop]
  split_ifs <;> rfl

/-- Options with too many type bits, or a foreign one. -/
lemma streamResult_refused (ht : type = cwsBinary ∨ type = cwsText)
    (h : Foreign info ∨ Stray type info) :
    streamResult env s type info data n = (.invalidOptions, s) := by
  have hne : info ≠ 0 := by
    rintro rfl
    rcases h with hf | hs
    · exact hf (zero_and_flags _)
    · refine hs ?_
      rw [zero_and_flags, zero_and_flags]
  rw [streamResult_full (not_and_of_not_left _ hne), frameSenderData_eq]
  by_cases hf : Foreign info
  · rw [if_pos ((options_allowed ht info).mpr hf)]
  · rw [if_neg (mt (options_allowed ht info).mp hf),
      dataOpcode_stray ht (h.resolve_left hf) s.lastSentDataFrameInfo]

/-- No other options are refused as such. -/
lemma streamResult_ne_refused (ht : type = cwsBinary ∨ type = cwsText) (hf : ¬ Foreign info)
    (hs : ¬ Stray type info) : (streamResult env s type info data n).1 ≠ .invalidOptions := by
  by_cases hshort : info = 0 ∧ n = 0
  · rw [streamResult, if_pos hshort]
    split_ifs <;> rintro ⟨⟩
  · obtain ⟨f, hplain⟩ := frameSenderData_plain ht hf hs env s data n
    rw [streamResult_full hshort, hplain]
    split_ifs
    · rintro ⟨⟩
    · rintro ⟨⟩
    · rw [code_sendFrame]
      split_ifs <;> rintro ⟨⟩

/-- The shorter test and the longer one, for a call without payload that neither begins nor ends a
message. -/
lemma compare_shortcut (ht : type = cwsBinary ∨ type = cwsText) (hm : SameMarkers 0 info)
    (hs : ¬ Stray type info) (hne : info ≠ 0) :
    Compare (s.lastSentDataFrameInfo = 0) (streamResult env s type 0 data 0)
      (streamResult env s type info data 0) := by
  have hf : ¬ Foreign info := by
    rw [← hm.foreign]
    exact not_not.mpr (zero_and_flags _)
  have hfirst : cwsFirst &&& info = 0 := by
    rw [BitVec.and_comm, ← hm.and_eq (by decide), zero_and_flags]
  obtain ⟨f, hplain⟩ := frameSenderData_plain ht hf hs env s data 0
  rw [streamResult_full (not_and_of_not_left _ hne), hplain, streamResult, if_pos ⟨rfl, rfl⟩,
    hfirst]
  by_cases hlast : s.lastSentDataFrameInfo = 0
  · refine .same hlast ?_
    rw [hlast]
    rfl
  · rw [if_pos hlast]
    refine .differ hlast ?_
    rintro ⟨hcode, hlen⟩
    split_ifs at hcode hlen
    -- a frame has been queued
    rw [length_sendFrame hcode.symm] at hlen
    exact absurd hlen (Nat.ne_of_lt (Nat.lt_succ_self _))

/-- Neither of the two infos has a stray bit. -/
lemma compare_plain (ht : type = cwsBinary ∨ type = cwsText) (hm : SameMarkers info info')
    (hs : ¬ Stray type info) (hs' : ¬ Stray type info') :
    Compare (n = 0 → (info = 0 ↔ info' = 0) ∨ s.lastSentDataFrameInfo = 0)
      (streamResult env s type info data n) (streamResult env s type info' data n) := by
  have hfull (h : ¬ (info = 0 ∧ n = 0)) (h' : ¬ (info' = 0 ∧ n = 0)) :
      streamResult env s type info data n = streamResult env s type info' data n := by
    rw [streamResult_full h, streamResult_full h', hm.options hs hs']
  by_cases hn : n = 0
  · subst hn
    by_cases hz : info = 0 <;> by_cases hz' : info' = 0
    · refine .same ?_ (by rw [hz, hz'])
      intro _
      exact .inl (iff_of_true hz hz')
    · rw [hz] at hm ⊢
      refine (compare_shortcut ht hm hs' hz').congr ?_
      rw [forall_prop_of_true rfl, iff_true_left rfl, or_iff_right hz']
    · rw [hz'] at hm ⊢
      refine (compare_shortcut ht hm.symm hs hz).symm.congr ?_
      rw [forall_prop_of_true rfl, iff_true_right rfl, or_iff_right hz]
    · refine .same ?_ (hfull ?_ ?_)
      · intro _
        exact .inl (iff_of_false hz hz')
      · exact not_and_of_not_left _ hz
      · exact not_and_of_not_left _ hz'
  · refine .same ?_ (hfull ?_ ?_)
    · intro h
      exact absurd h hn
    · exact not_and_of_not_right _ hn
    · exact not_and_of_not_right _ hn

/-- When the type bits of the two infos make no difference: the call is refused for its bytes or for
a foreign bit, or both infos have a stray bit, or neither has.  Then an empty call must not have
zero for one info and not for the other, unless no data frame has been sent yet. -/
def TypesSuit (s : Cws) (p : Part) (info' : Flags) : Prop :=
  ∀ n, p.entry = .ok n → ¬ Foreign p.info →
    (Stray p.streamType p.info ↔ Stray p.streamType info') ∧
      (¬ Stray p.streamType p.info → n = 0 →
        (p.info = 0 ↔ info' = 0) ∨ s.lastSentDataFrameInfo = 0)

/-- The two calls, compared. -/
lemma compare_calls (env : Env) (s : Cws) (p : Part) {info' : Flags}
    (hm : SameMarkers p.info info') :
    Compare (TypesSuit s p info') (apiCall env s p.call) (apiCall env s (p.withInfo info').call) := by
  have ht := p.streamType_cases
  have hwith : apiCall env s (p.withInfo info').call =
      match p.entry with
      | .error e => (e, s)
      | .ok n => streamResult env s p.streamType info' p.data n := apiCall_part ..
  rw [apiCall_part, hwith, TypesSuit]
  cases hentry : p.entry with
  | error e =>
      refine .same ?_ rfl
      rintro n ⟨⟩
  | ok n =>
      simp only [Except.ok.injEq, forall_eq']
      by_cases hf : Foreign p.info
      · rw [streamResult_refused ht (.inl hf), streamResult_refused ht (.inl (hm.foreign.mp hf))]
        exact .same (fun h => absurd hf h) rfl
      · have hf' : ¬ Foreign info' := mt hm.foreign.mpr hf
        rw [forall_prop_of_true hf]
        by_cases hs : Stray p.streamType p.info <;> by_cases hs' : Stray p.streamType info'
        · rw [streamResult_refused ht (.inr hs), streamResult_refused ht (.inr hs')]
          exact .same ⟨iff_of_true hs hs', fun h => absurd hs h⟩ rfl
        · rw [streamResult_refused ht (.inr hs)]
          refine .differ ?_ ?_
          · rintro ⟨hboth, -⟩
            exact hs' (hboth.mp hs)
          · rintro ⟨hcode, -⟩
            exact streamResult_ne_refused ht hf' hs' hcode.symm
        · rw [streamResult_refused ht (.inr hs')]
          refine .differ ?_ ?_
          · rintro ⟨hboth, -⟩
            exact hs (hboth.mpr hs')
          · rintro ⟨hcode, -⟩
            exact streamResult_ne_refused ht hf hs hcode
        · refine (compare_plain ht hm hs hs').congr ?_
          simp only [hs, hs', true_and, not_false_eq_true, forall_true_left]

/-- **When the type bits are ignored.**  Two calls that differ in them give the same code and lead
to the same state, with the same bytes for a key.  Where they do not, the code shows it, or the
number of frames in the queue. -/
theorem types_ignored_iff (env : Env) (s : Cws) (p : Part) {info' : Flags}
    (hm : SameMarkers p.info info') :
    let r := apiCall env s p.call
    let r' := apiCall env s (p.withInfo info').call
    (r = r' ↔ TypesSuit s p info') ∧ (Alike r r' → r = r') := by
  intro r r'
  have hcompare : Compare (TypesSuit s p info') r r' := compare_calls env s p hm
  exact ⟨hcompare.eq_iff, hcompare.eq_of_alike⟩

/-- The type of the call is the one bit that may be set. -/
theorem types_ignored_binary :
    apiCall .quiet (Cws.fresh {}) (.sendStrmBinary (cwsFirst ||| cwsBinary) (some [0x68, 0x69]) 2)
      = apiCall .quiet (Cws.fresh {}) (.sendStrmBinary cwsFirst (some [0x68, 0x69]) 2) := by
  have hm : SameMarkers (cwsFirst ||| cwsBinary) cwsFirst := by decide
  refine (types_ignored_iff .quiet (Cws.fresh {})
    ⟨false, cwsFirst ||| cwsBinary, some [0x68, 0x69], 2⟩ hm).1.mpr ?_
  intro n _ _
  refine ⟨by decide, ?_⟩
  intro _ _
  exact .inl (by decide)

/-- The other type is refused. -/
theorem type_bit_refused :
    SameMarkers (cwsFirst ||| cwsText) cwsFirst ∧
      (apiCall .quiet (Cws.fresh {})
        (.sendStrmBinary (cwsFirst ||| cwsText) (some [0x68, 0x69]) 2)).1 = .invalidOptions ∧
      (apiCall .quiet (Cws.fresh {}) (.sendStrmBinary cwsFirst (some [0x68, 0x69]) 2)).1 = .ok := by
  decide +kernel

end CurlWs
