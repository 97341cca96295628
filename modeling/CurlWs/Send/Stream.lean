import CurlWs.Send.Blocks

/-!
# Streams

`cws_send_strm_text` has its text checked by `utf8_validate`, which lowers the length to the last
whole character.  The call goes on with what is left, and reports success.

**Parts.**  A `Part` is a call of one of the two stream functions: whether it is a text, its
markers, a pointer and a length.  The bytes it is given are those up to the length, or up to the NUL
for a text with `SIZE_MAX`.

**One call.**  Before its markers are looked at, a call is refused or comes down to `_send_stream`
with some length (`Part.entry`).  For a text this is the length of the part that is well-formed, for
anything else the one that was given (`Part.entry_ok`).  A call that reports success has queued the
bytes up to that length (`sent_part`).

**Runs of calls.**  What is queued is a sublist of what was given, so that all of it has been queued
only if each call has queued all of its bytes (`append_eq_append_iff_of_sublist`).

* **`stream_complete_iff`** — when a stream sends all of the bytes it was given.
-/

namespace CurlWs

open scoped List

/-! ## The calls

A call, its length and its bytes. -/

/-- A call that sends part of a stream. -/
structure Part where
  isText : Bool
  info : Flags
  data : Option (List Byte)
  len : ℕ

namespace Part

/-- The call. -/
def call (p : Part) : ApiCall :=
  if p.isText then .sendStrmText p.info p.data p.len else .sendStrmBinary p.info p.data p.len

/-- The length the call goes by. -/
def size (p : Part) : ℕ := if p.isText then textLen p.data p.len else p.len

/-- The bytes it is given. -/
def bytes (p : Part) : List Byte := givenBytes p.data p.size

/-- They are in memory. -/
def Readable (p : Part) : Prop := ∀ d ∈ p.data, p.size ≤ d.length

/-- A text ends where a character ends. -/
def Whole (p : Part) : Prop := p.isText = true → utf8Validate p.bytes = some p.bytes.length

/-- The type of the call. -/
def streamType (p : Part) : Flags := if p.isText then cwsText else cwsBinary

/-- What a call comes to before its info is looked at: the code it is refused with, or the length it
goes on with. -/
def entry (p : Part) : Except CWScode ℕ :=
  if p.data = none ∧ 0 < p.len then .error .badFunctionArgument
  else if p.isText ∧ 0 < p.len then
    match utf8Validate p.bytes with
    | none => .error .invalidUtf8
    | some n => .ok n
  else .ok p.len

end Part

/-- Every one of the calls returns `CWSE_OK`. -/
def AllOk (env : Env) : Cws → List ApiCall → Prop
  | _, [] => True
  | s, c :: calls => (apiCall env s c).1 = .ok ∧ AllOk env (apiCall env s c).2 calls

/-! ## One call

From the arguments to the frame that is queued. -/

lemma dataFrames_data (t : List Event) {f : CwsFrame} (hf : f.isControl = false) :
    dataFrames (t ++ [.queued f]) = dataFrames t ++ [f] := by
  rw [dataFrames, queuedFrames_queued, List.filter_append, List.filter_singleton, hf]
  rfl

/-- `frame_sender_data` reports success when it has queued the bytes it was given. -/
lemma sent_frameSenderData {env : Env} {s : Cws} {options : Flags} {data : Option (List Byte)}
    {len : ℕ} (hmem : ∀ d ∈ data, len ≤ d.length)
    (hok : (frameSenderData env s options data len).1 = .ok) :
    ∃ f, dataFrames (frameSenderData env s options data len).2.trace = dataFrames s.trace ++ [f] ∧
      f.data = givenBytes data len := by
  rw [frameSenderData_eq] at hok ⊢
  by_cases hallowed : options ≠ options &&& (cwsNonctrlMask ||| cwsFirst ||| cwsLast)
  · rw [if_pos hallowed] at hok
    cases hok
  rw [if_neg hallowed] at hok ⊢
  cases hop : dataOpcode s.lastSentDataFrameInfo options with
  | error e =>
      rw [hop] at hok
      exact absurd hok (dataOpcode_error hop)
  | ok opcode =>
      rw [hop] at hok
      simp only at hok ⊢
      split_ifs at hok ⊢ with hany
      generalize hs₁ : Cws.tick { s with lastSentDataFrameInfo := options } = s₁ at hok ⊢
      have htrace : s₁.trace = s.trace := by
        rw [← hs₁]
        rfl
      rw [sendFrame] at hok ⊢
      split_ifs at hok ⊢
      refine ⟨senderDataFrame options opcode data len (env.random s.clock), ?_,
        (payloadOf_given hmem).1⟩
      rw [← htrace]
      exact dataFrames_data s₁.trace rfl

/-- `_send_stream`, if it reports success. -/
lemma sent_sendStream {env : Env} {s : Cws} {type info : Flags} {data : Option (List Byte)}
    {len : ℕ} (hmem : ∀ d ∈ data, len ≤ d.length)
    (hok : (sendStream env s type info data len).1 = .ok) :
    ∃ fs, dataFrames (sendStream env s type info data len).2.trace = dataFrames s.trace ++ fs ∧
      fs.flatMap CwsFrame.data = givenBytes data len := by
  simp only [sendStream] at hok ⊢
  generalize (if cwsFirst &&& info ≠ 0 then info ||| type else info ||| cwsCont) = options at hok ⊢
  split_ifs at hok ⊢ with hnull hnone hlast
  · refine ⟨[], (List.append_nil _).symm, ?_⟩
    rw [hnone.2]
    rfl
  · obtain ⟨f, hframes, hdata⟩ := sent_frameSenderData hmem hok
    exact ⟨[f], hframes, by rw [List.flatMap_singleton, hdata]⟩

lemma utf8Validate_le {text : List Byte} {n : ℕ} (h : utf8Validate text = some n) :
    n ≤ text.length := by
  rw [utf8Validate, Option.map_eq_some_iff] at h
  obtain ⟨left, -, rfl⟩ := h
  exact Nat.sub_le ..

/-- A call is refused before its info is looked at, or comes down to `_send_stream`. -/
lemma apiCall_entry (env : Env) (s : Cws) (p : Part) :
    apiCall env s p.call =
      match p.entry with
      | .error e => (e, s)
      | .ok n => sendStream env s p.streamType p.info p.data n := by
  obtain ⟨isText, info, data, len⟩ := p
  cases isText with
  | false =>
      have hcall : apiCall env s (Part.call ⟨false, info, data, len⟩)
          = sendStream env s cwsBinary info data len := rfl
      simp only [hcall, Part.entry, Bool.false_eq_true, false_and, if_false]
      split_ifs with hnull
      · simp only [sendStream, if_pos hnull]
      · rfl
  | true =>
      cases data with
      | none =>
          have hcall : apiCall env s (Part.call ⟨true, info, none, len⟩)
              = sendStream env s cwsText info none len := rfl
          rw [hcall]
          by_cases hlen : 0 < len
          · simp only [Part.entry, sendStream, hlen, and_self, if_true]
          · simp only [Part.entry, hlen, and_false, if_false]
            rfl
      | some t =>
          have hcall : apiCall env s (Part.call ⟨true, info, some t, len⟩)
              = cwsSendStrmText env s info (some t) len := rfl
          rw [hcall, cwsSendStrmText_some]
          by_cases hlen : 0 < len
          · simp only [Part.entry, hlen, reduceCtorEq, false_and, and_self, if_true, if_false]
            have hbytes : Part.bytes ⟨true, info, some t, len⟩ = t.take (textLen (some t) len) :=
              rfl
            rw [hbytes]
            cases utf8Validate (t.take (textLen (some t) len)) <;> rfl
          · simp only [Part.entry, hlen, and_false, if_false]
            rfl

namespace Part

variable {p : Part} {n : ℕ}

/-- The length that a call which is not refused goes on with: a text is cut short, and nothing else
is. -/
lemma entry_ok (h : p.entry = .ok n) :
    (p.isText = true ∧ 0 < p.len ∧ utf8Validate p.bytes = some n) ∨
      ((p.isText = true → p.len = 0) ∧ n = p.len) := by
  rw [entry] at h
  split_ifs at h with hnull htext
  · cases hvalid : utf8Validate p.bytes with
    | none =>
        rw [hvalid] at h
        cases h
    | some k =>
        rw [hvalid] at h
        cases h
        exact .inl ⟨htext.1, htext.2, rfl⟩
  · cases h
    refine .inr ⟨?_, rfl⟩
    intro hi
    exact Nat.eq_zero_of_not_pos fun hlen => htext ⟨hi, hlen⟩

lemma entry_error {e : CWScode} (h : p.entry = .error e) : e ≠ .ok := by
  rw [entry] at h
  split_ifs at h
  · cases h
    decide
  · cases hvalid : utf8Validate p.bytes with
    | none =>
        rw [hvalid] at h
        cases h
        decide
    | some k =>
        rw [hvalid] at h
        cases h

lemma entry_not_null (h : p.entry = .ok n) : ¬ (p.data = none ∧ 0 < n) := by
  rintro ⟨hnone, hn⟩
  have hbytes : p.bytes = [] := by
    rw [bytes, hnone]
    exact List.take_nil
  rcases entry_ok h with ⟨-, -, hvalid⟩ | ⟨-, rfl⟩
  · have hle := utf8Validate_le hvalid
    rw [hbytes] at hle
    exact absurd hn (Nat.not_lt.mpr hle)
  · rw [entry, if_pos ⟨hnone, hn⟩] at h
    cases h

/-- The bytes that are sent on, of those that were given. -/
lemma entry_bytes (hmem : p.Readable) (h : p.entry = .ok n) :
    (∀ d ∈ p.data, n ≤ d.length) ∧ givenBytes p.data n <+ p.bytes ∧
      (givenBytes p.data n = p.bytes ↔ p.Whole) := by
  rcases entry_ok h with ⟨htext, -, hvalid⟩ | ⟨hzero, rfl⟩
  · have hn := utf8Validate_le hvalid
    have hsize : n ≤ p.size := hn.trans (length_givenBytes_le p.data p.size)
    have hshort : givenBytes p.data n = p.bytes.take n := by
      rw [bytes, givenBytes, givenBytes, List.take_take, Nat.min_eq_left hsize]
    refine ⟨fun d hd => hsize.trans (hmem d hd), ?_, ?_⟩
    · rw [hshort]
      exact List.take_sublist n p.bytes
    · rw [hshort, Whole, forall_prop_of_true htext, hvalid, List.take_eq_self_iff, Option.some_inj]
      omega
  · cases hi : p.isText with
    | false =>
        have hsize : p.size = p.len := if_neg (by rw [hi]; exact Bool.false_ne_true)
        have hsame : givenBytes p.data p.len = p.bytes := by rw [bytes, hsize]
        refine ⟨hsize ▸ hmem, hsame ▸ List.Sublist.refl _, iff_of_true hsame ?_⟩
        intro htext
        exact absurd (hi.symm.trans htext) Bool.false_ne_true
    | true =>
        have hlen : p.len = 0 := hzero hi
        have hsize : p.size = 0 := by
          rw [size, if_pos hi, hlen]
          cases p.data <;> rfl
        have hempty : p.bytes = [] := by rw [bytes, givenBytes, hsize, List.take_zero]
        have hsame : givenBytes p.data p.len = p.bytes := by
          rw [hempty, hlen, givenBytes, List.take_zero]
        refine ⟨?_, hsame ▸ List.Sublist.refl _, iff_of_true hsame ?_⟩
        · rw [hlen]
          intro d _
          exact Nat.zero_le _
        · rw [Whole, hempty]
          intro _
          rfl

end Part

/-- **One call**, if it reports success, has queued some of its bytes, and all of them
exactly if a text ends where a character ends. -/
theorem sent_part {env : Env} {s : Cws} {p : Part} (hmem : p.Readable)
    (hok : (apiCall env s p.call).1 = .ok) :
    ∃ fs, dataFrames (apiCall env s p.call).2.trace = dataFrames s.trace ++ fs ∧
      fs.flatMap CwsFrame.data <+ p.bytes ∧ (fs.flatMap CwsFrame.data = p.bytes ↔ p.Whole) := by
  rw [apiCall_entry] at hok ⊢
  cases hentry : p.entry with
  | error e =>
      rw [hentry] at hok
      exact absurd hok (Part.entry_error hentry)
  | ok n =>
      rw [hentry] at hok
      obtain ⟨hlong, hsub, hwhole⟩ := Part.entry_bytes hmem hentry
      obtain ⟨fs, hframes, hdata⟩ := sent_sendStream hlong hok
      rw [← hdata] at hsub hwhole
      exact ⟨fs, hframes, hsub, hwhole⟩

/-! ## A run of calls

One call after the other, each of which reports success. -/

/-- What is left of two parts is all of them exactly if it is all of each. -/
lemma append_eq_append_iff_of_sublist {α : Type*} {a b x y : List α} (ha : a <+ x) (hb : b <+ y) :
    a ++ b = x ++ y ↔ a = x ∧ b = y := by
  constructor
  · intro h
    have hlen := congrArg List.length h
    rw [List.length_append, List.length_append] at hlen
    have hax := ha.length_le
    have hby := hb.length_le
    exact ⟨ha.eq_of_length (by omega), hb.eq_of_length (by omega)⟩
  · rintro ⟨rfl, rfl⟩
    rfl

/-- **Several calls**, and what each has queued. -/
lemma sent_parts {env : Env} (parts : List Part) : ∀ {s : Cws}, (∀ p ∈ parts, p.Readable) →
    AllOk env s (parts.map Part.call) →
    ∃ fs, dataFrames (apiCalls env s (parts.map Part.call)).trace = dataFrames s.trace ++ fs ∧
      fs.flatMap CwsFrame.data <+ parts.flatMap Part.bytes ∧
      (fs.flatMap CwsFrame.data = parts.flatMap Part.bytes ↔ ∀ p ∈ parts, p.Whole) := by
  induction parts with
  | nil =>
      intro s _ _
      exact ⟨[], (List.append_nil _).symm, List.Sublist.refl _,
        iff_of_true rfl (List.forall_mem_nil _)⟩
  | cons p parts ih =>
      intro s hmem hok
      obtain ⟨hfirst, hrest⟩ := hok
      obtain ⟨fs, hframes, hsub, hwhole⟩ := sent_part (hmem p List.mem_cons_self) hfirst
      obtain ⟨gs, hmore, hsub', hwhole'⟩ :=
        ih (fun q hq => hmem q (List.mem_cons_of_mem _ hq)) hrest
      refine ⟨fs ++ gs, ?_, ?_, ?_⟩
      · rw [← List.append_assoc, ← hframes]
        exact hmore
      · rw [List.flatMap_append, List.flatMap_cons]
        exact hsub.append hsub'
      · rw [List.flatMap_append, List.flatMap_cons, append_eq_append_iff_of_sublist hsub hsub',
          hwhole, hwhole', List.forall_mem_cons]

/-- **When a stream is complete.**  The frames queued by calls that all report success carry the
bytes the calls were given, exactly if every text ends where a character ends. -/
theorem stream_complete_iff (env : Env) (s : Cws) (parts : List Part)
    (hmem : ∀ p ∈ parts, p.Readable) (hok : AllOk env s (parts.map Part.call)) :
    ∃ fs, dataFrames (apiCalls env s (parts.map Part.call)).trace = dataFrames s.trace ++ fs ∧
      (fs.flatMap CwsFrame.data = parts.flatMap Part.bytes ↔ ∀ p ∈ parts, p.Whole) := by
  obtain ⟨fs, hframes, -, hwhole⟩ := sent_parts parts hmem hok
  exact ⟨fs, hframes, hwhole⟩

/-- A letter in the first part and a character of two bytes in the last. -/
theorem stream_complete_two :
    let parts : List Part := [⟨true, cwsFirst, some [0x61], 1⟩,
      ⟨true, cwsLast, some [0xc3, 0xa9], 2⟩]
    ∃ fs, dataFrames (apiCalls Env.quiet (Cws.fresh {}) (parts.map Part.call)).trace = fs ∧
      fs.flatMap CwsFrame.data = [0x61, 0xc3, 0xa9] := by
  intro parts
  have hmem : ∀ p ∈ parts, p.Readable := by
    intro p hp
    simp only [parts, List.mem_cons, List.not_mem_nil, or_false] at hp
    rcases hp with rfl | rfl <;> rintro d ⟨⟩ <;> decide
  have hok : AllOk Env.quiet (Cws.fresh {}) (parts.map Part.call) :=
    ⟨by decide +kernel, by decide +kernel, trivial⟩
  obtain ⟨fs, hframes, hwhole⟩ := stream_complete_iff Env.quiet (Cws.fresh {}) parts hmem hok
  refine ⟨fs, hframes, hwhole.mpr fun p hp _ => ?_⟩
  simp only [parts, List.mem_cons, List.not_mem_nil, or_false] at hp
  rcases hp with rfl | rfl <;> decide +kernel

/-- The first byte of a character at the end of a text is dropped, and both calls report success.
The byte that belongs to it is refused in the next call. -/
theorem stream_drops_byte :
    let parts : List Part := [⟨true, cwsFirst, some [0x61, 0xc3], 2⟩,
      ⟨true, cwsLast, some [0x62], 1⟩]
    let s := apiCalls Env.quiet (Cws.fresh {}) (parts.map Part.call)
    AllOk Env.quiet (Cws.fresh {}) (parts.map Part.call) ∧
      (dataFrames s.trace).flatMap CwsFrame.data = [0x61, 0x62] ∧
      parts.flatMap Part.bytes = [0x61, 0xc3, 0x62] ∧
      (cwsSendStrmText Env.quiet
        (cwsSendStrmText Env.quiet (Cws.fresh {}) cwsFirst (some [0x61, 0xc3]) 2).2
        cwsLast (some [0xa9]) 1).1 = .invalidUtf8 :=
  ⟨⟨by decide +kernel, by decide +kernel, trivial⟩, by decide +kernel⟩

end CurlWs
