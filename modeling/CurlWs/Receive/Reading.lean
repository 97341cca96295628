import CurlWs.Receive.Framing

/-!
# Whole runs of the receive path

The iterations of the receive loop put together, and the calls of `_receive_cb`, with anything else
that can happen to a connection in between.

**Induction.**  A property of the connection, of the bytes so far and of those still to be processed
holds in every run if it holds at the start, if a chunk that arrives and a close keep it, and if one
iteration does.  `run_view_induction` and `run_core_induction` say so once; every theorem about the
receive path goes through one of them.  Calls of the user, of curl for output, and of `cws_destroy`
do not touch the receive state; what the model does after the object is freed has no meaning.

**Refinement.**  `Reading` says that the connection is where the reference is: what has been
received and what the bytes to come will add is what the reference makes of the stream.  It is kept
until a text is refused (`Tracks`), and from then on what has been received is a beginning of it.

**Arrival.**  The other direction: all that the stream has to say has been received, unless a text
is refused (`whole_or_refused`).

## Main results

* **`run_view_induction`**, **`run_core_induction`** — what one iteration preserves holds at the end
  of every run.
* **`run_reading`** — the receive path refines the reference: what has been received is what the
  reference makes of the stream, up to the point where a text has been refused.
* **`whole_or_refused`** — what the stream means has arrived, or a text has been refused.
-/

namespace CurlWs

open WebSocket

/-! ## The bytes of the stream

What curl delivers in a run, in one piece. -/

/-- The bytes of the WebSocket stream an action brings: those curl delivers, unless they are the
body of a response that curl is going to follow to another place. -/
def streamPart (s : Cws) : Action → List Byte
  | .receive buf => if s.cfg.followRedirects ∧ s.headerState.redirection then [] else buf
  | _ => []

/-- The bytes of the WebSocket stream in a run. -/
def streamBytes (env : Env) : Cws → List Action → List Byte
  | _, [] => []
  | s, a :: acts => streamPart s a ++ streamBytes env (step env s a) acts

/-! ## What does not touch the receive state

All actions but the delivery of bytes. -/

lemma core_apiCall (env : Env) (s : Cws) (c : ApiCall) : (apiCall env s c).2.core = s.core :=
  core_congr (view_apiCall env s c)

lemma core_sendCb (s : Cws) (len : ℕ) : (sendCb s len).2.core = s.core :=
  core_congr (view_sendCb s len)

lemma core_headerCb (env : Env) (s : Cws) (line : List Byte) (status version : ℤ) :
    (headerCb env s line status version).2.core = s.core := by
  have heffect := effect_headerCb env s line status version
  change (headerCb env s line status version).2.view.core = s.view.core
  generalize (headerCb env s line status version).2.view = w at heffect
  cases heffect with
  | noted h => rfl
  | told h installed c hc =>
      refine View.core_call { s.view with
        headerState := h, dispatching := s.view.dispatching + 1 } installed fun S d => ?_
      rcases hc with ⟨code, reason, rfl⟩ | ⟨protocols, rfl⟩
      · rfl
      · rfl

/-! ## Where the connection is in the stream

The refinement relation, and its form after a refusal. -/

/-- The connection is where the reference is after the bytes `bs`, the last of which, `left`, are
still to be processed. -/
structure Reading (bs left : List Byte) (c : Core) : Prop where
  shape : c.received = false → Shape c
  meaning : ∀ t, c.meaning (left ++ t) = decode none (bs ++ t)

/-- The same, or a text has been refused on the way. -/
inductive Tracks (bs left : List Byte) (c : Core) : Prop where
  | reading (h : Reading bs left c)
  | refused (hclosed : c.received = true) (hbegin : ∀ t, c.seen.items <+: decode none (bs ++ t))
      (htext : ∀ t, Item.start .text ∈ decode none (bs ++ t))

lemma Tracks.chunk {bs : List Byte} {c : Core} (h : Tracks bs [] c) (buf : List Byte) :
    Tracks (bs ++ buf) buf c := by
  cases h with
  | reading h =>
      refine .reading ⟨h.shape, fun t => ?_⟩
      rw [List.append_assoc]
      exact h.meaning (buf ++ t)
  | refused hclosed hbegin htext =>
      refine .refused hclosed (fun t => ?_) fun t => ?_
      · rw [List.append_assoc]
        exact hbegin (buf ++ t)
      · rw [List.append_assoc]
        exact htext (buf ++ t)

/-- A closed connection processes no more. -/
lemma Tracks.done {bs left : List Byte} {c : Core} (hc : c.received = true) (h : Tracks bs left c) :
    Tracks bs [] c := by
  cases h with
  | reading h =>
      refine .reading ⟨h.shape, fun t => ?_⟩
      rw [← h.meaning t, Core.meaning_closed hc, Core.meaning_closed hc]
  | refused hclosed hbegin htext => exact .refused hclosed hbegin htext

/-- One iteration. -/
lemma Reading.iterate {bs buf rest : List Byte} {s s' : Cws} (h : Reading bs buf s.core)
    (hi : Iteration s buf s' rest) : Tracks bs rest s'.core := by
  cases hi with
  | quiet _ hshape _ hm => exact .reading ⟨fun ho => (hshape ho).1, fun t => by rw [hm, h.meaning]⟩
  | piece _ _ _ _ _ _ _ hshape _ _ _ _ hm =>
      exact .reading ⟨fun _ => hshape, fun t => by rw [hm, h.meaning]⟩
  | refused hready _ _ _ _ _ hclosed hseen _ hm =>
      refine .refused hclosed (fun t => ?_) fun t => ?_
      · rw [← h.meaning t, hm, hseen, List.append_assoc]
        exact List.prefix_append _ _
      · rw [← h.meaning t, hm]
        exact List.mem_append_left _ hready.start_mem

/-- At the start nothing has come, and nothing is held. -/
lemma reading_fresh (cfg : Cfg) : Reading [] [] (Cws.fresh cfg).core :=
  ⟨fun _ => ⟨headerPending_default, .idle rfl rfl rfl rfl, .nothing rfl rfl, rfl⟩, fun _ => rfl⟩

/-! ## Induction

From one iteration to the loop, to the chunk and to the run. -/

section
variable {env : Env} {P : List Byte → List Byte → View → Prop}
  (chunk : ∀ bs buf v, P bs [] v → P (bs ++ buf) buf v)
  (done : ∀ bs left v, v.received = true → P bs left v → P bs [] v)
  (iter : ∀ bs buf rest s s' w r, buf ≠ [] → cwsProcessFrame env s buf = (s', rest) →
    s.closeState.received = false → Reading bs buf s.core → Iteration s buf s' rest →
      Effect (s.view.setRecv r) w → s'.view = w.setRecv s'.recv → P bs buf s.view →
        P bs rest s'.view)
include done iter

/-- The receive loop. -/
lemma receiveLoop_induction (fuel : ℕ) : ∀ (bs buf : List Byte) (s : Cws), buf.length ≤ fuel →
    s.closeState.received = false → Reading bs buf s.core → P bs buf s.view →
      Tracks bs [] (receiveLoop env fuel s buf).core ∧
        P bs [] (receiveLoop env fuel s buf).view := by
  induction fuel with
  | zero =>
      intro bs buf s hlen _ hr hp
      obtain rfl := List.length_eq_zero_iff.mp (Nat.le_zero.mp hlen)
      exact ⟨.reading hr, hp⟩
  | succ fuel ih =>
      intro bs buf s hlen ho hr hp
      rw [receiveLoop]
      split_ifs with hpos
      · have hbuf := List.ne_nil_of_length_pos hpos
        have hi := iteration_cases ho (hr.shape ho) hbuf env
        obtain ⟨r, w, heffect, hview⟩ := effect_processFrame env s buf
        have hp' := iter bs buf _ s _ w r hbuf rfl ho hr hi heffect hview hp
        have ht' := hr.iterate hi
        simp only
        split_ifs with hstop
        · rcases hstop with hsame | hclosed
          · cases hc : (cwsProcessFrame env s buf).1.closeState.received with
            | true => exact ⟨ht'.done hc, done bs _ _ hc hp'⟩
            | false =>
                cases hi with
                | quiet _ hshape _ _ => exact absurd hsame (hshape hc).2.ne
                | piece _ _ _ _ _ _ _ _ hlt _ _ _ _ => exact absurd hsame hlt.ne
                | refused _ _ _ _ _ _ hclosed _ _ _ =>
                    exact absurd (hclosed.symm.trans hc) (by simp)
          · exact ⟨ht'.done hclosed, done bs _ _ hclosed hp'⟩
        · obtain ⟨hne, hopen⟩ := not_or.mp hstop
          have hopen' := Bool.eq_false_of_not_eq_true hopen
          cases ht' with
          | refused hclosed _ _ => exact absurd hclosed hopen
          | reading hr' =>
              refine ih bs _ _ ?_ hopen' hr' hp'
              cases hi with
              | quiet _ hshape _ _ =>
                  have := (hshape hopen').2
                  omega
              | piece _ _ _ _ _ _ _ _ hlt _ _ _ _ => omega
              | refused _ _ _ _ _ _ hclosed _ _ _ => exact absurd hclosed hopen
      · obtain rfl : buf = [] := List.length_eq_zero_iff.mp (by omega)
        exact ⟨.reading hr, hp⟩

include chunk

/-- **Induction over the iterations of a run.** -/
theorem run_view_induction {cfg : Cfg} (init : P [] [] (Cws.fresh cfg).view) (acts : List Action)
    (header : ∀ line status version, .header line status version ∈ acts →
      ∀ bs s, P bs [] s.view → P bs [] (headerCb env s line status version).2.view) :
    let bs := streamBytes env (Cws.fresh cfg) acts
    let s := run env (Cws.fresh cfg) acts
    Tracks bs [] s.core ∧ P bs [] s.view := by
  have hrun (tail : List Action) (htail : tail ⊆ acts) : ∀ (s : Cws) (bs : List Byte),
      Tracks bs [] s.core → P bs [] s.view →
        Tracks (bs ++ streamBytes env s tail) [] (run env s tail).core ∧
          P (bs ++ streamBytes env s tail) [] (run env s tail).view := by
    induction tail with
    | nil =>
        intro s bs ht hp
        rw [streamBytes, List.append_nil]
        exact ⟨ht, hp⟩
    | cons a tail ih =>
        intro s bs ht hp
        rw [streamBytes, ← List.append_assoc]
        refine (fun h => ih (fun _ hb => htail (List.mem_cons_of_mem a hb)) _ _ h.1 h.2)
          (?_ : _ ∧ _)
        cases a with
        | api c =>
            simp only [step, streamPart, List.append_nil, core_apiCall, view_apiCall]
            exact ⟨ht, hp⟩
        | send len =>
            simp only [step, streamPart, List.append_nil, core_sendCb, view_sendCb]
            exact ⟨ht, hp⟩
        | header line status version =>
            simp only [step, streamPart, List.append_nil, core_headerCb]
            exact ⟨ht, header line status version (htail List.mem_cons_self) bs s hp⟩
        | receive buf =>
            simp only [step, streamPart, receiveCb]
            by_cases hnil : buf = []
            · rw [if_pos hnil, hnil, ite_self, List.append_nil]
              exact ⟨ht, hp⟩
            · rw [if_neg hnil]
              by_cases hredirect : s.cfg.followRedirects = true ∧ s.headerState.redirection = true
              · rw [if_pos hredirect, if_pos hredirect, List.append_nil]
                exact ⟨ht, hp⟩
              · rw [if_neg hredirect, if_neg hredirect]
                split_ifs with hclosed
                · exact ⟨(ht.chunk buf).done hclosed, done _ _ _ hclosed (chunk _ buf _ hp)⟩
                · have hopen := Bool.eq_false_of_not_eq_true hclosed
                  cases ht.chunk buf with
                  | refused hc _ _ => exact absurd hc hclosed
                  | reading hr =>
                      exact receiveLoop_induction done iter buf.length _ buf s le_rfl hopen hr
                        (chunk _ buf _ hp)
  have hall := hrun acts (List.Subset.refl _) (Cws.fresh cfg) [] (.reading (reading_fresh cfg)) init
  rwa [List.nil_append] at hall

end

/-- **Induction over the iterations of a run**, for what depends on the core only. -/
theorem run_core_induction {env : Env} {P : List Byte → List Byte → Core → Prop}
    (chunk : ∀ bs buf c, P bs [] c → P (bs ++ buf) buf c)
    (done : ∀ bs left c, c.received = true → P bs left c → P bs [] c)
    (iter : ∀ bs buf rest s s', s.closeState.received = false → Reading bs buf s.core →
      Iteration s buf s' rest → P bs buf s.core → P bs rest s'.core)
    {cfg : Cfg} (init : P [] [] (Cws.fresh cfg).core) (acts : List Action) :
    let bs := streamBytes env (Cws.fresh cfg) acts
    let c := (run env (Cws.fresh cfg) acts).core
    Tracks bs [] c ∧ P bs [] c :=
  @run_view_induction env (fun bs left v => P bs left v.core) (fun bs buf v => chunk bs buf v.core)
    (fun bs left v => done bs left v.core)
    (fun bs buf rest s s' _ _ _ _ ho hr hi _ _ => iter bs buf rest s s' ho hr hi) cfg init acts
    fun line status version _ bs s h => by
      change P bs [] (headerCb env s line status version).2.core
      rw [core_headerCb]
      exact h

/-- **The receive path refines the reference.** -/
theorem run_reading (env : Env) (cfg : Cfg) (acts : List Action) :
    Tracks (streamBytes env (Cws.fresh cfg) acts) [] (run env (Cws.fresh cfg) acts).core :=
  (run_core_induction (P := fun _ _ _ => True) (fun _ _ _ _ => trivial)
    (fun _ _ _ _ _ => trivial) (fun _ _ _ _ _ _ _ _ _ => trivial) trivial acts).1

/-- What has been received is a beginning of what the reference makes of the stream. -/
lemma Tracks.initial {bs : List Byte} {c : Core} (h : Tracks bs [] c) (t : List Byte) :
    c.seen.items <+: decode none (bs ++ t) := by
  cases h with
  | reading h =>
      rw [← h.meaning t]
      exact List.prefix_append _ _
  | refused _ hbegin _ => exact hbegin t

lemma Tracks.shape {bs left : List Byte} {c : Core} (h : Tracks bs left c)
    (ho : c.received = false) : Shape c := by
  cases h with
  | reading h => exact h.shape ho
  | refused hclosed _ _ => exact absurd (hclosed.symm.trans ho) (by simp)

/-- Between the bytes of an open connection there is nothing more to be made of them. -/
lemma Shape.resume_nil {c : Core} (h : Shape c) (ho : c.received = false) :
    c.resume [] = [] ∨ c.resume [] = [.unfinished] := by
  have hshort {n : ℕ} {bs : List Byte} (hlt : bs.length < n)
      (k : List Byte → List Byte → List Item) : takePayload n bs k = [.unfinished] := by
    rw [takePayload, if_pos hlt]
  obtain ⟨hpend, hstream, hheld, -⟩ := h
  rw [Core.resume, if_neg (by simp [ho])]
  cases hheld with
  | nothing hf hc =>
      have hout := frameDecode_outcome c.recv.header.buf
      rw [hpend] at hout
      simp only [hf, List.append_nil]
      rw [decode_incomplete (hout.of_needs (headerNeed_pos _)).1, endOfStream]
      split_ifs
      · exact .inl rfl
      · exact .inr rfl
  | control hf hi hlen hmax hb =>
      simp only [hf, List.append_nil]
      rcases c.seen.current with _ | ⟨k, d⟩
      · exact .inr (hshort hlen _)
      · simp only [hi, if_true]
        exact .inr (hshort hlen _)
  | data hf hi hlen hc hopen hb =>
      obtain ⟨⟨k, d⟩, hcur⟩ := Option.ne_none_iff_exists'.mp hopen
      simp only [hf, hcur, hi, Bool.false_eq_true, if_false]
      exact .inr (hshort hlen _)

/-- What is made of the bytes so far has been received, and at most the end of it is missing. -/
lemma Core.meaning_nil {c : Core} (h : c.received = false → Shape c) :
    c.meaning [] = c.seen.items ∨
      c.received = false ∧ c.meaning [] = c.seen.items ++ [.unfinished] := by
  cases hc : c.received with
  | true => exact .inl (Core.meaning_closed hc [])
  | false =>
      rw [Core.meaning]
      rcases (h hc).resume_nil hc with hnil | hunfinished
      · rw [hnil, List.append_nil]
        exact .inl rfl
      · rw [hunfinished]
        exact .inr ⟨rfl, rfl⟩

/-- **The whole of the stream.**  What the reference makes of it has been received, and at most the
end of it is missing. -/
lemma Reading.whole {bs : List Byte} {c : Core} (h : Reading bs [] c) :
    decode none bs = c.seen.items ∨
      c.received = false ∧ decode none bs = c.seen.items ++ [.unfinished] := by
  have hmeaning := h.meaning []
  rw [List.append_nil, List.append_nil] at hmeaning
  rw [← hmeaning]
  exact Core.meaning_nil h.shape

/-! ## What has arrived

Nothing that the stream means is left behind. -/

/-- A text has been refused. -/
def Refused (trace : List Event) : Prop := ∃ q ∈ dataPieces trace, q.result.rv < 0

/-- What has been received is what the reference makes of the stream, unless a text is refused. -/
lemma meaning_or_refused (env : Env) (cfg : Cfg) (acts : List Action) :
    let s := run env (Cws.fresh cfg) acts
    (s.closeState.received = true ∧ Refused s.trace) ∨
      ∀ t, s.core.meaning t = decode none (streamBytes env (Cws.fresh cfg) acts ++ t) := by
  intro s
  have hrun := (@run_core_induction env
    (fun bs left c => (c.received = true ∧ ∃ q ∈ c.pieces, q.result.rv < 0) ∨
      ∀ t, c.meaning (left ++ t) = decode none (bs ++ t)) ?_ ?_ ?_ cfg (.inr fun _ => rfl) acts).2
  · rwa [core_pieces] at hrun
  · intro bs buf c h
    refine h.imp_right fun h t => ?_
    rw [List.append_assoc]
    exact h (buf ++ t)
  · intro bs left c hclosed h
    refine h.imp_right fun h t => ?_
    rw [← h t, Core.meaning_closed hclosed, Core.meaning_closed hclosed]
  · intro bs buf rest s s' _ hr hi _
    cases hi with
    | quiet _ _ _ hm => exact .inr fun t => by rw [hm, hr.meaning]
    | piece _ _ _ _ _ _ _ _ _ _ _ _ hm => exact .inr fun t => by rw [hm, hr.meaning]
    | refused _ _ _ _ _ hres hclosed _ hpieces _ =>
        refine .inl ⟨hclosed, _, ?_, hres⟩
        rw [hpieces]
        exact List.mem_append_right _ List.mem_cons_self

/-- **All that the stream has to say has been received**, unless a text is refused. -/
theorem whole_or_refused (env : Env) (cfg : Cfg) (acts : List Action) :
    let s := run env (Cws.fresh cfg) acts
    let items := (observe s.trace).items
    (s.closeState.received = true ∧ Refused s.trace) ∨
      decode none (streamBytes env (Cws.fresh cfg) acts) = items ∨
        s.closeState.received = false ∧
          decode none (streamBytes env (Cws.fresh cfg) acts) = items ++ [.unfinished] := by
  intro s
  refine (meaning_or_refused env cfg acts).imp_right fun hmeaning => ?_
  have hall := hmeaning []
  rw [List.append_nil] at hall
  rw [← hall, ← core_seen s]
  exact Core.meaning_nil (run_reading env cfg acts).shape

end CurlWs
