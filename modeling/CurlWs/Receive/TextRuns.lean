import CurlWs.Receive.Text

/-!
# Texts over whole runs

What becomes of text messages for every sequence of frames, every way of cutting the stream, and
everything else that may happen to the connection.

**Conditions on pieces.**  `_process_text_stream` goes wrong on some pieces and is right about all
others.  Which ones depends on the question: `Piece.Drops`, `Piece.DropsBad`, `Piece.Withholds` and
`Piece.Stalls` are tests on a piece and the buffer it is entered with, before the code looks at it.
Every theorem is about the runs none of whose pieces is of the kinds it names, and next to it is a
run with one such piece in which its property fails.

**Invariants.**  `Lossless`, `Checked` and `Accepting` add to the invariants of `Text` what has been
completed so far.  Each is kept by one iteration of the loop (`Lossless.iterate` and so on), and the
runs follow by the induction of `Reading`.  A text that is refused ends the first two and must not
occur in the third.  As everywhere, a run counts up to where its object is freed (`Run`).

## Main results

* **`text_delivered_exactly`** — the fragments delivered are the payload, when no piece drops or
  withholds bytes.
* **`text_wellFormed`** — completed texts are well-formed, when what is dropped is well-formed by
  itself and no piece withholds bytes.
* **`text_accepted`** — well-formed texts are accepted, when what is dropped is well-formed by
  itself and no empty piece comes after one of two lead bytes.
-/

namespace CurlWs

open Utf8 WebSocket

variable {env : Env} {cfg : Cfg}

/-- The messages completed so far are of the kinds they should be. -/
lemma deliveries_kinds (acts : List Action) :
    let S := (run env (Cws.fresh cfg) acts).core.seen
    S.deliveries.map Prod.fst = (messages S.items).map Prod.fst := by
  refine (@run_core_induction env (fun _ _ c =>
    c.seen.deliveries.map Prod.fst = (messages c.seen.items).map Prod.fst)
    (fun _ _ _ h => h) (fun _ _ _ _ h => h) ?_ cfg rfl acts).2
  intro bs buf rest s s' _ _ hi h
  cases hi with
  | quiet hquiet _ _ _ =>
      rw [hquiet.messages, hquiet.seen]
      exact h
  | piece _ _ _ _ _ _ _ _ _ _ hseen _ _ =>
      rw [hseen, Seen.messages_afterPiece, Seen.deliveries_afterPiece, List.map_append, h,
        List.map_append]
      split_ifs <;> rfl
  | refused _ _ _ _ _ _ _ hseen _ _ =>
      rw [hseen]
      exact h

/-- The pieces of a run are never forgotten. -/
lemma Iteration.pieces_subset {s s' : Cws} {buf rest : List Byte} (h : Iteration s buf s' rest) :
    s.core.pieces ⊆ s'.core.pieces := by
  cases h with
  | quiet hquiet _ _ _ => rw [hquiet.pieces]; exact List.Subset.refl _
  | piece _ _ _ _ _ _ _ _ _ _ _ hpieces _ => rw [hpieces]; exact List.subset_append_left _ _
  | refused _ _ _ _ _ _ _ _ hpieces _ => rw [hpieces]; exact List.subset_append_left _ _

/-! ## Delivery

The fragments of a message, put together, are its payload. -/

/-- No byte is lost up to here. -/
structure Lossless (c : Core) : Prop where
  messages : WebSocket.messages c.seen.items = c.seen.deliveries
  exact : c.received = false → Exact c

/-- One iteration loses nothing, unless its piece does. -/
lemma Lossless.iterate {s s' : Cws} {buf rest : List Byte} (ho : s.closeState.received = false)
    (hi : Iteration s buf s' rest) (h : Lossless s.core)
    (hp : ∀ p ∈ s'.core.pieces, ¬ p.Drops ∧ ¬ p.Withholds) : Lossless s'.core := by
  have hexact := h.exact ho
  cases hi with
  | quiet hquiet _ _ _ =>
      refine ⟨?_, fun _ => hexact.quiet hquiet⟩
      rw [hquiet.messages, hquiet.seen]
      exact h.messages
  | @piece r k begun d p hready hstream _ hpending _ hres _ _ _ hutf8 hseen hpieces _ =>
      obtain ⟨hd, hw⟩ := hp p (by rw [hpieces]; exact List.mem_append_right _ List.mem_cons_self)
      obtain ⟨hexact', heq⟩ :=
        Exact.piece hready hstream hpending hres hutf8 hseen hexact hd hw
      exact ⟨heq h.messages, fun _ => hexact'⟩
  | refused _ _ _ _ _ _ hclosed hseen _ _ =>
      refine ⟨?_, fun hopen => absurd (hclosed.symm.trans hopen) (by simp)⟩
      rw [hseen]
      exact h.messages

/-- **The fragments delivered for a message are its payload**, byte by byte, in every run in which
no piece of a text drops or withholds bytes. -/
theorem text_delivered_exactly (acts : List Action) (fs : List Frame) (hvalid : ∀ f ∈ fs, f.Valid)
    (hstream : streamBytes env (Cws.fresh cfg) acts <+: fs.flatMap Frame.encode)
    (hpieces : ∀ p ∈ dataPieces (run env (Cws.fresh cfg) acts).trace, ¬ p.Drops ∧ ¬ p.Withholds) :
    (observe (run env (Cws.fresh cfg) acts).trace).deliveries <+: messages (items none fs) := by
  rw [← core_pieces] at hpieces
  rw [← core_seen]
  obtain ⟨htracks, hlossless⟩ := @run_core_induction env
    (fun _ _ c => (∀ p ∈ c.pieces, ¬ p.Drops ∧ ¬ p.Withholds) → Lossless c)
    (fun _ _ _ h => h) (fun _ _ _ _ h => h)
    (fun _ _ _ _ _ ho _ hi h hp => (h fun p hmem => hp p (hi.pieces_subset hmem)).iterate ho hi hp)
    cfg (fun _ => ⟨rfl, fun _ => exact_fresh cfg⟩) acts
  obtain ⟨t, ht⟩ := hstream
  rw [← (hlossless hpieces).messages, ← decode_encode fs none hvalid, ← ht]
  exact (htracks.initial t).filterMap _

/-- A euro sign in two parts, delivered in full. -/
theorem text_delivered_exactly_split :
    let acts := [Action.receive [0x81, 3, 0xe2], .receive [0x82, 0xac]]
    (observe (run .quiet (Cws.fresh {}) acts).trace).deliveries
      <+: messages (items none [⟨true, 1, [0xe2, 0x82, 0xac]⟩]) :=
  text_delivered_exactly [.receive [0x81, 3, 0xe2], .receive [0x82, 0xac]]
    [⟨true, 1, [0xe2, 0x82, 0xac]⟩] (by decide +kernel) (by decide +kernel) (by decide +kernel)

/-- A euro sign in two parts with a letter after it: the letter is lost. -/
theorem text_loses_letter :
    let acts := [Action.receive [0x81, 4, 0xe2], .receive [0x82, 0xac, 0x41]]
    let f : Frame := ⟨true, 1, [0xe2, 0x82, 0xac, 0x41]⟩
    let S := observe (run .quiet (Cws.fresh {}) acts).trace
    f.Valid ∧ streamBytes .quiet (Cws.fresh {}) acts = f.encode ∧
      S.deliveries = [(.text, [0xe2, 0x82, 0xac])] ∧
        ¬ S.deliveries <+: messages (items none [f]) := by
  decide +kernel

/-! ## Well-formedness

What is completed as a text is one. -/

/-- Every text completed up to here is well-formed, and nothing is left over from it. -/
structure Checked (c : Core) : Prop where
  texts : ∀ w, (.text, w) ∈ messages c.seen.items → WellFormed w
  starts : ∀ p ∈ c.pieces, p.stream = cwsText → cwsFirst &&& p.info ≠ 0 → p.utf8.needed = 0
  ends : ∀ p ∈ c.pieces, p.stream = cwsText → p.Final → ¬ p.result.rv < 0 →
    p.result.utf8.needed = 0
  sound : c.received = false → Sound c

/-- The first piece of a text finds no character in progress. -/
lemma Sound.first_needed {s : Cws} (h : Sound s.core) {r : Recv} {k : Kind} {begun : Bool}
    {d : List Byte} {p : Piece} (hready : Ready r s.core.seen k begun d)
    (hinfo : p.info = pieceInfo k begun) (hu : p.utf8 = s.recv.utf8)
    (hfirst : cwsFirst &&& p.info ≠ 0) : p.utf8.needed = 0 := by
  rw [hinfo] at hfirst
  obtain rfl := (first_finalInfo k begun false).mp hfirst
  rw [hu, h.toClean.first hready]

/-- One iteration completes only well-formed texts, unless its piece passes something over. -/
lemma Checked.iterate {s s' : Cws} {buf rest : List Byte} (ho : s.closeState.received = false)
    (hi : Iteration s buf s' rest) (h : Checked s.core)
    (hp : ∀ p ∈ s'.core.pieces, ¬ p.DropsBad ∧ ¬ p.Withholds) : Checked s'.core := by
  have hsound := h.sound ho
  cases hi with
  | quiet hquiet _ _ _ =>
      refine ⟨?_, ?_, ?_, fun _ => hsound.quiet hquiet⟩
      · rw [hquiet.messages]
        exact h.texts
      · rw [hquiet.pieces]
        exact h.starts
      · rw [hquiet.pieces]
        exact h.ends
  | @piece r k begun d p hready hstream hinfo hpending _ hres _ _ _ hutf8 hseen hpieces _ =>
      obtain ⟨hd, hw⟩ := hp p (by rw [hpieces]; exact List.mem_append_right _ List.mem_cons_self)
      obtain ⟨hsound', htexts⟩ :=
        Sound.piece hready hstream hpending hres hutf8 hseen hsound hd hw
      have hleaves := (hsound.toClean.entered hready hstream hpending).leaves hres hw
      refine ⟨htexts h.texts, ?_, ?_, fun _ => hsound'⟩
      · rw [hpieces, List.forall_mem_append, List.forall_mem_singleton]
        exact ⟨h.starts, fun _ => hsound.first_needed hready hinfo hpending⟩
      · rw [hpieces, List.forall_mem_append, List.forall_mem_singleton]
        refine ⟨h.ends, fun _ hfinal _ => ?_⟩
        rw [hleaves.2 (.inr hfinal)]
  | @refused r begun d after p hready hstream hinfo hpending _ hres hclosed hseen hpieces _ =>
      refine ⟨?_, ?_, ?_, fun hopen => absurd (hclosed.symm.trans hopen) (by simp)⟩
      · rw [hseen]
        exact h.texts
      · rw [hpieces, List.forall_mem_append, List.forall_mem_singleton]
        exact ⟨h.starts, fun _ => hsound.first_needed hready hinfo hpending⟩
      · rw [hpieces, List.forall_mem_append, List.forall_mem_singleton]
        exact ⟨h.ends, fun _ _ hok => absurd hres hok⟩

lemma checked_fresh (cfg : Cfg) : Checked (Cws.fresh cfg).core :=
  ⟨fun _ h => absurd h List.not_mem_nil, fun _ h => absurd h List.not_mem_nil,
    fun _ h => absurd h List.not_mem_nil, fun _ => sound_fresh cfg⟩

/-- There is no text in progress when the stream is not one. -/
lemma Stream.not_text {r : Recv} {S : Seen} (h : Stream r S) (hs : r.streamType ≠ cwsText)
    (d : List Byte) : S.current ≠ some (.text, d) := by
  intro hcur
  cases h with
  | idle _ _ hc _ => exact absurd (hc.symm.trans hcur) (by simp)
  | @inside k d' h =>
      cases h with
      | next hs' _ hc _ =>
          obtain ⟨rfl, -⟩ := Prod.mk.inj (Option.some.inj (hc.symm.trans hcur))
          exact hs hs'

/-- **A text that is completed is well-formed**, and no part of a character is left over from it, in
every run in which no piece drops anything ill-formed and none withholds bytes. -/
theorem text_wellFormed (acts : List Action)
    (hpieces : ∀ p ∈ dataPieces (run env (Cws.fresh cfg) acts).trace,
      ¬ p.DropsBad ∧ ¬ p.Withholds) :
    let s := run env (Cws.fresh cfg) acts
    let bs := streamBytes env (Cws.fresh cfg) acts
    (∀ w, (.text, w) ∈ (messages (decode none bs)).take (observe s.trace).deliveries.length →
        WellFormed w) ∧
      (∀ p ∈ dataPieces s.trace, p.stream = cwsText →
        (p.Final → ¬ p.result.rv < 0 → p.result.utf8.needed = 0) ∧
        (cwsFirst &&& p.info ≠ 0 → p.utf8.needed = 0)) ∧
      (s.closeState.received = false → s.recv.streamType ≠ cwsText → s.recv.utf8.needed = 0) := by
  intro s bs
  rw [← core_pieces] at hpieces ⊢
  rw [← core_seen]
  obtain ⟨htracks, hchecked⟩ := @run_core_induction env
    (fun _ _ c => (∀ p ∈ c.pieces, ¬ p.DropsBad ∧ ¬ p.Withholds) → Checked c)
    (fun _ _ _ h => h) (fun _ _ _ _ h => h)
    (fun _ _ _ _ _ ho _ hi h hp => (h fun p hmem => hp p (hi.pieces_subset hmem)).iterate ho hi hp)
    cfg (fun _ => checked_fresh cfg) acts
  have hc := hchecked hpieces
  refine ⟨fun w hw => hc.texts w ?_, fun p hp htext => ⟨hc.ends p hp htext, hc.starts p hp htext⟩,
    fun hopen htext => ?_⟩
  · have hlen := congrArg List.length (@deliveries_kinds env cfg acts)
    rw [List.length_map, List.length_map] at hlen
    have htake := messages_initial (htracks.initial [])
    rw [List.append_nil, List.prefix_iff_eq_take, ← hlen] at htake
    rwa [htake]
  · exact congrArg Utf8Buffer.needed
      ((hc.sound hopen).idle ((htracks.shape hopen).stream.not_text htext))

/-- A euro sign in two frames is completed, and well-formed. -/
theorem text_wellFormed_split :
    let acts := [Action.receive [0x01, 1, 0xe2, 0x80, 2, 0x82, 0xac]]
    let s := run .quiet (Cws.fresh {}) acts
    let bs := streamBytes .quiet (Cws.fresh {}) acts
    (∀ w, (.text, w) ∈ (messages (decode none bs)).take (observe s.trace).deliveries.length →
        WellFormed w) ∧
      (∀ p ∈ dataPieces s.trace, p.stream = cwsText →
        (p.Final → ¬ p.result.rv < 0 → p.result.utf8.needed = 0) ∧
        (cwsFirst &&& p.info ≠ 0 → p.utf8.needed = 0)) ∧
      (s.closeState.received = false → s.recv.streamType ≠ cwsText → s.recv.utf8.needed = 0) :=
  text_wellFormed [.receive [0x01, 1, 0xe2, 0x80, 2, 0x82, 0xac]] (by decide +kernel)

/-- Two thirds of a euro sign in two frames: the text is completed, and what there is of the
character is left over. -/
theorem text_left_over :
    let acts := [Action.receive [0x01, 1, 0xe2, 0x80, 1, 0x82]]
    let s := run .quiet (Cws.fresh {}) acts
    (observe s.trace).deliveries = [(.text, [])] ∧
      messages (decode none (streamBytes .quiet (Cws.fresh {}) acts)) = [(.text, [0xe2, 0x82])] ∧
      ¬ WellFormed [0xe2, 0x82] ∧ s.recv.streamType = 0 ∧ s.recv.utf8.needed = 1 :=
  ⟨by decide +kernel, by decide +kernel, mt utf8Validate_length_iff.mpr (by decide +kernel),
    by decide +kernel, by decide +kernel⟩

/-! ## Acceptance

A stream of well-formed texts is not refused. -/

/-- The connection is open, and the text in progress is well-formed so far. -/
structure Accepting (c : Core) : Prop where
  opened : c.received = false
  sound : Sound c

/-- What the reference makes of a stream of well-formed texts that goes on. -/
structure Faultless (its : List Item) : Prop where
  goesOn : GoesOn its
  texts : ∀ w, (.text, w) ∈ messages its → WellFormed w

/-- One iteration on a faultless stream keeps the connection open. -/
lemma Accepting.iterate {bs buf rest t : List Byte} {s s' : Cws} (hr : Reading bs buf s.core)
    (hi : Iteration s buf s' rest) (hf : Faultless (decode none (bs ++ t)))
    (h : Accepting s.core) (hp : ∀ p ∈ s'.core.pieces, ¬ p.DropsBad ∧ ¬ p.Stalls) :
    Accepting s'.core := by
  rw [← hr.meaning t] at hf
  obtain ⟨hgoes, htexts⟩ := hf
  cases hi with
  | quiet hquiet _ hclosing hmeaning =>
      refine ⟨?_, h.sound.quiet hquiet⟩
      by_contra hclosed
      obtain ⟨it, hmem, hit⟩ := List.any_eq_true.mp (hclosing (by simpa using hclosed))
      rw [← hmeaning, Core.meaning] at hgoes
      have hend := hgoes it (List.mem_append_left _ hmem)
      cases it <;> simp_all [Item.isClosing, Item.isEnd]
  | @piece r k begun d p hready hstream _ hpending _ hres hopen _ _ hutf8 hseen hpieces hmeaning =>
      obtain ⟨hd, -⟩ := hp p (by rw [hpieces]; exact List.mem_append_right _ List.mem_cons_self)
      refine ⟨hopen, (Sound.piece hready hstream hpending hres hutf8 hseen h.sound hd ?_).1⟩
      rintro ⟨htext, hfinal, hlt, -⟩
      obtain rfl : k = .text := by
        rw [htext] at hstream
        cases k with
        | text => rfl
        | binary => exact absurd hstream (by simp [kindFlag, cwsText, cwsBinary])
      obtain ⟨w, hwire, hwf⟩ := h.sound.ready hready
      have hmem : (.text, s.core.seen.wire ++ p.bytes) ∈ messages s'.core.seen.items := by
        have hend : p.frame.payloadLen = p.bytes.length ∧ p.frame.fin = true := hfinal
        rw [hseen, Seen.messages_afterPiece, if_pos (decide_eq_true hend)]
        exact List.mem_append_right _ List.mem_cons_self
      have hall := htexts _ (by
        rw [← hmeaning, Core.meaning, messages_append]
        exact List.mem_append_left _ hmem)
      rw [hwire, ← hpending, List.append_assoc, hwf.append_iff] at hall
      exact not_wellFormed_of_waiting (hpending ▸ h.sound.pending) hlt hall
  | @refused r begun d after p hready hstream _ hpending hle hres _ _ hpieces hmeaning =>
      exfalso
      obtain ⟨-, hstall⟩ := hp p (by rw [hpieces]; exact List.mem_append_right _ List.mem_cons_self)
      have hrefusal : Refusal p := by
        have hstep := textStep hstream (hpending ▸ h.sound.pending)
        rwa [if_pos hres] at hstep
      rw [hmeaning] at hgoes htexts
      obtain ⟨x, hmem, hpre, hfin⟩ := exists_message_of_payload hgoes.right
      obtain ⟨w, hwire, hwf⟩ := h.sound.ready hready
      have hall := htexts _ (by rw [messages_append]; exact List.mem_append_right _ hmem)
      rw [List.take_append, List.take_of_length_le hle] at hpre hfin
      obtain ⟨y, rfl⟩ := hpre
      rw [hwire, ← hpending, List.append_assoc, hwf.append_iff, List.append_assoc] at hall
      refine hstall (hrefusal.stalls hstream (hpending ▸ h.sound.pending) hle hall fun hfinal => ?_)
      have hzero := hfinal.1
      have := hfin hfinal.2
      simpa [hzero] using this

/-- **Well-formed texts are accepted** and every message is completed, in every run in which no
piece drops anything ill-formed and no empty piece comes after one of the two lead bytes. -/
theorem text_accepted (acts : List Action) (fs : List Frame) (hvalid : ∀ f ∈ fs, f.Valid)
    (hgoes : GoesOn (items none fs))
    (htexts : ∀ w, (.text, w) ∈ messages (items none fs) → WellFormed w)
    (hstream : streamBytes env (Cws.fresh cfg) acts <+: fs.flatMap Frame.encode)
    (hpieces : ∀ p ∈ dataPieces (run env (Cws.fresh cfg) acts).trace,
      ¬ p.DropsBad ∧ ¬ p.Stalls) :
    let s := run env (Cws.fresh cfg) acts
    s.closeState.received = false ∧
      (streamBytes env (Cws.fresh cfg) acts = fs.flatMap Frame.encode →
        (observe s.trace).deliveries.map Prod.fst = (messages (items none fs)).map Prod.fst) := by
  intro s
  have hf : Faultless (decode none (fs.flatMap Frame.encode)) := by
    rw [decode_encode fs none hvalid]
    exact ⟨hgoes, htexts⟩
  rw [← core_pieces] at hpieces
  rw [← core_seen]
  obtain ⟨htracks, haccept⟩ := @run_core_induction env
    (fun bs _ c => bs <+: fs.flatMap Frame.encode → (∀ p ∈ c.pieces, ¬ p.DropsBad ∧ ¬ p.Stalls) →
      Accepting c)
    (fun bs buf _ h hbs => h ((List.prefix_append bs buf).trans hbs)) (fun _ _ _ _ h => h)
    (fun _ _ _ _ _ _ hr hi h hbs hp => by
      have hold := h hbs fun p hmem => hp p (hi.pieces_subset hmem)
      obtain ⟨t, ht⟩ := hbs
      exact hold.iterate hr hi (ht ▸ hf) hp)
    cfg (fun _ _ => ⟨rfl, sound_fresh cfg⟩) acts
  have hopen := (haccept hstream hpieces).opened
  refine ⟨hopen, fun hwhole => ?_⟩
  rw [deliveries_kinds]
  cases htracks with
  | refused hclosed _ _ => exact absurd (hclosed.symm.trans hopen) (by simp)
  | reading hr =>
      have hitems := hr.whole
      rw [hwhole, decode_encode fs none hvalid] at hitems
      rcases hitems with hitems | ⟨-, hitems⟩
      · rw [hitems]
      · rw [hitems] at hgoes
        exact absurd hgoes.right (not_goesOn rfl [])

/-- A three-byte character in two frames, with a ping in between. -/
theorem text_accepted_split :
    let acts := [Action.receive [0x01, 1, 0xe0, 0x89, 0, 0x80], .receive [2, 0xa4, 0x80]]
    let fs := [⟨false, 1, [0xe0]⟩, ⟨true, 9, []⟩, ⟨true, 0, [0xa4, 0x80]⟩]
    let s := run .quiet (Cws.fresh {}) acts
    s.closeState.received = false ∧
      (streamBytes .quiet (Cws.fresh {}) acts = fs.flatMap Frame.encode →
        (observe s.trace).deliveries.map Prod.fst = (messages (items none fs)).map Prod.fst) :=
  text_accepted _ _ (by decide +kernel) (by decide +kernel)
    (fun w hw => by
      have hall : ∀ m ∈ messages (items none
          [⟨false, 1, [0xe0]⟩, ⟨true, 9, []⟩, ⟨true, 0, [0xa4, 0x80]⟩]),
          utf8Validate m.2 = some m.2.length := by decide +kernel
      exact utf8Validate_length_iff.mp (hall _ hw))
    (by decide +kernel) (by decide +kernel)

/-- The same character with an empty frame after its lead byte: the connection is failed. -/
theorem text_fails_empty :
    let acts := [Action.receive [0x01, 1, 0xe0, 0x00, 0, 0x80, 2, 0xa4, 0x80]]
    let fs : List Frame := [⟨false, 1, [0xe0]⟩, ⟨false, 0, []⟩, ⟨true, 0, [0xa4, 0x80]⟩]
    let s := run .quiet (Cws.fresh {}) acts
    streamBytes .quiet (Cws.fresh {}) acts = fs.flatMap Frame.encode ∧ (∀ f ∈ fs, f.Valid) ∧
      GoesOn (items none fs) ∧ messages (items none fs) = [(.text, [0xe0, 0xa4, 0x80])] ∧
      WellFormed [0xe0, 0xa4, 0x80] ∧ s.closeState.received = true ∧ .closing 1007 ∈ s.trace :=
  ⟨by decide +kernel, by decide +kernel, by decide +kernel, by decide +kernel,
    utf8Validate_length_iff.mp (by decide +kernel), by decide +kernel, by decide +kernel⟩

end CurlWs
