import CurlWs.Receive.Dispatching
import CurlWs.Receive.FragmentOrder
import CurlWs.Receive.TextRuns

/-!
# Failing fast

A text that cannot become well-formed any more is to be refused at once, not at its end.

**What can still become well-formed.**  A text is viable if it is well-formed up to the beginning of
a character, possibly of none.  `utf8_maybe_valid` is the code's test for such a beginning, and it
passes only beginnings (`cut_of_utf8MaybeValid`); two lead bytes by themselves are beginnings that
it does not pass (`cut_iff`).

**What is held.**  Between the pieces of a text the bytes of the character that has begun are in
`utf8.buf`.  When a piece completes less than a character, they are tested; when the piece ends in
bytes that `utf8_validate` leaves, they are stored without a test (`Piece.BeginsBad`).  In all other
cases they begin a character (`Entered.alive`), and so the text is viable (`Hopeful.viable`).

**Every run.**  Either the text in progress is viable, or the connection has been failed with 1007
(`FailsFast`).  Every iteration keeps this, as long as its piece is not one of the three kinds of
`Piece.Sloppy`.

## Main results

* **`cut_iff`** — the beginnings of characters, as `utf8_maybe_valid` knows them.
* **`text_fails_fast`** — a text in progress can still become well-formed or has been refused, in
  every run in which no piece ends in bytes that are put by unlooked at.
-/

namespace CurlWs

open Utf8 WebSocket

/-! ## Beginnings of characters

A cut is a nonempty part of a character that is not all of it. -/

/-- **`utf8_maybe_valid` recognises only beginnings of characters**, if it is asked about fewer
bytes than the character has. -/
theorem cut_of_utf8MaybeValid {a : Byte} {t : List Byte} (hshort : (a :: t).length < seqLength a)
    (h : utf8MaybeValid (a :: t) = true) : Cut (a :: t) := by
  have hchar := utf8MaybeValid_iff.mp h
  rw [List.take_append, List.take_of_length_le hshort.le] at hchar
  refine ⟨List.cons_ne_nil a t, _, ?_, hchar⟩
  intro hnil
  rw [hnil, List.append_nil] at hchar
  exact absurd hchar.length_eq hshort.ne

/-- **The beginnings of characters.**  The two lead bytes are the ones that `utf8_maybe_valid` does
not pass by themselves. -/
theorem cut_iff {r : List Byte} : Cut r ↔ r.length < utf8GetSize (r.headD 0) ∧ r ≠ [] ∧
    (r = [0xe0] ∨ r = [0xf0] ∨ utf8MaybeValid r = true) := by
  constructor
  · intro h
    refine ⟨(truncated_of_cut h).resolve_left h.1, h.1, ?_⟩
    by_cases he : r = [0xe0]
    · exact .inl he
    · by_cases hf : r = [0xf0]
      · exact .inr (.inl hf)
      · exact .inr (.inr (utf8MaybeValid_of_cut h he hf))
  · rintro ⟨hshort, hne, he | hf | hmaybe⟩
    · rw [he]
      refine ⟨by simp, [0xa0, 0x80], by simp, isChar_three.mpr ?_⟩
      simp [IsTail]
    · rw [hf]
      refine ⟨by simp, [0x90, 0x80, 0x80], by simp, isChar_four.mpr ?_⟩
      simp [IsTail]
    · obtain ⟨a, t, rfl⟩ := List.exists_cons_of_ne_nil hne
      rw [List.headD_cons, utf8GetSize_eq] at hshort
      exact cut_of_utf8MaybeValid hshort hmaybe

instance (r : List Byte) : Decidable (Cut r) := decidable_of_iff _ cut_iff.symm

/-- The bytes that `utf8_validate` leaves of a text decide whether the text can be completed. -/
lemma viable_iff_leftover {bs : List Byte} : Viable bs ↔ utf8Validate bs ≠ none ∧
    (bs.drop ((utf8Validate bs).getD 0) = [] ∨ Cut (bs.drop ((utf8Validate bs).getD 0))) := by
  constructor
  · rintro ⟨t, h⟩
    obtain ⟨w, r, rfl, -, hr, hvalid⟩ := utf8Validate_of_wellFormed h
    rw [hvalid, Option.getD_some, List.drop_left]
    exact ⟨Option.some_ne_none _, hr⟩
  · rintro ⟨hsome, hr⟩
    obtain ⟨n, hn⟩ := Option.ne_none_iff_exists'.mp hsome
    obtain ⟨w, r, hsplit, hw, -, rfl⟩ := utf8Validate_eq_some_iff.mp hn
    rw [hn, Option.getD_some, hsplit, List.drop_left] at hr
    exact viable_iff.mpr ⟨w, r, hsplit, hw, hr⟩

instance (bs : List Byte) : Decidable (Viable bs) := decidable_of_iff _ viable_iff_leftover.symm

/-! ## One piece

What a piece leaves for the next one. -/

namespace Piece

/-- The bytes of a piece that `utf8_validate` leaves. -/
def leftover (p : Piece) : List Byte :=
  p.bytes.drop ((utf8Validate p.bytes).getD p.bytes.length)

/-- The piece is looked at as a whole, and the bytes put by at its end begin no character. -/
def BeginsBad (p : Piece) : Prop :=
  p.stream = cwsText ∧ p.utf8.needed = 0 ∧ ¬ p.Final ∧ p.leftover ≠ [] ∧ ¬ Cut p.leftover

instance (p : Piece) : Decidable p.BeginsBad := inferInstanceAs (Decidable (_ ∧ _))

end Piece

/-- **What is held after a piece** begins a character, unless the piece ends badly. -/
lemma Entered.alive {p : Piece} {k : Kind} (h : Entered p k) (hres : ¬ p.result.rv < 0)
    (hbad : ¬ p.BeginsBad) (hne : p.result.utf8.buf ≠ []) : Cut p.result.utf8.buf := by
  cases k with
  | binary =>
      rw [result_binary h.stream, h.binary rfl] at hne
      exact absurd rfl hne
  | text =>
      have hstep := h.textStep hres
      have hpending := hstep.pending h.pending
      generalize p.result = r at hstep hpending hne
      cases hstep with
      | waiting hlt hmaybe =>
          simp only at hne ⊢
          generalize p.utf8.buf ++ p.bytes = held at hmaybe hpending hne ⊢
          generalize p.utf8.needed - p.bytes.length = missing at hpending
          cases hpending with
          | empty => exact absurd rfl hne
          | begun hn hsize =>
              rw [utf8GetSize_eq] at hsize
              exact cut_of_utf8MaybeValid (by omega) hmaybe
      | finished => exact absurd rfl hne
      | @bulk w left u hempty hsplit hw hbuf hu hfinal =>
          simp only at hne ⊢
          rw [hbuf] at hne ⊢
          have htruncated : Truncated left := by
            rw [← hbuf]
            cases hu with
            | empty => exact .inl rfl
            | begun hn hsize => exact .inr (by simp only [List.headD_cons]; omega)
          have hvalid : utf8Validate p.bytes = some w.length :=
            utf8Validate_eq_some_iff.mpr ⟨w, left, hsplit, hw, htruncated, rfl⟩
          have hleft : p.leftover = left := by
            rw [Piece.leftover, hvalid, Option.getD_some, hsplit, List.drop_left]
          by_contra hcut
          refine hbad ⟨h.stream, by rw [hempty], fun hf => hne (hfinal hf), ?_, ?_⟩
          · rwa [hleft]
          · rwa [hleft]

/-! ## The text in progress

The wire bytes of the message so far, and the part of them that is held. -/

/-- The text in progress is well-formed up to the beginning of a character. -/
structure Hopeful (c : Core) : Prop extends Sound c where
  alive : c.recv.utf8.buf ≠ [] → Cut c.recv.utf8.buf

lemma hopeful_fresh (cfg : Cfg) : Hopeful (Cws.fresh cfg).core :=
  ⟨sound_fresh cfg, fun h => absurd rfl h⟩

/-- An iteration that takes no payload of a message leaves the text alone. -/
lemma Hopeful.quiet {c c' : Core} (h : Hopeful c) (hq : Quiet c c') : Hopeful c' := by
  refine ⟨h.toSound.quiet hq, ?_⟩
  rw [hq.utf8]
  exact h.alive

/-- Such a text can become well-formed. -/
lemma Hopeful.viable {c : Core} (h : Hopeful c) {d : List Byte}
    (hc : c.seen.current = some (.text, d)) : Viable c.seen.wire := by
  obtain ⟨w, hwire, hw⟩ := h.wire d hc
  exact viable_iff.mpr ⟨w, _, hwire, hw, or_iff_not_imp_left.mpr h.alive⟩

/-- The markers of a text are those of a text in progress. -/
lemma Stream.text {r : Recv} {S : Seen} (h : Stream r S) (hs : r.streamType = cwsText) :
    ∃ d, S.current = some (.text, d) := by
  cases h with
  | idle hs' _ _ _ => exact absurd (hs'.symm.trans hs) (by decide)
  | @inside k d hready =>
      cases hready with
      | next hs' _ hc _ =>
          cases k with
          | text => exact ⟨d, hc⟩
          | binary => exact absurd (hs'.symm.trans hs) (by decide)

/-! ## One iteration

Which iterations touch the text, and how they close the connection. -/

/-- Without a piece of a message it was a control payload, and the kind of message stays. -/
lemma streamType_processPayload {s : Cws} (ho : s.closeState.received = false) (env : Env)
    (f : CwsFrame) (buf : List Byte)
    (hpieces : (processPayload env s f buf).1.core.pieces = s.core.pieces) :
    f.isControl = true ∧ (processPayload env s f buf).1.recv.streamType = s.recv.streamType := by
  generalize hs₁ : s.setRecv { s.recv with frame := some f } = s₁
  have ho₁ : s₁.closeState.received = false := by
    rw [← hs₁]
    exact ho
  simp only [processPayload, hs₁] at hpieces ⊢
  by_cases hi : f.isControl = true
  · refine ⟨hi, ?_⟩
    rw [if_pos hi]
    obtain ⟨-, hcore⟩ := core_processControlFrame ho₁ env f buf
    have hsame : s₁.recv.streamType = s.recv.streamType := by rw [← hs₁]; rfl
    rw [← hsame]
    rcases hcore with ⟨-, hcore⟩ | ⟨-, -, hcore⟩ | ⟨-, -, hcore⟩
    · exact congrArg (·.recv.streamType) hcore
    · exact congrArg (·.recv.streamType) hcore
    · exact congrArg (·.recv.streamType) hcore
  · rw [if_neg hi, pieces_processDataFrame ho₁, ← hs₁] at hpieces
    exact absurd hpieces (by simp)

/-- An iteration that takes no payload of a message leaves its kind alone. -/
lemma streamType_processFrame {s : Cws} {buf : List Byte} (ho : s.closeState.received = false)
    (hpend : HeaderPending s.recv.header) (hbuf : buf ≠ []) (env : Env)
    (hpieces : (cwsProcessFrame env s buf).1.core.pieces = s.core.pieces) :
    (cwsProcessFrame env s buf).1.recv.streamType = s.recv.streamType := by
  cases hf : s.recv.frame with
  | some f =>
      simp only [cwsProcessFrame, hf] at hpieces ⊢
      exact (streamType_processPayload ho env f buf hpieces).2
  | none =>
      have hst := headerStage ho hpend hbuf env
      simp only [cwsProcessFrame, hf] at hpieces ⊢
      generalize processFrameHeader env s buf = d at hst hpieces
      cases hst with
      | pending => rfl
      | failed hcore => exact congrArg (·.recv.streamType) hcore
      | @complete f x rest hsplit hx hvalid hcontrol hparse =>
          generalize hs₁ : s.setRecv { s.recv with header := {} } = s₁ at hpieces
          have ho₁ : s₁.closeState.received = false := by
            rw [← hs₁]
            exact ho
          have hsame : s₁.core.pieces = s.core.pieces ∧ s₁.recv.streamType = s.recv.streamType := by
            rw [← hs₁]
            exact ⟨rfl, rfl⟩
          rw [← hsame.1] at hpieces
          rw [← hsame.2]
          simp only at hpieces ⊢
          by_cases hi : f.isControl = true
          · rw [if_pos hi] at hpieces ⊢
            exact (streamType_processPayload ho₁ env f rest hpieces).2
          · rw [if_neg hi] at hpieces ⊢
            cases hopen : openStream s₁.recv f with
            | none => exact congrArg (·.recv.streamType) (core_errorClose ho₁ env 1002 none 0)
            | some r =>
                rw [hopen] at hpieces
                exact absurd (streamType_processPayload (s := s₁.setRecv r) ho₁ env f rest
                  hpieces).1 hi

/-- A piece that closes the connection closes it with the code for ill-formed text. -/
lemma Effect.closing_of_piece {v w : View} (ho : v.received = false) (h : Effect v w)
    (hclosed : w.received = true) (hpieces : dataPieces w.trace ≠ dataPieces v.trace) :
    .closing 1007 ∈ w.trace := by
  have hopen : ¬ v.received = true := by rw [ho]; exact Bool.false_ne_true
  have hpieces_append (x y : List Event) : dataPieces (x ++ y) = dataPieces x ++ dataPieces y :=
    List.filterMap_append
  cases h with
  | nothing => exact absurd hclosed hopen
  | write => exact absurd hclosed hopen
  | ping => exact absurd hclosed hopen
  | pong i j p =>
      refine absurd ?_ hopen
      simp only [View.guarded, View.call_eq] at hclosed
      exact hclosed
  | @close i j opcode h9 h10 p =>
      refine absurd ?_ hpieces
      obtain ⟨ws, hws, heq⟩ := @handleClose_eq
        ((v.log (.controlWrite i j)).log (.controlFrame opcode p)) ho p
      have hnil : dataPieces (ws ++ closeCall
          ((v.log (.controlWrite i j)).log (.controlFrame opcode p)) p) = [] := by
        refine List.filterMap_eq_nil_iff.mpr fun e he => ?_
        rcases List.mem_append.mp he with he | he
        · obtain ⟨i', j', rfl⟩ := hws e he
          rfl
        · obtain ⟨code, reason, rfl⟩ := mem_closeCall he
          rfl
      have htrace := congrArg View.trace heq
      rw [htrace]
      change dataPieces (_ ++ _ ++ _) = _
      rw [hpieces_append, hpieces_append, hnil, List.append_nil]
      simp [View.log, dataPieces]
  | failed =>
      refine absurd ?_ hpieces
      rw [View.close_eq ho, hpieces_append]
      exact List.append_nil _
  | fragment p hres =>
      refine absurd ?_ hopen
      rwa [(View.core_sendFragment (v.log (.payload p)) p.sentInfo p.sentBytes).1] at hclosed
  | refused p hres =>
      rw [@View.close_eq (v.log (.payload p)) ho]
      exact List.mem_append_right _ (List.mem_singleton_self _)

/-! ## Whole runs

The invariant is about the view, since user functions may be called in between.  A run counts up to
where its object is freed (`Run`). -/

/-- The text in progress can become well-formed, or the connection has been failed for it. -/
structure FailsFast (v : View) : Prop where
  hopeful : v.received = false → Hopeful v.core
  failed : v.received = true → v.recv.streamType = cwsText →
    Viable v.seen.wire ∨ .closing 1007 ∈ v.trace

/-- What the pieces must not do. -/
def Piece.Sloppy (p : Piece) : Prop := p.DropsBad ∨ p.Withholds ∨ p.BeginsBad

instance (p : Piece) : Decidable p.Sloppy := inferInstanceAs (Decidable (_ ∨ _))

/-- **One iteration.** -/
lemma FailsFast.iterate {s s' : Cws} {buf rest : List Byte} {r : Recv} {w : View} {env : Env}
    (ho : s.closeState.received = false) (hshape : Shape s.core) (hbuf : buf ≠ [])
    (hstep : cwsProcessFrame env s buf = (s', rest)) (hi : Iteration s buf s' rest)
    (he : Effect (s.view.setRecv r) w) (hview : s'.view = w.setRecv s'.recv)
    (h : FailsFast s.view) (hp : ∀ p ∈ s'.core.pieces, ¬ p.Sloppy) : FailsFast s'.view := by
  have hhope : Hopeful s.core := h.hopeful ho
  cases hi with
  | quiet hquiet _ _ _ =>
      refine ⟨fun _ => hhope.quiet hquiet, fun _ htext => .inl ?_⟩
      have hkind := streamType_processFrame ho hshape.header hbuf env
        (by rw [hstep]; exact hquiet.pieces)
      rw [hstep] at hkind
      obtain ⟨d, hd⟩ := hshape.stream.text (hkind.symm.trans htext)
      change Viable s'.core.seen.wire
      rw [hquiet.seen]
      exact hhope.viable hd
  | @piece r k begun d p hready hstream _ hpending _ hres hopen _ _ hutf8 hseen hpieces _ =>
      obtain ⟨hd, hwh, hb⟩ : ¬ p.DropsBad ∧ ¬ p.Withholds ∧ ¬ p.BeginsBad := by
        have hnot := hp p (by rw [hpieces]; exact List.mem_append_right _ List.mem_cons_self)
        rwa [Piece.Sloppy, not_or, not_or] at hnot
      have hsound := (Sound.piece hready hstream hpending hres hutf8 hseen hhope.toSound hd hwh).1
      refine ⟨fun _ => ⟨hsound, ?_⟩, fun hclosed => ?_⟩
      · have halive := (hhope.toClean.entered hready hstream hpending).alive hres hb
        rw [← hutf8] at halive
        exact halive
      · exact absurd (hopen.symm.trans hclosed) Bool.false_ne_true
  | refused _ _ _ _ _ _ hclosed _ hpieces _ =>
      refine ⟨fun hopen => absurd (hopen.symm.trans hclosed) Bool.false_ne_true, fun _ _ => .inr ?_⟩
      rw [hview]
      change _ ∈ w.trace
      refine he.closing_of_piece ho ((congrArg View.received hview).symm.trans hclosed) ?_
      have hnew : dataPieces w.trace = s'.core.pieces := by
        rw [Cws.core, hview]
        rfl
      rw [hnew, hpieces]
      exact fun hsame => absurd (List.append_right_eq_self.mp hsame) (List.cons_ne_nil _ _)

lemma failsFast_fresh (cfg : Cfg) : FailsFast (Cws.fresh cfg).view :=
  ⟨fun _ => hopeful_fresh cfg, fun h => absurd h Bool.false_ne_true⟩

/-- A header line adds events only. -/
lemma FailsFast.headerCb {s : Cws} (h : FailsFast s.view) (env : Env) (line : List Byte)
    (status version : ℤ) : FailsFast (headerCb env s line status version).2.view := by
  have hcore : (CurlWs.headerCb env s line status version).2.view.core = s.view.core :=
    core_headerCb env s line status version
  obtain ⟨evs, hw, -⟩ := writes_headerCb env s line status version
  have hgrows : s.view.trace ⊆ (CurlWs.headerCb env s line status version).2.view.trace := by
    have htrace : (CurlWs.headerCb env s line status version).2.view.trace
        = s.view.trace ++ evs := hw.trace
    rw [htrace]
    exact List.subset_append_left _ _
  generalize (CurlWs.headerCb env s line status version).2.view = w at hcore hgrows
  refine ⟨fun hopen => ?_, fun hclosed htext => ?_⟩
  · rw [hcore]
    exact h.hopeful ((congrArg Core.received hcore).symm.trans hopen)
  · have hfailed := h.failed ((congrArg Core.received hcore).symm.trans hclosed)
      ((congrArg (·.recv.streamType) hcore).symm.trans htext)
    have hwire : w.seen.wire = s.view.seen.wire := congrArg (·.seen.wire) hcore
    rw [hwire]
    exact hfailed.imp_right fun hmem => hgrows hmem

variable {env : Env} {cfg : Cfg}

/-- **A text that cannot become well-formed any more has been refused**, in every run in which no
piece drops anything ill-formed, withholds bytes or ends in bytes that begin no character. -/
theorem text_fails_fast (acts : List Action)
    (hpieces : ∀ p ∈ dataPieces (run env (Cws.fresh cfg) acts).trace, ¬ p.Sloppy) :
    let s := run env (Cws.fresh cfg) acts
    s.recv.streamType = cwsText → (¬ ∃ t, WellFormed ((observe s.trace).wire ++ t)) →
      s.closeState.received = true ∧ .closing 1007 ∈ s.trace := by
  intro s htext hdead
  rw [← core_pieces] at hpieces
  rw [← view_seen] at hdead
  obtain ⟨htracks, hfast⟩ : Tracks (streamBytes env (Cws.fresh cfg) acts) [] s.core ∧
      ((∀ p ∈ s.core.pieces, ¬ p.Sloppy) → FailsFast s.view) := by
    refine @run_view_induction env
      (fun _ _ v => (∀ p ∈ v.core.pieces, ¬ p.Sloppy) → FailsFast v)
      (fun _ _ _ h => h) (fun _ _ _ _ h => h) ?_ cfg (fun _ => failsFast_fresh cfg) acts ?_
    · intro bs buf rest s s' w r hbuf hstep ho hr hi he hview h hp
      exact (h fun p hmem => hp p (hi.pieces_subset hmem)).iterate ho (hr.shape ho) hbuf hstep hi
        he hview hp
    · intro line status version _ bs s h hp
      refine (h fun p hmem => hp p ?_).headerCb env line status version
      have hsame := core_headerCb env s line status version
      rw [Cws.core, Cws.core] at hsame
      rwa [hsame]
  cases hclosed : s.closeState.received with
  | false =>
      obtain ⟨d, hd⟩ := (htracks.shape hclosed).stream.text htext
      exact absurd (((hfast hpieces).hopeful hclosed).viable hd) hdead
  | true =>
      have hmem := ((hfast hpieces).failed hclosed htext).resolve_left hdead
      exact ⟨rfl, List.mem_of_mem_filter hmem⟩

/-- The lead byte of a character in one piece and a letter in the next. -/
theorem text_fails_fast_continued :
    let s := run .quiet (Cws.fresh {}) [.receive [0x01, 1, 0xe1], .receive [0x80, 2, 0x41]]
    s.recv.streamType = cwsText ∧ (¬ ∃ t, WellFormed ((observe s.trace).wire ++ t)) ∧
      s.closeState.received = true ∧ .closing 1007 ∈ s.trace := by
  have hdead : ¬ Viable (observe (run .quiet (Cws.fresh {})
      [.receive [0x01, 1, 0xe1], .receive [0x80, 2, 0x41]]).trace).wire := by decide +kernel
  have hkind : (run .quiet (Cws.fresh {})
      [.receive [0x01, 1, 0xe1], .receive [0x80, 2, 0x41]]).recv.streamType = cwsText := by
    decide +kernel
  exact ⟨hkind, hdead, text_fails_fast [.receive [0x01, 1, 0xe1], .receive [0x80, 2, 0x41]]
    (by decide +kernel) hkind hdead⟩

/-- The same two bytes in one piece: the connection stays open. -/
theorem text_fails_late :
    let s := run .quiet (Cws.fresh {}) [.receive [0x01, 2, 0xe1, 0x41]]
    s.recv.streamType = cwsText ∧ (observe s.trace).wire = [0xe1, 0x41] ∧
      (¬ ∃ t, WellFormed ([0xe1, 0x41] ++ t)) ∧ s.closeState.received = false ∧
      .closing 1007 ∉ s.trace := by
  have hdead : ¬ Viable [0xe1, 0x41] := by decide +kernel
  exact ⟨by decide +kernel, by decide +kernel, hdead, by decide +kernel, by decide +kernel⟩

end CurlWs
