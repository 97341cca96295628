import CurlWs.Receive.TextStep

/-!
# The text in progress

What one piece does to a text, and the two invariants of the message in progress that it keeps.

**Between pieces.**  The buffer holds nothing, or the beginning of a character with the right number
of bytes missing (`Pending`), and outside a text it holds nothing (`Clean`).  A piece is entered
with this (`Entered`) and leaves it behind, unless it withholds bytes at the end of a message.

**Two invariants.**  `Exact` is about delivery: the payload of the message so far is what has been
delivered and then what is held.  `Sound` is about well-formedness: all of the payload but what is
held is well-formed.  The first is about messages of both kinds, the second about texts.

**Two kinds of loss.**  A piece that completes a character and goes on has the rest of its bytes
dropped.  Delivery suffers from this in any case (`Piece.Drops`), well-formedness only if what is
dropped is not well-formed by itself (`Piece.DropsBad`).

## Main results

* **`Exact.piece`** — every byte of a message is delivered or held, if no piece drops or withholds
  any.
* **`Sound.piece`** — a text is well-formed up to the character in progress, if what is dropped is
  well-formed by itself and no piece withholds bytes.
-/

namespace CurlWs

open Utf8 WebSocket

/-! ## One piece

A piece of a message, from the buffer it finds to the one it leaves. -/

/-- What a piece of a message of kind `k` is entered with. -/
structure Entered (p : Piece) (k : Kind) : Prop where
  stream : p.stream = kindFlag k
  pending : Pending p.utf8
  binary : k = .binary → p.utf8 = {}

/-- A piece that passes takes one of the three branches. -/
lemma Entered.textStep {p : Piece} (h : Entered p .text) (hres : ¬ p.result.rv < 0) :
    TextStep p p.result := by
  have hstep := CurlWs.textStep h.stream h.pending
  rwa [if_neg hres] at hstep

/-- After a piece the buffer holds a beginning of a character, and nothing at the end of a message
unless the piece withholds it. -/
lemma Entered.leaves {p : Piece} {k : Kind} (h : Entered p k) (hres : ¬ p.result.rv < 0)
    (hw : ¬ p.Withholds) :
    Pending p.result.utf8 ∧ (k = .binary ∨ p.Final → p.result.utf8 = {}) := by
  cases k with
  | binary =>
      rw [result_binary h.stream]
      exact ⟨h.pending, fun _ => h.binary rfl⟩
  | text =>
      have hstep := h.textStep hres
      refine ⟨hstep.pending h.pending, fun hend => ?_⟩
      have hfinal : p.Final := hend.resolve_left (by simp)
      generalize p.result = r at hstep
      cases hstep with
      | waiting hlt hmaybe => exact absurd ⟨h.stream, hfinal, hlt, hmaybe⟩ hw
      | finished => rfl
      | bulk _ _ _ hbuf hu hf =>
          have hnil := hbuf.trans (hf hfinal)
          cases hu with
          | empty => rfl
          | begun => exact absurd hnil (by simp)

/-- **A piece that drops nothing** is delivered up to the character in progress. -/
lemma Entered.exact {p : Piece} {k : Kind} (h : Entered p k) (hres : ¬ p.result.rv < 0)
    (hd : ¬ p.Drops) :
    p.utf8.buf ++ p.bytes = p.result.toSend.getD [] ++ p.result.utf8.buf := by
  cases k with
  | binary =>
      rw [result_binary h.stream]
      simp [h.binary rfl]
  | text =>
      have hstep := h.textStep hres
      generalize p.result = r at hstep
      cases hstep with
      | waiting => rfl
      | finished hn hle hw =>
          have hlen : p.bytes.length ≤ p.utf8.needed := by
            by_contra hlt
            exact hd ⟨h.stream, hn, by omega, utf8Validate_length_iff.mpr hw⟩
          simp [Piece.head, List.take_of_length_le hlen]
      | bulk hn hsplit hw hbuf hu hf => simp [hn, hsplit, hbuf]

/-- **A piece that drops nothing ill-formed** is well-formed up to the character in progress. -/
lemma Entered.sound {p : Piece} (h : Entered p .text) (hres : ¬ p.result.rv < 0)
    (hd : ¬ p.DropsBad) :
    ∃ x, p.utf8.buf ++ p.bytes = x ++ p.result.utf8.buf ∧ WellFormed x := by
  have hstep := h.textStep hres
  generalize p.result = r at hstep
  cases hstep with
  | waiting => exact ⟨[], rfl, .nil⟩
  | finished hn hle hw =>
      refine ⟨p.utf8.buf ++ p.bytes, by simp, ?_⟩
      have hexcess : WellFormed p.excess := by
        by_cases hlt : p.utf8.needed < p.bytes.length
        · by_contra hbad
          exact hd ⟨⟨h.stream, hn, hlt, utf8Validate_length_iff.mpr hw⟩,
            mt utf8Validate_length_iff.mp hbad⟩
        · rw [Piece.excess, List.drop_eq_nil_of_le (by omega)]
          exact .nil
      have := hw.append hexcess
      rwa [List.append_assoc, Piece.head, Piece.excess, List.take_append_drop] at this
  | bulk hn hsplit hw hbuf hu hf => exact ⟨_, by simp [hn, hsplit, hbuf], hw⟩

/-! ## Invariants

Of the message in progress and the buffer, as far as the core shows them. -/

/-- The buffer of the character in progress, between iterations. -/
structure Clean (c : Core) : Prop where
  pending : Pending c.recv.utf8
  idle : (∀ d, c.seen.current ≠ some (.text, d)) → c.recv.utf8 = {}

/-- Every piece is entered with a clean buffer. -/
lemma Clean.entered {s : Cws} (h : Clean s.core) {r : Recv} {k : Kind} {begun : Bool}
    {d : List Byte} (hr : Ready r s.core.seen k begun d) {p : Piece} (hs : p.stream = kindFlag k)
    (hu : p.utf8 = s.recv.utf8) : Entered p k := by
  refine ⟨hs, hu ▸ h.pending, ?_⟩
  rintro rfl
  refine hu.trans (h.idle fun d' hd' => ?_)
  cases hr with
  | first _ _ hc _ => exact absurd (hc.symm.trans hd') (by simp)
  | next _ _ hc _ => exact absurd (hc.symm.trans hd') (by simp)

/-- The first piece of a message finds nothing in the buffer. -/
lemma Clean.first {s : Cws} (h : Clean s.core) {r : Recv} {k : Kind} {d : List Byte}
    (hr : Ready r s.core.seen k false d) : s.recv.utf8 = {} := by
  cases hr with
  | first _ _ hc _ => exact h.idle fun d' hd' => absurd (hc.symm.trans hd') (by simp)

/-- Iterations without a piece leave the buffer alone. -/
lemma Clean.quiet {c c' : Core} (h : Clean c) (hq : Quiet c c') : Clean c' := by
  have hcur : c'.seen.current = c.seen.current := by rw [hq.seen]
  exact ⟨hq.utf8 ▸ h.pending, fun hi => hq.utf8.trans (h.idle (hcur ▸ hi))⟩

/-- A piece keeps the buffer clean. -/
lemma Entered.clean {p : Piece} {k : Kind} (h : Entered p k) (hres : ¬ p.result.rv < 0)
    (hw : ¬ p.Withholds) {c' : Core} {S : Seen} {begun : Bool} {d buf : List Byte}
    (hutf8 : c'.recv.utf8 = p.result.utf8)
    (hseen : c'.seen = S.afterPiece k begun d p.bytes buf p.Final) : Clean c' := by
  obtain ⟨hpend, hempty⟩ := h.leaves hres hw
  refine ⟨hutf8 ▸ hpend, fun hi => hutf8.trans (hempty ?_)⟩
  by_cases hf : p.Final
  · exact .inr hf
  · refine .inl ?_
    cases k with
    | binary => rfl
    | text =>
        refine absurd ?_ (hi (d ++ buf))
        rw [hseen, Seen.current_afterPiece, decide_eq_false hf]
        rfl

/-- Every byte of the message in progress has been delivered or is held. -/
structure Exact (c : Core) : Prop extends Clean c where
  wire : ∀ k d, c.seen.current = some (k, d) → c.seen.wire = d ++ c.recv.utf8.buf

/-- The payload so far, when the next piece comes. -/
lemma Exact.ready {s : Cws} (h : Exact s.core) {r : Recv} {k : Kind} {begun : Bool} {d : List Byte}
    (hr : Ready r s.core.seen k begun d) : s.core.seen.wire = d ++ s.recv.utf8.buf := by
  have hfirst := @Clean.first s h.toClean r k d
  cases hr with
  | first hs hi hc hw => rw [hw, hfirst (.first hs hi hc hw)]; rfl
  | next _ _ hc _ => exact h.wire k d hc

lemma exact_fresh (cfg : Cfg) : Exact (Cws.fresh cfg).core :=
  ⟨⟨.empty, fun _ => rfl⟩, fun _ _ h => absurd h.symm (Option.some_ne_none _)⟩

/-- The text in progress is well-formed up to the character in progress. -/
structure Sound (c : Core) : Prop extends Clean c where
  wire : ∀ d, c.seen.current = some (.text, d) →
    ∃ w, c.seen.wire = w ++ c.recv.utf8.buf ∧ WellFormed w

/-- The text so far, when the next piece comes. -/
lemma Sound.ready {s : Cws} (h : Sound s.core) {r : Recv} {begun : Bool} {d : List Byte}
    (hr : Ready r s.core.seen .text begun d) :
    ∃ w, s.core.seen.wire = w ++ s.recv.utf8.buf ∧ WellFormed w := by
  have hfirst := @Clean.first s h.toClean r .text d
  cases hr with
  | first hs hi hc hw => exact ⟨[], by rw [hw, hfirst (.first hs hi hc hw)]; rfl, .nil⟩
  | next _ _ hc _ => exact h.wire d hc

lemma sound_fresh (cfg : Cfg) : Sound (Cws.fresh cfg).core :=
  ⟨⟨.empty, fun _ => rfl⟩, fun _ h => absurd h.symm (Option.some_ne_none _)⟩

section
variable {c c' : Core}

/-- Iterations without a piece deliver nothing. -/
lemma Exact.quiet (h : Exact c) (hq : Quiet c c') : Exact c' := by
  refine ⟨h.toClean.quiet hq, fun k d hcur => ?_⟩
  rw [hq.seen] at hcur ⊢
  rw [hq.utf8]
  exact h.wire k d hcur

lemma Sound.quiet (h : Sound c) (hq : Quiet c c') : Sound c' := by
  refine ⟨h.toClean.quiet hq, fun d hcur => ?_⟩
  rw [hq.seen] at hcur ⊢
  rw [hq.utf8]
  exact h.wire d hcur

end

/-! ## A piece keeps the invariants

The message goes on, or it is completed, and then the invariant says what it has come to. -/

section
variable {s : Cws} {r : Recv} {k : Kind} {begun : Bool} {d : List Byte} {p : Piece} {c : Core}
  (hready : Ready r s.core.seen k begun d) (hs : p.stream = kindFlag k)
  (hu : p.utf8 = s.recv.utf8) (hres : ¬ p.result.rv < 0) (hutf8 : c.recv.utf8 = p.result.utf8)
  (hseen : c.seen = s.core.seen.afterPiece k begun d p.bytes (p.result.toSend.getD []) p.Final)
include hready hs hu hres hutf8 hseen

/-- After a piece that neither drops nor withholds anything. -/
lemma Exact.piece (h : Exact s.core) (hd : ¬ p.Drops) (hw : ¬ p.Withholds) :
    Exact c ∧ (messages s.core.seen.items = s.core.seen.deliveries →
      messages c.seen.items = c.seen.deliveries) := by
  have hentered := h.toClean.entered hready hs hu
  have hsplit : s.core.seen.wire ++ p.bytes
      = (d ++ p.result.toSend.getD []) ++ p.result.utf8.buf := by
    rw [h.ready hready, ← hu, List.append_assoc, hentered.exact hres hd, List.append_assoc]
  refine ⟨⟨hentered.clean hres hw hutf8 hseen, fun k' d' hcur => ?_⟩, fun heq => ?_⟩
  · rw [hseen, Seen.current_afterPiece] at hcur
    split_ifs at hcur with hlast
    obtain ⟨rfl, rfl⟩ := Prod.mk.inj (Option.some.inj hcur)
    rw [hseen, Seen.wire_afterPiece, if_neg hlast, hutf8, hsplit]
  · rw [hseen, Seen.messages_afterPiece, Seen.deliveries_afterPiece, heq]
    split_ifs with hlast
    · have hnil := (hentered.leaves hres hw).2 (.inr (of_decide_eq_true hlast))
      rw [hsplit, hnil, List.append_nil]
    · rfl

/-- After a piece that drops nothing ill-formed and withholds nothing. -/
lemma Sound.piece (h : Sound s.core) (hd : ¬ p.DropsBad) (hw : ¬ p.Withholds) :
    Sound c ∧ ((∀ w, (.text, w) ∈ messages s.core.seen.items → WellFormed w) →
      ∀ w, (.text, w) ∈ messages c.seen.items → WellFormed w) := by
  have hentered := h.toClean.entered hready hs hu
  have hsplit (hk : k = .text) :
      ∃ w, s.core.seen.wire ++ p.bytes = w ++ p.result.utf8.buf ∧ WellFormed w := by
    subst hk
    obtain ⟨w, hwire, hwf⟩ := h.ready hready
    obtain ⟨x, hx, hxf⟩ := hentered.sound hres hd
    refine ⟨w ++ x, ?_, hwf.append hxf⟩
    rw [hwire, ← hu, List.append_assoc, hx, List.append_assoc]
  refine ⟨⟨hentered.clean hres hw hutf8 hseen, fun d' hcur => ?_⟩, fun hall w hmem => ?_⟩
  · rw [hseen, Seen.current_afterPiece] at hcur
    split_ifs at hcur with hlast
    obtain ⟨hk, -⟩ := Prod.mk.inj (Option.some.inj hcur)
    rw [hseen, Seen.wire_afterPiece, if_neg hlast, hutf8]
    exact hsplit hk
  · rw [hseen, Seen.messages_afterPiece, List.mem_append] at hmem
    rcases hmem with hmem | hmem
    · exact hall w hmem
    · split_ifs at hmem with hlast
      · obtain ⟨hk, rfl⟩ := Prod.mk.inj (List.mem_singleton.mp hmem)
        have hnil := (hentered.leaves hres hw).2 (.inr (of_decide_eq_true hlast))
        obtain ⟨x, hx, hxf⟩ := hsplit hk.symm
        rwa [hx, hnil, List.append_nil]
      · exact absurd hmem List.not_mem_nil

end

end CurlWs
