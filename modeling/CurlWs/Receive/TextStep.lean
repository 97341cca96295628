import CurlWs.Receive.Reading
import CurlWs.Receive.Utf8Validate

/-!
# One piece of a text

`_process_text_stream` is given the bytes of a piece and the buffer with the character in progress.
It has three branches that let a piece pass: the character is still not complete, it is completed,
or there is none and the piece is looked at as a whole.

**What passes.**  `TextStep` says what each branch sends and keeps.  The first two follow from the
branches directly; in the third, what is sent is the well-formed part of the piece, and what is kept
is fewer bytes than the character after it calls for.

**What does not.**  `Refusal` has the reasons: a beginning that `utf8_maybe_valid` turns down, a
completed character that is none, a piece that `utf8_validate` turns down, and a message that ends
inside a character.

**Tests on a piece.**  `Piece.Drops`, `Piece.DropsBad`, `Piece.Withholds` and `Piece.Stalls` are the
four ways in which a piece that comes at the wrong moment is treated differently from what its bytes
deserve.  They are decidable, and say nothing about what the code makes of the piece.

## Main results

* **`textStep`** — the branches.
* **`Refusal.stalls`** — a refused piece cannot be part of a well-formed text, with one exception.
-/

namespace CurlWs

open Utf8 WebSocket

/-- What is held of a character: nothing, or a beginning with the right number of bytes missing. -/
inductive Pending : Utf8Buffer → Prop where
  | empty : Pending {}
  | begun {a : Byte} {t : List Byte} {n : ℕ} (hn : 0 < n)
      (hsize : utf8GetSize a = (a :: t).length + n) : Pending ⟨a :: t, n⟩

/-- If nothing is missing, nothing is held. -/
lemma Pending.eq_empty {u : Utf8Buffer} (h : Pending u) (hn : u.needed = 0) : u = {} := by
  cases h with
  | empty => rfl
  | begun hn' _ => exact absurd hn hn'.ne'

namespace Piece

/-- The bytes of a piece that may belong to the character in progress. -/
def head (p : Piece) : List Byte := p.bytes.take p.utf8.needed

/-- The bytes after the character in progress. -/
def excess (p : Piece) : List Byte := p.bytes.drop p.utf8.needed

/-- The piece completes the character in progress and goes on: what follows the character is taken
from the wire and not sent. -/
def Drops (p : Piece) : Prop :=
  p.stream = cwsText ∧ 0 < p.utf8.needed ∧ p.utf8.needed < p.bytes.length ∧
    utf8Validate (p.utf8.buf ++ p.head) = some (p.utf8.buf ++ p.head).length

/-- Such a piece, where what is not sent is not well-formed by itself. -/
def DropsBad (p : Piece) : Prop :=
  p.Drops ∧ utf8Validate p.excess ≠ some p.excess.length

/-- The message ends inside the character in progress, and the beginning of the character passes. -/
def Withholds (p : Piece) : Prop :=
  p.stream = cwsText ∧ p.Final ∧ p.bytes.length < p.utf8.needed ∧
    utf8MaybeValid (p.utf8.buf ++ p.bytes) = true

/-- The piece is empty, and the character in progress is one of the two lead bytes that the check of
a beginning does not pass by themselves. -/
def Stalls (p : Piece) : Prop :=
  p.stream = cwsText ∧ 0 < p.utf8.needed ∧ p.bytes = [] ∧
    (p.utf8.buf = [0xe0] ∨ p.utf8.buf = [0xf0])

instance (p : Piece) : Decidable p.Drops := inferInstanceAs (Decidable (_ ∧ _))
instance (p : Piece) : Decidable p.DropsBad := inferInstanceAs (Decidable (_ ∧ _))
instance (p : Piece) : Decidable p.Withholds := inferInstanceAs (Decidable (_ ∧ _))
instance (p : Piece) : Decidable p.Stalls := inferInstanceAs (Decidable (_ ∧ _))

end Piece

/-- A piece of a text passes. -/
inductive TextStep (p : Piece) : TextResult → Prop where
  /-- The character in progress is still not complete; nothing is sent. -/
  | waiting (hlt : p.bytes.length < p.utf8.needed)
      (hmaybe : utf8MaybeValid (p.utf8.buf ++ p.bytes) = true) :
      TextStep p { utf8 := ⟨p.utf8.buf ++ p.bytes, p.utf8.needed - p.bytes.length⟩ }
  /-- The character in progress is completed; it alone is sent. -/
  | finished (hn : 0 < p.utf8.needed) (hle : p.utf8.needed ≤ p.bytes.length)
      (hw : WellFormed (p.utf8.buf ++ p.head)) :
      TextStep p { toSend := some (p.utf8.buf ++ p.head), utf8 := {} }
  /-- There is no character in progress; all but a beginning of one is sent. -/
  | bulk {w r : List Byte} {u : Utf8Buffer} (hn : p.utf8 = {}) (hsplit : p.bytes = w ++ r)
      (hw : WellFormed w) (hbuf : u.buf = r) (hu : Pending u) (hfinal : p.Final → r = []) :
      TextStep p { toSend := some w, utf8 := u }

/-- A piece of a text does not pass. -/
inductive Refusal (p : Piece) : Prop where
  | badStart (hlt : p.bytes.length < p.utf8.needed)
      (hmaybe : utf8MaybeValid (p.utf8.buf ++ p.bytes) = false)
  | badChar (hn : 0 < p.utf8.needed) (hle : p.utf8.needed ≤ p.bytes.length)
      (hw : ¬ WellFormed (p.utf8.buf ++ p.head))
  | badBulk (hn : p.utf8 = {}) (hbad : utf8Validate p.bytes = none)
  | cutOff (hn : p.utf8 = {}) (hfin : p.frame.fin = true)
      (hle : p.frame.payloadLen ≤ p.bytes.length) (hbad : ¬ WellFormed p.bytes)

/-- **The branches of `_process_text_stream`.** -/
theorem textStep {p : Piece} (hs : p.stream = cwsText) (hp : Pending p.utf8) :
    if p.result.rv < 0 then Refusal p else TextStep p p.result := by
  rw [Piece.result, if_pos hs]
  by_cases hn : 0 < p.utf8.needed
  · by_cases hlt : p.bytes.length < p.utf8.needed
    · have hmin : minSizeT p.utf8.needed p.bytes.length = p.bytes.length := by
        rw [minSizeT_eq, Nat.min_eq_right (by omega)]
      have hmore : p.utf8.needed - p.bytes.length ≠ 0 := by omega
      simp only [processTextStream, if_pos hn, hmin, List.take_length, if_pos hmore]
      cases hm : utf8MaybeValid (p.utf8.buf ++ p.bytes) with
      | true => exact .waiting hlt hm
      | false => exact .badStart hlt hm
    · have hmin : minSizeT p.utf8.needed p.bytes.length = p.utf8.needed := by
        rw [minSizeT_eq, Nat.min_eq_left (by omega)]
      simp only [processTextStream, if_pos hn, hmin, Nat.sub_self]
      rw [if_neg (not_not.mpr rfl)]
      have hvalid : utf8Validate (p.utf8.buf ++ p.bytes.take p.utf8.needed)
            = some ({ buf := p.utf8.buf ++ p.bytes.take p.utf8.needed } : Utf8Buffer).used
          ↔ WellFormed (p.utf8.buf ++ p.head) := utf8Validate_length_iff
      by_cases hw : WellFormed (p.utf8.buf ++ p.head)
      · rw [if_neg (not_not.mpr (hvalid.mpr hw))]
        exact .finished hn (by omega) hw
      · rw [if_pos (mt hvalid.mp hw)]
        exact .badChar hn (by omega) hw
  · have hu : p.utf8 = {} := hp.eq_empty (by omega)
    simp only [processTextStream, if_neg hn]
    cases hv : utf8Validate p.bytes with
    | none => exact .badBulk hu hv
    | some valid =>
        obtain ⟨w, r, hsplit, hw, hr, rfl⟩ := utf8Validate_eq_some_iff.mp hv
        simp only
        by_cases hwhole : w.length < p.bytes.length
        · have hrne : r ≠ [] := by
            rintro rfl
            rw [hsplit, List.append_nil] at hwhole
            exact lt_irrefl _ hwhole
          have hdrop : p.bytes.drop w.length = r := by rw [hsplit, List.drop_left]
          have htake : p.bytes.take w.length = w := by rw [hsplit, List.take_left]
          rw [if_pos hwhole, hdrop, htake]
          by_cases hfin : p.frame.fin = true ∧ p.frame.payloadLen ≤ p.bytes.length
          · rw [if_pos hfin]
            refine .cutOff hu hfin.1 hfin.2 fun hbad => ?_
            rw [utf8Validate_length_iff.mpr hbad, Option.some_inj] at hv
            omega
          · rw [if_neg hfin]
            refine .bulk hu hsplit hw rfl ?_ fun hf => absurd ⟨hf.2, hf.1.le⟩ hfin
            obtain ⟨a, t, rfl⟩ := List.exists_cons_of_ne_nil hrne
            have hshort : (a :: t).length < utf8GetSize a := hr.resolve_left hrne
            exact .begun (by simp only [List.headD_cons]; omega)
              (by simp only [List.headD_cons]; omega)
        · have hrnil : r = [] := by
            rw [hsplit, List.length_append] at hwhole
            exact List.length_eq_zero_iff.mp (by omega)
          rw [if_neg hwhole, hsplit, hrnil, List.append_nil, hu]
          exact .bulk hu (by rw [hsplit, hrnil]) hw rfl .empty fun _ => rfl

/-- The first character of a well-formed string is whole. -/
lemma isChar_of_begun {a : Byte} {t : List Byte} {n : ℕ}
    (hsize : utf8GetSize a = (a :: t).length + n) {x : List Byte}
    (hw : WellFormed (a :: t ++ x)) : n ≤ x.length ∧ IsChar (a :: t ++ x.take n) := by
  rw [utf8GetSize_eq] at hsize
  obtain ⟨hle, hc, -⟩ := WellFormed.cons_iff.mp (by rwa [List.cons_append] at hw)
  rw [hsize] at hle hc
  rw [← List.cons_append, List.length_append] at hle
  rw [← List.cons_append, List.take_length_add_append] at hc
  exact ⟨by omega, hc⟩

/-- **A refused piece is not part of a well-formed text**, unless it is empty and comes after one of
two lead bytes. -/
theorem Refusal.stalls {p : Piece} (h : Refusal p) (hs : p.stream = cwsText) (hp : Pending p.utf8)
    (hle : p.bytes.length ≤ p.frame.payloadLen) {x : List Byte}
    (hw : WellFormed (p.utf8.buf ++ (p.bytes ++ x))) (hend : p.Final → x = []) : p.Stalls := by
  cases h with
  | badStart hlt hmaybe =>
      have hn : 0 < p.utf8.needed := by omega
      have hcut : Cut (p.utf8.buf ++ p.bytes) ∧ p.utf8.buf ≠ [] := by
        generalize p.utf8 = u at hp hw hlt
        cases hp with
        | empty => exact absurd hlt (Nat.not_lt_zero _)
        | @begun a t n hn hsize =>
            simp only at hlt hw
            obtain ⟨hnx, hc⟩ := isChar_of_begun hsize hw
            rw [List.take_append, List.take_of_length_le hlt.le, ← List.append_assoc] at hc
            refine ⟨⟨by simp, _, ?_, hc⟩, by simp⟩
            rw [Ne, ← List.length_eq_zero_iff, List.length_take]
            rw [List.length_append] at hnx
            omega
      obtain ⟨hcut, hne⟩ := hcut
      have hlone : p.utf8.buf ++ p.bytes = [0xe0] ∨ p.utf8.buf ++ p.bytes = [0xf0] := by
        by_contra hno
        obtain ⟨h1, h2⟩ := not_or.mp hno
        rw [utf8MaybeValid_of_cut hcut h1 h2] at hmaybe
        exact Bool.noConfusion hmaybe
      have hempty : p.bytes = [] := by
        have hlen : (p.utf8.buf ++ p.bytes).length = 1 := by
          rcases hlone with h | h <;> rw [h] <;> rfl
        rw [List.length_append] at hlen
        have := List.length_pos_of_ne_nil hne
        exact List.length_eq_zero_iff.mp (by omega)
      rw [hempty, List.append_nil] at hlone
      exact ⟨hs, hn, hempty, hlone⟩
  | badChar hn hle' hbad =>
      exfalso
      rw [Piece.head] at hbad
      generalize p.utf8 = u at hp hw hn hle' hbad
      cases hp with
      | empty => exact absurd hn (lt_irrefl _)
      | @begun a t n hn hsize =>
          simp only at hle' hw hbad
          have hc := (isChar_of_begun hsize hw).2
          rw [List.take_append_of_le_length hle'] at hc
          exact hbad hc.wellFormed
  | badBulk hn hbad =>
      exfalso
      rw [hn] at hw
      obtain ⟨w, r, -, -, -, hv⟩ := @utf8Validate_of_wellFormed p.bytes _ hw
      exact absurd (hbad.symm.trans hv) (by simp)
  | cutOff hn hfin hle' hbad =>
      exfalso
      rw [hend ⟨le_antisymm hle' hle, hfin⟩, List.append_nil, hn] at hw
      exact hbad hw

/-- A beginning of a character is not well-formed. -/
lemma not_wellFormed_of_waiting {p : Piece} (hp : Pending p.utf8)
    (hlt : p.bytes.length < p.utf8.needed) : ¬ WellFormed (p.utf8.buf ++ p.bytes) := by
  intro hw
  generalize p.utf8 = u at hp hw hlt
  cases hp with
  | empty => exact absurd hlt (Nat.not_lt_zero _)
  | @begun a t n hn hsize =>
      simp only at hlt hw
      exact absurd (isChar_of_begun hsize hw).1 (by omega)

/-- The pending buffer after a piece. -/
lemma TextStep.pending {p : Piece} {r : TextResult} (h : TextStep p r) (hp : Pending p.utf8) :
    Pending r.utf8 := by
  cases h with
  | waiting hlt hmaybe =>
      generalize p.utf8 = u at hp hlt
      cases hp with
      | empty => exact absurd hlt (Nat.not_lt_zero _)
      | @begun a t n hn hsize =>
          change Pending ⟨a :: (t ++ p.bytes), n - p.bytes.length⟩
          simp only at hlt
          refine .begun (by omega) ?_
          rw [← List.cons_append, List.length_append]
          omega
  | finished => exact .empty
  | bulk _ _ _ _ hu _ => exact hu

end CurlWs
