import CurlWs.Receive.FailFast

/-!
# What `utf8_maybe_valid` answers

The question is whether the bytes begin a character, or are one.  The code pads them with 0x80 to
the length that the lead byte calls for and validates the result.

**Enough bytes.**  With all the bytes of a character nothing is padded, and the answer is that of
`utf8_validate` (`utf8MaybeValid_whole`).

**Fewer bytes.**  0x80 is the smallest continuation byte, and most beginnings can go on with it.
Padding answers the question for all but two: after 0xE0 the next byte is 0xA0 at least, and after
0xF0 it is 0x90, so each of these alone is turned down although characters begin with it
(`lead_denied`).

**What may be asked.**  `Askable` is the domain: at least one byte, no more than fit into the
buffer, and no more than the lead byte calls for.

* **`answersRightly_iff`** — the answer is right except about these two lead bytes alone.
-/

namespace CurlWs

open Utf8

variable {t : List Byte}

/-- The bytes can be made one character. -/
def BeginsChar (t : List Byte) : Prop := ∃ p, IsChar (t ++ p)

/-- The answer about these bytes is right. -/
def AnswersRightly (t : List Byte) : Prop := utf8MaybeValid t = true ↔ BeginsChar t

/-- What it may be asked about: bytes that fit into its buffer, and no more than the lead byte calls
for. -/
structure Askable (t : List Byte) : Prop where
  ne_nil : t ≠ []
  fits : t.length ≤ maxUtfBytes
  short : utf8GetSize (t.headD 0) ≠ 0 → t.length ≤ utf8GetSize (t.headD 0)

/-- The bytes are a character, or are cut off in one. -/
lemma beginsChar_iff (hne : t ≠ []) : BeginsChar t ↔ IsChar t ∨ Cut t := by
  constructor
  · rintro ⟨p, h⟩
    by_cases hp : p = []
    · rw [hp, List.append_nil] at h
      exact .inl h
    · exact .inr ⟨hne, p, hp, h⟩
  · rintro (h | ⟨-, p, -, h⟩)
    · refine ⟨[], ?_⟩
      rwa [List.append_nil]
    · exact ⟨p, h⟩

/-- As many bytes as the lead byte calls for. -/
lemma utf8MaybeValid_whole {a : Byte} {t : List Byte} (hlen : (a :: t).length = seqLength a) :
    utf8MaybeValid (a :: t) = true ↔ IsChar (a :: t) := by
  rw [utf8MaybeValid_iff, List.take_left' hlen]

/-- A byte that begins no character. -/
lemma not_beginsChar {a : Byte} (h : seqLength a = 0) (t : List Byte) :
    ¬ BeginsChar (a :: t) := by
  rintro ⟨p, hchar⟩
  have hlen := IsChar.length_eq (t := t ++ p) hchar
  rw [h] at hlen
  cases hlen

/-- The two lead bytes that the padding does not suit. -/
lemma lead_denied : utf8MaybeValid [0xe0] = false ∧ utf8MaybeValid [0xf0] = false := by
  decide +kernel

/-- Fewer bytes than the lead byte calls for. -/
lemma answersRightly_short (hshort : t.length < utf8GetSize (t.headD 0)) (hne : t ≠ []) :
    AnswersRightly t ↔ t ≠ [0xe0] ∧ t ≠ [0xf0] := by
  have hwhole : ¬ IsChar t := by
    obtain ⟨a, t, rfl⟩ := List.exists_cons_of_ne_nil hne
    rw [List.headD_cons, utf8GetSize_eq] at hshort
    intro h
    exact absurd h.length_eq hshort.ne
  rw [AnswersRightly, beginsChar_iff hne, or_iff_right hwhole, cut_iff]
  constructor
  · intro h
    refine ⟨?_, ?_⟩
    · intro he
      have hmaybe := h.mpr ⟨hshort, hne, .inl he⟩
      rw [he, lead_denied.1] at hmaybe
      cases hmaybe
    · intro hf
      have hmaybe := h.mpr ⟨hshort, hne, .inr (.inl hf)⟩
      rw [hf, lead_denied.2] at hmaybe
      cases hmaybe
  · rintro ⟨he, hf⟩
    constructor
    · intro hmaybe
      exact ⟨hshort, hne, .inr (.inr hmaybe)⟩
    · rintro ⟨-, -, heq | heq | hmaybe⟩
      · exact absurd heq he
      · exact absurd heq hf
      · exact hmaybe

/-- **When the answer is right.** -/
theorem answersRightly_iff (h : Askable t) :
    AnswersRightly t ↔ t ≠ [0xe0] ∧ t ≠ [0xf0] := by
  obtain ⟨hne, -, hsize⟩ := h
  rcases lt_or_ge t.length (utf8GetSize (t.headD 0)) with hshort | hlong
  · exact answersRightly_short hshort hne
  · have hlead : t ≠ [0xe0] ∧ t ≠ [0xf0] := by
      constructor
      · rintro rfl
        rw [List.headD_cons, utf8GetSize_eq] at hlong
        exact absurd hlong (by decide)
      · rintro rfl
        rw [List.headD_cons, utf8GetSize_eq] at hlong
        exact absurd hlong (by decide)
    refine iff_of_true ?_ hlead
    obtain ⟨a, t, rfl⟩ := List.exists_cons_of_ne_nil hne
    rw [List.headD_cons, utf8GetSize_eq] at hsize hlong
    by_cases h0 : seqLength a = 0
    · refine iff_of_false ?_ (not_beginsChar h0 t)
      rw [utf8MaybeValid_iff, h0, List.take_zero]
      intro h
      exact h.ne_nil rfl
    · have hlen : (a :: t).length = seqLength a := le_antisymm (hsize h0) hlong
      rw [AnswersRightly, beginsChar_iff hne, utf8MaybeValid_whole hlen]
      refine (or_iff_left ?_).symm
      intro hcut
      exact absurd hcut.length_lt hlen.not_lt

/-- Two bytes of three. -/
theorem answersRightly_euro : AnswersRightly [0xe2, 0x82] ↔
    ([0xe2, 0x82] : List Byte) ≠ [0xe0] ∧ ([0xe2, 0x82] : List Byte) ≠ [0xf0] :=
  answersRightly_iff ⟨by decide, by decide, by decide +kernel⟩

/-- The first byte of U+0800 is said to begin nothing. -/
theorem maybeValid_denies_lead :
    utf8MaybeValid [0xe0] = false ∧ IsChar ([0xe0] ++ [0xa0, 0x80]) ∧ ¬ AnswersRightly [0xe0] := by
  have hchar : IsChar ([0xe0] ++ [0xa0, 0x80]) := by
    refine isChar_three.mpr ?_
    simp [IsTail]
  refine ⟨lead_denied.1, hchar, ?_⟩
  intro h
  have hmaybe := h.mpr ⟨_, hchar⟩
  rw [lead_denied.1] at hmaybe
  cases hmaybe

end CurlWs
