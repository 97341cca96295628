import CurlWs.Library.Utf8
import CurlWs.Model.Utf8

/-!
# What the UTF-8 functions decide

`utf8_validate` goes through a string character by character, with a table of lengths and checks on
the ranges of the bytes and of the code point.  `utf8_maybe_valid` pads a beginning and asks it.

**A character.**  The table agrees with the lengths of the grammar (`utf8GetSize_eq`), and the
checks decide whether the bytes are one of its characters (`validChar_iff`).  Overlong forms and
surrogates are excluded by the code point in the source and by the second byte in the grammar.

**A string.**  The loop accepts a string exactly if it is a sequence of characters and then fewer
bytes than the next of them calls for (`utf8ValidateLoop_sound`, `utf8ValidateLoop_complete`).  What
those bytes are is not checked.

**A beginning.**  The answer of `utf8_maybe_valid` is whether the padded bytes are a character
(`utf8MaybeValid_iff`).

## Main results

* **`utf8Validate_eq_some_iff`** — exactly the strings that are well-formed up to a truncated
  character at the end are accepted, and the length of the well-formed part is reported.
* **`utf8MaybeValid_of_cut`** — a character that has begun is recognised, as long as two of its
  bytes have come in; a lone lead byte may be rejected.
-/

namespace CurlWs

open Utf8

/-! ## The table and the range checks

One character, against the grammar. -/

/-- The table has the lengths of the grammar. -/
lemma utf8GetSize_eq : ∀ b : Byte, utf8GetSize b = seqLength b :=
  forall_byte (by decide +kernel)

lemma tail_iff : ∀ b : Byte, 0xc0 &&& b = 0x80 ↔ IsTail b :=
  forall_byte (by simp only [IsTail]; decide +kernel)

lemma low_nibble : ∀ b : Byte, (0x0f &&& b).toNat = b.toNat % 16 := forall_byte (by decide +kernel)
lemma low_three : ∀ b : Byte, (0x07 &&& b).toNat = b.toNat % 8 := forall_byte (by decide +kernel)
lemma low_six : ∀ b : Byte, (0x3f &&& b).toNat = b.toNat % 64 := forall_byte (by decide +kernel)

/-- The code point a three-byte sequence spells. -/
lemma three_value (b0 b1 b2 : Byte) :
    (0x0f &&& b0).toNat <<< 12 ||| (0x3f &&& b1).toNat <<< 6 ||| (0x3f &&& b2).toNat
      = b0.toNat % 16 * 4096 + b1.toNat % 64 * 64 + b2.toNat % 64 := by
  have h1 : (b1.toNat % 64) <<< 6 < 2 ^ 12 := by rw [Nat.shiftLeft_eq]; omega
  have h2 : b2.toNat % 64 < 2 ^ 6 := by omega
  rw [low_nibble, low_six, low_six, Nat.lor_assoc, ← Nat.shiftLeft_add_eq_or_of_lt h2,
    ← Nat.shiftLeft_add_eq_or_of_lt (by rw [Nat.shiftLeft_eq] at h1 ⊢; omega)]
  simp only [Nat.shiftLeft_eq]
  omega

/-- The code point a four-byte sequence spells. -/
lemma four_value (b0 b1 b2 b3 : Byte) :
    (0x07 &&& b0).toNat <<< 18 ||| (0x3f &&& b1).toNat <<< 12 ||| (0x3f &&& b2).toNat <<< 6
        ||| (0x3f &&& b3).toNat
      = b0.toNat % 8 * 262144 + b1.toNat % 64 * 4096 + b2.toNat % 64 * 64 + b3.toNat % 64 := by
  have h3 : b3.toNat % 64 < 2 ^ 6 := by omega
  have h2 : (b2.toNat % 64) <<< 6 + b3.toNat % 64 < 2 ^ 12 := by rw [Nat.shiftLeft_eq]; omega
  have h1 : (b1.toNat % 64) <<< 12 + ((b2.toNat % 64) <<< 6 + b3.toNat % 64) < 2 ^ 18 := by
    rw [Nat.shiftLeft_eq, Nat.shiftLeft_eq]; omega
  rw [low_three, low_six, low_six, low_six, Nat.lor_assoc, Nat.lor_assoc,
    ← Nat.shiftLeft_add_eq_or_of_lt h3, ← Nat.shiftLeft_add_eq_or_of_lt h2,
    ← Nat.shiftLeft_add_eq_or_of_lt h1]
  simp only [Nat.shiftLeft_eq]
  omega

/-- **The range checks decide whether a sequence is a character.** -/
theorem validChar_iff {a : Byte} {t : List Byte} (h0 : seqLength a ≠ 0)
    (hlen : seqLength a ≤ (a :: t).length) :
    validChar (seqLength a) (a :: t) = true ↔ IsChar ((a :: t).take (seqLength a)) := by
  have hcases : seqLength a = 1 ∧ a.toNat < 0x80
      ∨ seqLength a = 2 ∧ 0xc2 ≤ a.toNat ∧ a.toNat ≤ 0xdf
      ∨ seqLength a = 3 ∧ 0xe0 ≤ a.toNat ∧ a.toNat ≤ 0xef
      ∨ seqLength a = 4 ∧ 0xf0 ≤ a.toNat ∧ a.toNat ≤ 0xf4 := by
    simp only [seqLength] at h0 ⊢
    split_ifs at h0 ⊢ <;> omega
  rcases hcases with ⟨hn, ha⟩ | ⟨hn, ha⟩ | ⟨hn, ha⟩ | ⟨hn, ha⟩
  · rw [hn]
    simpa [validChar, isChar_one] using ha
  · rw [hn] at hlen ⊢
    obtain ⟨b, t, rfl⟩ := List.exists_cons_of_length_pos (l := t) (by simp at hlen; omega)
    simp [validChar, validTwo, isChar_two, tail_iff, ha]
  · rw [hn] at hlen ⊢
    obtain ⟨b, t, rfl⟩ := List.exists_cons_of_length_pos (l := t) (by simp at hlen; omega)
    obtain ⟨c, t, rfl⟩ := List.exists_cons_of_length_pos (l := t) (by simp at hlen; omega)
    simp only [validChar, validThree, three_value, isChar_three, List.take_succ_cons,
      List.take_zero]
    simp only [Bool.not_eq_true', Bool.or_eq_false_iff, Bool.and_eq_false_iff,
      decide_eq_false_iff_not, not_not, tail_iff]
    simp only [IsTail]
    omega
  · rw [hn] at hlen ⊢
    obtain ⟨b, t, rfl⟩ := List.exists_cons_of_length_pos (l := t) (by simp at hlen; omega)
    obtain ⟨c, t, rfl⟩ := List.exists_cons_of_length_pos (l := t) (by simp at hlen; omega)
    obtain ⟨d, t, rfl⟩ := List.exists_cons_of_length_pos (l := t) (by simp at hlen; omega)
    simp only [validChar, validFour, four_value, isChar_four, List.take_succ_cons,
      List.take_zero]
    simp only [Bool.not_eq_true', Bool.or_eq_false_iff, decide_eq_false_iff_not, not_not,
      tail_iff]
    simp only [IsTail]
    omega

/-! ## `utf8_validate`

The loop, in both directions. -/

/-- What `utf8_validate` may leave at the end: nothing, or fewer bytes than the first of them calls
for. -/
def Truncated (r : List Byte) : Prop := r = [] ∨ r.length < utf8GetSize (r.headD 0)

/-- A part of a character is shorter than the character. -/
lemma truncated_of_cut {r : List Byte} (h : Cut r) : Truncated r := by
  obtain ⟨a, t, rfl⟩ := List.exists_cons_of_ne_nil h.1
  refine Or.inr ?_
  rw [utf8GetSize_eq]
  exact h.length_lt

/-- One iteration of the loop on a byte and what follows it. -/
lemma utf8ValidateLoop_cons (fuel : ℕ) (a : Byte) (t : List Byte) :
    utf8ValidateLoop (fuel + 1) (a :: t)
      = if (a :: t).length < utf8GetSize a then some (a :: t).length
        else if validChar (utf8GetSize a) (a :: t) then
          utf8ValidateLoop fuel ((a :: t).drop (utf8GetSize a))
        else none := rfl

/-- The loop accepts only a well-formed string and a truncated rest. -/
lemma utf8ValidateLoop_sound (fuel : ℕ) : ∀ (bytes : List Byte) (left : ℕ), bytes.length ≤ fuel →
    utf8ValidateLoop fuel bytes = some left →
      ∃ w r, bytes = w ++ r ∧ WellFormed w ∧ Truncated r ∧ r.length = left := by
  induction fuel with
  | zero =>
      intro bytes left hlen h
      obtain rfl := List.length_eq_zero_iff.mp (Nat.le_zero.mp hlen)
      exact ⟨[], [], rfl, .nil, .inl rfl, by simpa [utf8ValidateLoop] using h⟩
  | succ fuel ih =>
      intro bytes left hlen h
      cases bytes with
      | nil => exact ⟨[], [], rfl, .nil, .inl rfl, by simpa [utf8ValidateLoop] using h⟩
      | cons a t =>
          rw [utf8ValidateLoop_cons] at h
          split_ifs at h with hshort hvalid
          · exact ⟨[], a :: t, rfl, .nil, .inr hshort, by simpa using h⟩
          · rw [utf8GetSize_eq] at hshort hvalid h
            have h0 : seqLength a ≠ 0 := by
              intro h0
              rw [h0] at hvalid
              simp [validChar] at hvalid
            have hc := (validChar_iff h0 (by omega)).mp hvalid
            obtain ⟨w, r, he, hw, hr, hl⟩ := ih _ left (by simp at hlen ⊢; omega) h
            refine ⟨(a :: t).take (seqLength a) ++ w, r, ?_, hc.wellFormed.append hw, hr, hl⟩
            rw [List.append_assoc, ← he, List.take_append_drop]

/-- The loop accepts every well-formed string with a truncated rest. -/
lemma utf8ValidateLoop_complete (fuel : ℕ) : ∀ w r : List Byte, (w ++ r).length ≤ fuel →
    WellFormed w → Truncated r → utf8ValidateLoop fuel (w ++ r) = some r.length := by
  induction fuel with
  | zero =>
      intro w r hlen _ _
      have hnil := List.length_eq_zero_iff.mp (Nat.le_zero.mp hlen)
      obtain ⟨rfl, rfl⟩ := List.append_eq_nil_iff.mp hnil
      rfl
  | succ fuel ih =>
      intro w r hlen hw hr
      cases w with
      | nil =>
          rw [List.nil_append]
          cases r with
          | nil => rfl
          | cons a t =>
              rcases hr with hr | hr
              · exact absurd hr (by simp)
              · rw [utf8ValidateLoop_cons, if_pos (by simpa using hr)]
      | cons a t =>
          obtain ⟨hle, hc, hd⟩ := WellFormed.cons_iff.mp hw
          have h0 : seqLength a ≠ 0 := by
            intro h0
            rw [h0] at hc
            exact hc.ne_nil rfl
          rw [List.cons_append, utf8ValidateLoop_cons, utf8GetSize_eq, ← List.cons_append,
            if_neg (by simp at hle ⊢; omega), if_pos]
          · rw [List.drop_append_of_le_length hle]
            refine ih _ r ?_ hd hr
            simp at hlen hle ⊢
            omega
          · rw [List.cons_append, validChar_iff h0 (by simp at hle ⊢; omega), ← List.cons_append,
              List.take_append_of_le_length hle]
            exact hc

/-- **`utf8_validate` accepts** exactly a well-formed string with a truncated rest, and reports the
length of the well-formed part. -/
theorem utf8Validate_eq_some_iff {text : List Byte} {n : ℕ} :
    utf8Validate text = some n ↔
      ∃ w r, text = w ++ r ∧ WellFormed w ∧ Truncated r ∧ w.length = n := by
  simp only [utf8Validate, Option.map_eq_some_iff]
  constructor
  · rintro ⟨left, h, rfl⟩
    obtain ⟨w, r, rfl, hw, hr, rfl⟩ := utf8ValidateLoop_sound _ _ _ le_rfl h
    exact ⟨w, r, rfl, hw, hr, by simp⟩
  · rintro ⟨w, r, rfl, hw, hr, rfl⟩
    exact ⟨r.length, utf8ValidateLoop_complete _ w r le_rfl hw hr, by simp⟩

/-- A string is accepted whole exactly when it is well-formed. -/
theorem utf8Validate_length_iff {text : List Byte} :
    utf8Validate text = some text.length ↔ WellFormed text := by
  rw [utf8Validate_eq_some_iff]
  constructor
  · rintro ⟨w, r, rfl, hw, -, hl⟩
    obtain rfl : r = [] := by simpa using hl
    simpa using hw
  · exact fun h => ⟨text, [], by simp, h, .inl rfl, rfl⟩

/-- A beginning of a well-formed string is accepted, up to the character it cuts. -/
theorem utf8Validate_of_wellFormed {text t : List Byte} (h : WellFormed (text ++ t)) :
    ∃ w r, text = w ++ r ∧ WellFormed w ∧ (r = [] ∨ Cut r)
      ∧ utf8Validate text = some w.length := by
  obtain ⟨w, r, rfl, hw, hr⟩ := h.split
  exact ⟨w, r, rfl, hw, hr,
    utf8Validate_eq_some_iff.mpr
      ⟨w, r, rfl, hw, hr.imp id fun h => (truncated_of_cut h).resolve_left h.1,
      rfl⟩⟩

/-! ## `utf8_maybe_valid`

A question about fewer bytes than a character has. -/

/-- As many bytes as the first of them calls for are accepted only if they are a character. -/
lemma isChar_of_utf8Validate {a : Byte} {t : List Byte} {n : ℕ}
    (hlen : (a :: t).length = seqLength a) (h : utf8Validate (a :: t) = some n) :
    IsChar (a :: t) := by
  obtain ⟨w, r, hsplit, hw, hr, -⟩ := utf8Validate_eq_some_iff.mp h
  cases w with
  | nil =>
      rw [List.nil_append] at hsplit
      rw [← hsplit, Truncated, List.headD_cons, utf8GetSize_eq] at hr
      rcases hr with hnil | hlt
      · cases hnil
      · exact absurd hlen hlt.ne
  | cons b w =>
      obtain rfl : a = b := (List.cons.inj hsplit).1
      obtain ⟨hle, hc, -⟩ := WellFormed.cons_iff.mp hw
      have htotal := congrArg List.length hsplit
      rw [List.length_append, hlen] at htotal
      have hnil : r = [] := List.length_eq_zero_iff.mp (by omega)
      rw [hsplit, hnil, List.append_nil]
      rwa [List.take_of_length_le (by omega)] at hc

/-- **The answer is decided by the text padded with 0x80** to the length its lead byte calls for. -/
theorem utf8MaybeValid_iff {a : Byte} {t : List Byte} :
    utf8MaybeValid (a :: t) = true ↔
      IsChar ((a :: t ++ [0, 0x80, 0x80, 0x80].drop (a :: t).length).take (seqLength a)) := by
  have hmax : seqLength a ≤ 4 := by
    rw [seqLength]
    split_ifs <;> omega
  simp only [utf8MaybeValid, List.cons_append, List.headD_cons, utf8GetSize_eq]
  split_ifs with h0
  · rw [h0, List.take_zero]
    refine iff_of_false id ?_
    intro h
    exact h.ne_nil rfl
  · obtain ⟨n, hn⟩ := Nat.exists_eq_succ_of_ne_zero h0
    constructor
    · intro hvalid
      obtain ⟨m, hm⟩ := Option.isSome_iff_exists.mp hvalid
      rw [hn, List.take_succ_cons] at hm ⊢
      refine isChar_of_utf8Validate ?_ hm
      rw [hn, List.length_cons, List.length_take, List.length_append, List.length_drop]
      simp only [List.length_cons, List.length_nil]
      omega
    · intro h
      rw [utf8Validate_length_iff.mpr h.wellFormed]
      rfl

/-- **A character that has begun is recognised**, except from its lead byte alone when that is 0xE0
or 0xF0: padded with 0x80 these two spell an overlong form. -/
theorem utf8MaybeValid_of_cut {r : List Byte} (h : Cut r) (he : r ≠ [0xe0]) (hf : r ≠ [0xf0]) :
    utf8MaybeValid r = true := by
  obtain ⟨a, t, rfl⟩ := List.exists_cons_of_ne_nil h.1
  obtain ⟨-, p, hp, hc⟩ := h
  have hlen : ((a :: t) ++ p).length = seqLength a := hc.length_eq
  have hbounds := hc.length_bounds
  obtain ⟨b, p, rfl⟩ := List.exists_cons_of_ne_nil hp
  have ha : t = [] → a.toNat ≠ 0xe0 ∧ a.toNat ≠ 0xf0 := by
    rintro rfl
    constructor
    · intro h
      have hb : a = 0xe0 := UInt8.toNat_inj.mp h
      exact he (by rw [hb])
    · intro h
      have hb : a = 0xf0 := UInt8.toNat_inj.mp h
      exact hf (by rw [hb])
  rw [utf8MaybeValid_iff, ← hlen]
  have h80 : IsTail 0x80 := by simp [IsTail]
  have hmax := hbounds.2
  simp only [List.length_append, List.length_cons] at hmax
  rcases t with _ | ⟨t0, _ | ⟨t1, _ | ⟨t2, t⟩⟩⟩
  · have hlead := ha rfl
    rcases p with _ | ⟨p0, _ | ⟨p1, _ | ⟨p2, p⟩⟩⟩
    · simpa [isChar_two, h80] using (isChar_two.mp hc).1
    · have := isChar_three.mp hc
      simp [isChar_three, h80]
      omega
    · have := isChar_four.mp hc
      simp [isChar_four, h80]
      omega
    · simp only [List.length_cons] at hmax
      omega
  · rcases p with _ | ⟨p0, _ | ⟨p1, p⟩⟩
    · have := isChar_three.mp hc
      simp [isChar_three, h80]
      tauto
    · have := isChar_four.mp hc
      simp [isChar_four, h80]
      tauto
    · simp only [List.length_cons] at hmax
      omega
  · rcases p with _ | ⟨p0, p⟩
    · have := isChar_four.mp hc
      simp [isChar_four, h80]
      tauto
    · simp only [List.length_cons] at hmax
      omega
  · simp only [List.length_cons] at hmax
    omega

end CurlWs
