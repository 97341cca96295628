import Mathlib

/-!
# Well-formed UTF-8

Which byte strings are the UTF-8 encoding of a sequence of Unicode scalar values, said with Lean's
own `Char` (a scalar value by construction) and `String.utf8EncodeChar` (the shortest encoding by
construction).  No table of byte ranges is taken on trust: the ranges that decoders use are derived
here.

**Characters.**  The first byte of a character determines its length, so the encodings form a prefix
code: of two characters at the front of one string neither is longer.  Everything about strings
rests on this.

**Strings.**  A string that is well-formed splits at the end of its first character in one way, and
can be gone through character by character on the bytes alone (`WellFormed.induction`).

**Beginnings.**  A stream is seen in parts, and a part may end inside a character.  Such a part is
well-formed up to its last character, which is cut (`Cut`); and that a string can be completed means
the same.

* `isChar_one` … `isChar_four` — the byte ranges of an encoded character, by its length.
* `IsChar.length_eq` — the lead byte determines the length, so the encodings form a prefix code.
* **`WellFormed.append_iff`** — a well-formed beginning can be cancelled.
* **`WellFormed.split`** — any beginning of a well-formed string is well-formed up to a character it
  cuts.
* **`viable_iff`** — which strings can be completed to a well-formed one.
-/

namespace Utf8

/-- A property of bytes holds of all of them when it holds of the 256 byte values. -/
lemma forall_byte {P : UInt8 → Prop} (h : ∀ n : Fin 256, P (UInt8.ofNat n)) (b : UInt8) : P b := by
  have hb := h ⟨b.toNat, b.toNat_lt⟩
  simpa using hb

/-! ## One character

The ranges are read off the encoding of the scalar values, with the overlong forms and the
surrogates left out by the second byte. -/

/-- The bytes of one encoded character. -/
def IsChar (bs : List UInt8) : Prop := ∃ c : Char, bs = String.utf8EncodeChar c

/-- A byte that continues a character. -/
def IsTail (b : UInt8) : Prop := 0x80 ≤ b.toNat ∧ b.toNat ≤ 0xbf

/-- The length of the character a lead byte begins, zero for a byte that begins none. -/
def seqLength (a : UInt8) : ℕ :=
  if a.toNat < 0x80 then 1
  else if a.toNat < 0xc2 then 0
  else if a.toNat < 0xe0 then 2
  else if a.toNat < 0xf0 then 3
  else if a.toNat < 0xf5 then 4
  else 0

lemma char_toNat (c : Char) :
    c.val.toNat < 0xd800 ∨ 0xdfff < c.val.toNat ∧ c.val.toNat < 0x110000 :=
  c.valid

lemma ofNat_val {n : ℕ} (h : n < 0xd800 ∨ 0xdfff < n ∧ n < 0x110000) :
    (Char.ofNat n).val.toNat = n := by
  have hv : n.isValidChar := h
  have := Char.toNat_ofNat n
  rwa [if_pos hv] at this

/-- Four bytes at most, and at least one. -/
lemma IsChar.length_bounds {bs : List UInt8} (h : IsChar bs) : 1 ≤ bs.length ∧ bs.length ≤ 4 := by
  obtain ⟨c, rfl⟩ := h
  rw [String.length_utf8EncodeChar]
  exact ⟨c.utf8Size_pos, c.utf8Size_le_four⟩

lemma IsChar.ne_nil {bs : List UInt8} (h : IsChar bs) : bs ≠ [] := by
  rintro rfl
  simpa using h.length_bounds.1

/-- One byte: ASCII. -/
theorem isChar_one {a : UInt8} : IsChar [a] ↔ a.toNat < 0x80 := by
  constructor
  · rintro ⟨c, h⟩
    simp only [String.utf8EncodeChar] at h
    split_ifs at h <;> simp only [List.cons.injEq, and_true, reduceCtorEq, and_false] at h
    rw [h, UInt8.toNat_ofNat']
    omega
  · intro h
    refine ⟨Char.ofNat a.toNat, ?_⟩
    rw [String.utf8EncodeChar]
    rw [ofNat_val (by omega), if_pos (by omega), UInt8.ofNat_toNat]

/-- Two bytes.  `C0` and `C1` would be overlong. -/
theorem isChar_two {a b : UInt8} :
    IsChar [a, b] ↔ (0xc2 ≤ a.toNat ∧ a.toNat ≤ 0xdf) ∧ IsTail b := by
  constructor
  · rintro ⟨c, h⟩
    simp only [String.utf8EncodeChar] at h
    split_ifs at h <;> simp only [List.cons.injEq, and_true, reduceCtorEq, and_false] at h
    obtain ⟨rfl, rfl⟩ := h
    simp only [IsTail, UInt8.toNat_ofNat']
    omega
  · rintro ⟨ha, hb⟩
    simp only [IsTail] at hb
    refine ⟨Char.ofNat (a.toNat % 32 * 64 + b.toNat % 64), ?_⟩
    rw [String.utf8EncodeChar]
    rw [ofNat_val (by omega), if_neg (by omega), if_pos (by omega)]
    simp only [List.cons.injEq, and_true]
    exact ⟨UInt8.toNat_inj.mp (by rw [UInt8.toNat_ofNat']; omega),
      UInt8.toNat_inj.mp (by rw [UInt8.toNat_ofNat']; omega)⟩

/-- Three bytes, without overlong forms (`E0`) and surrogates (`ED`). -/
theorem isChar_three {a b c : UInt8} :
    IsChar [a, b, c] ↔ (0xe0 ≤ a.toNat ∧ a.toNat ≤ 0xef) ∧ IsTail b ∧ IsTail c
      ∧ (a.toNat = 0xe0 → 0xa0 ≤ b.toNat) ∧ (a.toNat = 0xed → b.toNat ≤ 0x9f) := by
  constructor
  · rintro ⟨ch, h⟩
    have hv := char_toNat ch
    simp only [String.utf8EncodeChar] at h
    split_ifs at h <;> simp only [List.cons.injEq, and_true, reduceCtorEq, and_false] at h
    obtain ⟨rfl, rfl, rfl⟩ := h
    simp only [IsTail, UInt8.toNat_ofNat']
    omega
  · rintro ⟨ha, hb, hc, h0, hd⟩
    simp only [IsTail] at hb hc
    refine ⟨Char.ofNat (a.toNat % 16 * 4096 + b.toNat % 64 * 64 + c.toNat % 64), ?_⟩
    rw [String.utf8EncodeChar]
    rw [ofNat_val (by omega), if_neg (by omega), if_neg (by omega), if_pos (by omega)]
    simp only [List.cons.injEq, and_true]
    exact ⟨UInt8.toNat_inj.mp (by rw [UInt8.toNat_ofNat']; omega),
      UInt8.toNat_inj.mp (by rw [UInt8.toNat_ofNat']; omega),
      UInt8.toNat_inj.mp (by rw [UInt8.toNat_ofNat']; omega)⟩

/-- Four bytes, without overlong forms (`F0`) and values that are too large (`F4`). -/
theorem isChar_four {a b c d : UInt8} :
    IsChar [a, b, c, d] ↔ (0xf0 ≤ a.toNat ∧ a.toNat ≤ 0xf4) ∧ IsTail b ∧ IsTail c ∧ IsTail d
      ∧ (a.toNat = 0xf0 → 0x90 ≤ b.toNat) ∧ (a.toNat = 0xf4 → b.toNat ≤ 0x8f) := by
  constructor
  · rintro ⟨ch, h⟩
    have hv := char_toNat ch
    simp only [String.utf8EncodeChar] at h
    split_ifs at h <;> simp only [List.cons.injEq, and_true, reduceCtorEq, and_false] at h
    obtain ⟨rfl, rfl, rfl, rfl⟩ := h
    simp only [IsTail, UInt8.toNat_ofNat']
    omega
  · rintro ⟨ha, hb, hc, hd, h0, h4⟩
    simp only [IsTail] at hb hc hd
    refine ⟨Char.ofNat (a.toNat % 8 * 262144 + b.toNat % 64 * 4096 + c.toNat % 64 * 64
      + d.toNat % 64), ?_⟩
    rw [String.utf8EncodeChar]
    rw [ofNat_val (by omega), if_neg (by omega), if_neg (by omega), if_neg (by omega)]
    simp only [List.cons.injEq, and_true]
    exact ⟨UInt8.toNat_inj.mp (by rw [UInt8.toNat_ofNat']; omega),
      UInt8.toNat_inj.mp (by rw [UInt8.toNat_ofNat']; omega),
      UInt8.toNat_inj.mp (by rw [UInt8.toNat_ofNat']; omega),
      UInt8.toNat_inj.mp (by rw [UInt8.toNat_ofNat']; omega)⟩

/-- **The lead byte determines the length.** -/
theorem IsChar.length_eq {a : UInt8} {t : List UInt8} (h : IsChar (a :: t)) :
    (a :: t).length = seqLength a := by
  obtain ⟨_, h4⟩ := h.length_bounds
  rcases t with _ | ⟨b, _ | ⟨c, _ | ⟨d, _ | ⟨e, t⟩⟩⟩⟩
  · rw [List.length_singleton, seqLength, if_pos (isChar_one.mp h)]
  · have := isChar_two.mp h
    simp only [List.length_cons, List.length_nil, seqLength]
    split_ifs <;> omega
  · have := isChar_three.mp h
    simp only [List.length_cons, List.length_nil, seqLength]
    split_ifs <;> omega
  · have := isChar_four.mp h
    simp only [List.length_cons, List.length_nil, seqLength]
    split_ifs <;> omega
  · simp only [List.length_cons] at h4
    omega

/-- Two characters at the front of one string are the same character. -/
lemma IsChar.append_inj {c d x y : List UInt8} (hc : IsChar c) (hd : IsChar d)
    (h : c ++ x = d ++ y) : c = d ∧ x = y := by
  obtain ⟨a, c', rfl⟩ := List.exists_cons_of_ne_nil hc.ne_nil
  obtain ⟨b, d', rfl⟩ := List.exists_cons_of_ne_nil hd.ne_nil
  have hab : a = b := by simpa using congrArg List.head? h
  subst hab
  exact List.append_inj h (hc.length_eq.trans hd.length_eq.symm)

/-! ## Strings

A sequence of characters, one after another. -/

/-- The encoding of a sequence of characters. -/
def WellFormed (bs : List UInt8) : Prop := ∃ cs : List Char, bs = cs.flatMap String.utf8EncodeChar

@[simp] lemma WellFormed.nil : WellFormed [] := ⟨[], rfl⟩

lemma IsChar.wellFormed {c : List UInt8} (h : IsChar c) : WellFormed c := by
  obtain ⟨ch, rfl⟩ := h
  exact ⟨[ch], by simp⟩

lemma WellFormed.append {x y : List UInt8} (hx : WellFormed x) (hy : WellFormed y) :
    WellFormed (x ++ y) := by
  obtain ⟨cs, rfl⟩ := hx
  obtain ⟨ds, rfl⟩ := hy
  exact ⟨cs ++ ds, by simp⟩

/-- A string that is not empty begins with a character. -/
lemma WellFormed.exists_char {bs : List UInt8} (h : WellFormed bs) (hne : bs ≠ []) :
    ∃ c x, IsChar c ∧ WellFormed x ∧ bs = c ++ x := by
  obtain ⟨cs, rfl⟩ := h
  cases cs with
  | nil => exact absurd rfl hne
  | cons c cs => exact ⟨_, _, ⟨c, rfl⟩, ⟨cs, rfl⟩, by simp⟩

/-- Induction over the characters of a string, on the bytes alone. -/
theorem WellFormed.induction {motive : ∀ bs, WellFormed bs → Prop} (nil : motive [] .nil)
    (char : ∀ c x (hc : IsChar c) (hx : WellFormed x), motive x hx →
      motive (c ++ x) (hc.wellFormed.append hx)) {bs : List UInt8} (h : WellFormed bs) :
    motive bs h := by
  obtain ⟨cs, rfl⟩ := h
  induction cs with
  | nil => exact nil
  | cons c cs ih => exact char _ _ ⟨c, rfl⟩ ⟨cs, rfl⟩ ih

/-- The first character can be cancelled. -/
lemma IsChar.append_wellFormed_iff {c x : List UInt8} (hc : IsChar c) :
    WellFormed (c ++ x) ↔ WellFormed x := by
  constructor
  · intro h
    obtain ⟨d, y, hd, hy, he⟩ := h.exists_char (by simp [hc.ne_nil])
    obtain ⟨-, rfl⟩ := hc.append_inj hd he
    exact hy
  · exact fun h => hc.wellFormed.append h

/-- **Cancellation.**  After a well-formed beginning, the whole is well-formed exactly when the rest
is. -/
theorem WellFormed.append_iff {w x : List UInt8} (hw : WellFormed w) :
    WellFormed (w ++ x) ↔ WellFormed x := by
  induction hw using WellFormed.induction with
  | nil => simp
  | char c w hc _ ih => rw [List.append_assoc, hc.append_wellFormed_iff, ih]

/-! ## Beginnings of strings

What a decoder may have seen of a string that is well-formed as a whole. -/

/-- A character that has begun and is not complete: `p` is what is missing. -/
def Cut (r : List UInt8) : Prop := r ≠ [] ∧ ∃ p, p ≠ [] ∧ IsChar (r ++ p)

/-- **Any beginning of a well-formed string** is well-formed up to a character it cuts. -/
theorem WellFormed.split {bs t : List UInt8} (h : WellFormed (bs ++ t)) :
    ∃ w r, bs = w ++ r ∧ WellFormed w ∧ (r = [] ∨ Cut r) := by
  generalize hx : bs ++ t = x at h
  induction h using WellFormed.induction generalizing bs with
  | nil =>
      obtain ⟨rfl, rfl⟩ := List.append_eq_nil_iff.mp hx
      exact ⟨[], [], rfl, .nil, .inl rfl⟩
  | char c x hc _ ih =>
      rcases List.append_eq_append_iff.mp hx with ⟨p, rfl, rfl⟩ | ⟨bs', rfl, rfl⟩
      · -- the beginning ends inside or at the end of the first character
        by_cases hbs : bs = []
        · exact ⟨[], [], hbs, .nil, .inl rfl⟩
        · by_cases hp : p = []
          · subst hp
            rw [List.append_nil] at hc
            exact ⟨bs, [], by simp, hc.wellFormed, .inl rfl⟩
          · exact ⟨[], bs, rfl, .nil, .inr ⟨hbs, p, hp, hc⟩⟩
      · obtain ⟨w, r, rfl, hw, hr⟩ := ih rfl
        exact ⟨c ++ w, r, by simp, hc.wellFormed.append hw, hr⟩

/-- The bytes can be completed to a well-formed string. -/
def Viable (bs : List UInt8) : Prop := ∃ t, WellFormed (bs ++ t)

/-- **The bytes can be completed** exactly when they are well-formed up to a character they cut. -/
theorem viable_iff {bs : List UInt8} :
    Viable bs ↔ ∃ w r, bs = w ++ r ∧ WellFormed w ∧ (r = [] ∨ Cut r) := by
  constructor
  · rintro ⟨t, h⟩
    exact h.split
  · rintro ⟨w, r, rfl, hw, rfl | hcut⟩
    · exact ⟨[], by simpa using hw⟩
    · obtain ⟨-, p, -, hc⟩ := hcut
      refine ⟨p, ?_⟩
      rw [List.append_assoc]
      exact hw.append hc.wellFormed

/-- A cut character is shorter than its lead byte says. -/
lemma Cut.length_lt {a : UInt8} {t : List UInt8} (h : Cut (a :: t)) :
    (a :: t).length < seqLength a := by
  obtain ⟨-, p, hp, hc⟩ := h
  have hlen := IsChar.length_eq (t := t ++ p) hc
  have : 0 < p.length := List.length_pos_of_ne_nil hp
  simp only [List.length_cons, List.length_append] at hlen ⊢
  omega

/-- A string splits at the end of its first character. -/
theorem WellFormed.cons_iff {a : UInt8} {t : List UInt8} :
    WellFormed (a :: t) ↔ seqLength a ≤ (a :: t).length
      ∧ IsChar ((a :: t).take (seqLength a)) ∧ WellFormed ((a :: t).drop (seqLength a)) := by
  constructor
  · intro h
    obtain ⟨c, y, hc, hy, he⟩ := h.exists_char (by simp)
    obtain ⟨b, c', rfl⟩ := List.exists_cons_of_ne_nil hc.ne_nil
    have hab : a = b := by simpa using congrArg List.head? he
    subst hab
    rw [he, List.take_left' hc.length_eq, List.drop_left' hc.length_eq, ← hc.length_eq]
    exact ⟨by simp, hc, hy⟩
  · rintro ⟨-, hc, hy⟩
    rw [← List.take_append_drop (seqLength a) (a :: t)]
    exact hc.wellFormed.append hy

end Utf8
