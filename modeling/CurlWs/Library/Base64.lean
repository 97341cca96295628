import Mathlib

/-!
# Base64

The encoding of bytes as letters, three bytes as four of them, with `=` at the end.

The bytes are taken three at a time, as a number of 24 bits, of which each letter stands for six.
One or two bytes that are left over are taken with zeros, and the letters that would stand for zeros
only are replaced by the padding.

* `letter`, `letters` — the alphabet, and the letters of three bytes.
* `encode` — the text of the bytes.
* **`length_encode`** — how long it is.
* **`mem_encode`** — what it is made of; no text has, for instance, a colon.
-/

namespace Base64

/-- The letter of a number below 64. -/
def letter (n : ℕ) : UInt8 :=
  if n < 26 then .ofNat (0x41 + n)
  else if n < 52 then .ofNat (0x61 + (n - 26))
  else if n < 62 then .ofNat (0x30 + (n - 52))
  else if n = 62 then 0x2b
  else 0x2f

/-- The letters of three bytes. -/
def letters (a b c : UInt8) : List UInt8 :=
  let n := a.toNat * 2 ^ 16 + b.toNat * 2 ^ 8 + c.toNat
  [letter (n / 2 ^ 18), letter (n / 2 ^ 12 % 64), letter (n / 2 ^ 6 % 64), letter (n % 64)]

/-- The text of bytes. -/
def encode : List UInt8 → List UInt8
  | [] => []
  | [a] => (letters a 0 0).take 2 ++ [0x3d, 0x3d]
  | [a, b] => (letters a b 0).take 3 ++ [0x3d]
  | a :: b :: c :: rest => letters a b c ++ encode rest

/-- Four letters for three bytes or less. -/
theorem length_encode (x : List UInt8) : (encode x).length = 4 * ((x.length + 2) / 3) := by
  induction x using encode.induct with
  | case1 => rfl
  | case2 a => simp [encode, letters]
  | case3 a b => simp [encode, letters]
  | case4 a b c rest ih =>
      rw [encode, List.length_append, ih]
      simp only [letters, List.length_cons, List.length_nil]
      omega

/-! ## The alphabet

Sixty-four letters and the padding.  That a text is made of them is the form in which the result is
used: whatever is not among them is in no text. -/

/-- The bytes of the alphabet, and the padding. -/
def alphabet : List UInt8 := 0x3d :: (List.range 64).map letter

/-- The letters are those of the numbers below 64. -/
lemma mem_letters {a b c x : UInt8} (h : x ∈ letters a b c) : ∃ n < 64, letter n = x := by
  have ha := a.toNat_lt
  have hb := b.toNat_lt
  have hc := c.toNat_lt
  simp only [letters, List.mem_cons, List.not_mem_nil, or_false] at h
  rcases h with rfl | rfl | rfl | rfl
  · exact ⟨_, by omega, rfl⟩
  · exact ⟨_, Nat.mod_lt _ (by decide), rfl⟩
  · exact ⟨_, Nat.mod_lt _ (by decide), rfl⟩
  · exact ⟨_, Nat.mod_lt _ (by decide), rfl⟩

lemma mem_alphabet {a b c x : UInt8} (h : x ∈ letters a b c) : x ∈ alphabet := by
  obtain ⟨n, hn, rfl⟩ := mem_letters h
  exact List.mem_cons_of_mem _ (List.mem_map_of_mem (List.mem_range.mpr hn))

/-- **A text has nothing but letters and padding.** -/
theorem mem_encode {x : List UInt8} {b : UInt8} (h : b ∈ encode x) : b ∈ alphabet := by
  induction x using encode.induct with
  | case1 => cases h
  | case2 a =>
      rw [encode, List.mem_append] at h
      rcases h with h | h
      · exact mem_alphabet (List.mem_of_mem_take h)
      · obtain rfl : b = 0x3d := by simpa using h
        exact List.mem_cons_self
  | case3 a a' =>
      rw [encode, List.mem_append] at h
      rcases h with h | h
      · exact mem_alphabet (List.mem_of_mem_take h)
      · obtain rfl := List.mem_singleton.mp h
        exact List.mem_cons_self
  | case4 a a' a'' rest ih =>
      rw [encode, List.mem_append] at h
      rcases h with h | h
      · exact mem_alphabet h
      · exact ih h

end Base64
