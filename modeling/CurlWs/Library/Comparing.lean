import Mathlib

/-!
# Comparing strings that know their end

A string in memory is followed by a mark that is below everything in a string.  A comparison of two
of them, element by element and of at most `n` elements, stops at the first difference or after the
last of the `n`.

The place where it stops is described, not computed (`Stops`), so that the results hold for every
loop that finds it.  Two questions are answered from it.  What the elements at this place say about
the strings: their order, or that they agree on `n` elements.  And whether the comparison has stayed
within the two strings and their marks, which it has unless the strings are equal and the limit
leads on.

* **`Stops.lt`**, **`Stops.take_eq`** — the elements it stops at order the strings, cut after `n`
  elements.
* **`Stops.inside_iff`** — it stays within the strings and their marks, unless the strings are equal
  and `n` leads past them.
-/

namespace Comparing

variable {α : Type*}

/-- A comparison of at most `n` elements stops at the `j`th. -/
structure Stops (f g : ℕ → α) (n j : ℕ) : Prop where
  below : j < n
  agree : ∀ i < j, f i = g i
  last : f j = g j → j + 1 = n

/-- Either string may be called the first. -/
lemma Stops.symm {f g : ℕ → α} {n j : ℕ} (h : Stops f g n j) : Stops g f n j := by
  refine ⟨h.below, ?_, ?_⟩
  · intro i hi
    exact (h.agree i hi).symm
  · intro heq
    exact h.last heq.symm

variable [LinearOrder α]

/-- The memory holds the string, and then the mark. -/
structure Terminated (z : α) (f : ℕ → α) (a : List α) : Prop where
  inside : ∀ i (h : i < a.length), f i = a[i]
  mark : f a.length = z
  above : ∀ x ∈ a, z < x

variable {z : α} {f g : ℕ → α} {a b : List α} {n j : ℕ}

/-! ## Strings

The mark tells where a string ends: strings that agree up to the mark of one of them are equal. -/

/-- What is in the string is above the mark. -/
lemma Terminated.above_mark (ha : Terminated z f a) {i : ℕ} (hi : i < a.length) : z < f i := by
  rw [ha.inside i hi]
  exact ha.above _ (List.getElem_mem hi)

/-- Nothing up to the mark is below it. -/
lemma Terminated.mark_le (ha : Terminated z f a) {i : ℕ} (hi : i ≤ a.length) : z ≤ f i := by
  rcases lt_or_eq_of_le hi with hlt | heq
  · exact (ha.above_mark hlt).le
  · rw [heq, ha.mark]

/-- Strings that agree as far as one of them goes. -/
lemma getElem_eq_of_agree (ha : Terminated z f a) (hb : Terminated z g b) {i : ℕ}
    (h : f i = g i) (hia : i < a.length) (hib : i < b.length) : a[i] = b[i] := by
  rw [← ha.inside i hia, ← hb.inside i hib, h]

/-- **Strings that agree up to the mark of the first are equal.** -/
theorem eq_of_agree (ha : Terminated z f a) (hb : Terminated z g b)
    (h : ∀ i ≤ a.length, f i = g i) : a = b := by
  have hlen : a.length = b.length := by
    rcases lt_trichotomy a.length b.length with hlt | heq | hgt
    · have hmark := hb.above_mark hlt
      rw [← h _ le_rfl, ha.mark] at hmark
      exact absurd hmark (lt_irrefl z)
    · exact heq
    · have hmark := ha.above_mark hgt
      rw [h _ hgt.le, hb.mark] at hmark
      exact absurd hmark (lt_irrefl z)
  refine List.ext_getElem hlen ?_
  intro i hia hib
  exact getElem_eq_of_agree ha hb (h i hia.le) hia hib

/-- Strings that agree on fewer elements than either has are equal when cut there. -/
lemma take_eq_of_agree (ha : Terminated z f a) (hb : Terminated z g b) (hja : j ≤ a.length)
    (hjb : j ≤ b.length) (h : ∀ i < j, f i = g i) : a.take j = b.take j := by
  refine List.ext_getElem ?_ ?_
  · rw [List.length_take, List.length_take, min_eq_left hja, min_eq_left hjb]
  · intro i hia hib
    rw [List.length_take] at hia hib
    rw [List.getElem_take, List.getElem_take]
    exact getElem_eq_of_agree ha hb (h i (by omega)) (by omega) (by omega)

/-! ## Where a comparison stops

A difference is found at the shorter string's mark at the latest, since the longer one has something
above the mark there. -/

/-- Strings that are equal and end before the limit are read past their marks. -/
lemma Stops.outside (h : Stops f g n j) (ha : Terminated z f a) (hb : Terminated z g a)
    (hlong : a.length + 1 < n) : a.length < j := by
  by_contra hle
  rw [not_lt] at hle
  have heq : f j = g j := by
    rcases lt_or_eq_of_le hle with hlt | hend
    · rw [ha.inside j hlt, hb.inside j hlt]
    · rw [hend, ha.mark, hb.mark]
  have := h.last heq
  omega

/-- Otherwise it stops at the mark of the first string, or before it. -/
lemma Stops.inside (h : Stops f g n j) (ha : Terminated z f a) (hb : Terminated z g b)
    (hshort : a = b → n ≤ a.length + 1) : j ≤ a.length := by
  by_contra hlt
  rw [not_le] at hlt
  have heq := eq_of_agree ha hb fun i hi => h.agree i (by omega)
  have := hshort heq
  have := h.below
  omega

/-- **The comparison stays within both strings and their marks, unless they are equal and the limit
leads past them.** -/
theorem Stops.inside_iff (h : Stops f g n j) (ha : Terminated z f a) (hb : Terminated z g b) :
    (j ≤ a.length ∧ j ≤ b.length) ↔ (a = b → n ≤ a.length + 1) := by
  constructor
  · rintro ⟨hja, -⟩ heq
    subst heq
    by_contra hlong
    have := h.outside ha hb (not_le.mp hlong)
    omega
  · intro hshort
    refine ⟨h.inside ha hb hshort, h.symm.inside hb ha ?_⟩
    intro heq
    rw [heq]
    exact hshort heq.symm

/-! ## The order of the strings

The order is the lexicographic one of lists, of the strings cut after `n` elements. -/

/-- **The string with the smaller element is the smaller one.** -/
theorem Stops.lt (h : Stops f g n j) (ha : Terminated z f a) (hb : Terminated z g b)
    (hja : j ≤ a.length) (hjb : j ≤ b.length) (hlt : f j < g j) : a.take n < b.take n := by
  have hnj := h.below
  have hjb' : j < b.length := by
    refine lt_of_le_of_ne hjb ?_
    intro hend
    rw [hend, hb.mark, ← hend] at hlt
    exact absurd (ha.mark_le hja) (not_le.mpr hlt)
  rw [List.lt_iff_exists]
  rcases lt_or_eq_of_le hja with hin | hend
  · -- both have an element there
    refine .inr ⟨j, by rw [List.length_take]; omega, by rw [List.length_take]; omega, ?_, ?_⟩
    · intro i hi
      rw [List.getElem_take, List.getElem_take]
      exact getElem_eq_of_agree ha hb (h.agree i hi) (by omega) (by omega)
    · rw [List.getElem_take, List.getElem_take, ← ha.inside j hin, ← hb.inside j hjb']
      exact hlt
  · -- the first string is at its end, and a prefix of the second
    refine .inl ⟨?_, ?_⟩
    · have hwhole : a.take n = a.take j := by
        rw [List.take_of_length_le (by omega), hend, List.take_length]
      have hlen : (a.take j).length = j := by
        rw [List.length_take, min_eq_left hja]
      rw [hwhole, hlen, List.take_take, min_eq_left hnj.le]
      exact take_eq_of_agree ha hb hja hjb h.agree
    · rw [List.length_take, List.length_take]
      omega

/-- **No difference among the `n` elements.** -/
theorem Stops.take_eq (h : Stops f g n j) (ha : Terminated z f a) (hb : Terminated z g b)
    (hja : j ≤ a.length) (hjb : j ≤ b.length) (heq : f j = g j) : a.take n = b.take n := by
  have hn := h.last heq
  have hagree : ∀ i < n, f i = g i := by
    intro i hi
    rcases lt_or_eq_of_le (Nat.le_of_lt_succ (hn ▸ hi)) with hlt | hend
    · exact h.agree i hlt
    · rw [hend, heq]
  by_cases hend : j = a.length
  · rw [eq_of_agree ha hb fun i hi => hagree i (by omega)]
  · have hend' : j ≠ b.length := by
      intro hb'
      have := eq_of_agree hb ha fun i hi => (hagree i (by omega)).symm
      rw [this] at hb'
      exact hend hb'
    exact take_eq_of_agree ha hb (by omega) (by omega) hagree

end Comparing
