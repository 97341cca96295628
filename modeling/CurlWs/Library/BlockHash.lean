import Mathlib

/-!
# Hashes that work block by block

An iterated hash takes a message apart into blocks of `n` symbols and changes a value with one after
another.  A program that gets the message in pieces keeps the symbols of a block that is not
complete; `Absorber` is its state, with the bound on what is kept as a field.

Nothing is said of what the hash does with a block: `compress` is any function, and the symbols may
be bits, bytes or words.  A message in small symbols is the same message in large ones if each of
these is spelled with the same number of the small ones, which is how a hash of bits is computed on
bytes.

* **`foldBlocks_flatMap`** — a message of symbols that stand for `k` smaller ones each.
* **`absorb_append`** — it makes no difference how the message is cut.
* **`absorb_eq`** — the value is that of the blocks that are complete.
-/

namespace BlockHash

variable {σ β γ : Type*}

/-- The first `count` blocks of `n` symbols, one after another. -/
def foldBlocks (n : ℕ) (compress : σ → List β → σ) : ℕ → σ → List β → σ
  | 0, s, _ => s
  | count + 1, s, x => foldBlocks n compress count (compress s (x.take n)) (x.drop n)

section

variable {n : ℕ} {compress : σ → List β → σ}

/-- The blocks after the first ones. -/
lemma foldBlocks_add (a b : ℕ) : ∀ (s : σ) (x : List β),
    foldBlocks n compress (a + b) s x =
      foldBlocks n compress b (foldBlocks n compress a s x) (x.drop (n * a)) := by
  induction a with
  | zero =>
      intro s x
      rw [Nat.zero_add, Nat.mul_zero, List.drop_zero, foldBlocks]
  | succ a ih =>
      intro s x
      rw [Nat.succ_add, foldBlocks, ih, foldBlocks, List.drop_drop, Nat.mul_succ, Nat.add_comm n]

/-- What comes after the blocks does not matter. -/
lemma foldBlocks_append (count : ℕ) : ∀ (s : σ) {x : List β} (y : List β), n * count ≤ x.length →
    foldBlocks n compress count s (x ++ y) = foldBlocks n compress count s x := by
  induction count with
  | zero =>
      intro s x y _
      rfl
  | succ count ih =>
      intro s x y hlen
      rw [Nat.mul_succ] at hlen
      rw [foldBlocks, foldBlocks, List.take_append_of_le_length (by omega),
        List.drop_append_of_le_length (by omega), ih]
      rw [List.length_drop]
      omega

/-- **Symbols that stand for `k` smaller ones each.** -/
theorem foldBlocks_flatMap {k : ℕ} {spell : β → List γ} (hspell : ∀ b, (spell b).length = k)
    (fine : σ → List γ → σ) (count : ℕ) : ∀ (s : σ) (x : List β),
    foldBlocks (n * k) fine count s (x.flatMap spell) =
      foldBlocks n (fun s b => fine s (b.flatMap spell)) count s x := by
  have htake (m : ℕ) : ∀ x : List β,
      (x.flatMap spell).take (m * k) = (x.take m).flatMap spell ∧
        (x.flatMap spell).drop (m * k) = (x.drop m).flatMap spell := by
    induction m with
    | zero => simp
    | succ m ih =>
        intro x
        cases x with
        | nil => simp
        | cons b x =>
            have hlen : (m + 1) * k = (spell b).length + m * k := by rw [hspell]; ring
            rw [List.flatMap_cons, hlen, List.take_length_add_append, List.drop_length_add_append,
              (ih x).1, (ih x).2]
            exact ⟨rfl, rfl⟩
  induction count with
  | zero =>
      intro s x
      rfl
  | succ count ih =>
      intro s x
      rw [foldBlocks, (htake n x).1, (htake n x).2, ih, foldBlocks]

end

/-! ## Symbol by symbol

One symbol either joins those that are kept or completes a block.  The lemmas about pieces come in
two cases accordingly: the piece is too short for the block, or it completes it. -/

/-- The value so far, and the symbols of the block that is not complete. -/
structure Absorber (n : ℕ) (σ β : Type*) where
  value : σ
  kept : List β
  kept_lt : kept.length < n

namespace Absorber

variable {n : ℕ} (compress : σ → List β → σ)

/-- One more symbol. -/
def absorb (a : Absorber n σ β) (b : β) : Absorber n σ β :=
  if h : a.kept.length + 1 < n then ⟨a.value, a.kept ++ [b], by simpa using h⟩
  else ⟨compress a.value (a.kept ++ [b]), [], lt_of_le_of_lt (Nat.zero_le _) a.kept_lt⟩

lemma absorb_short (a : Absorber n σ β) (b : β) (h : a.kept.length + 1 < n) :
    (a.absorb compress b).value = a.value ∧ (a.absorb compress b).kept = a.kept ++ [b] := by
  rw [absorb, dif_pos h]
  exact ⟨rfl, rfl⟩

lemma absorb_block (a : Absorber n σ β) (b : β) (h : ¬ a.kept.length + 1 < n) :
    (a.absorb compress b).value = compress a.value (a.kept ++ [b]) ∧
      (a.absorb compress b).kept = [] := by
  rw [absorb, dif_neg h]
  exact ⟨rfl, rfl⟩

/-- A piece of the message. -/
def absorbAll (a : Absorber n σ β) (x : List β) : Absorber n σ β := x.foldl (absorb compress) a

/-- **The cuts make no difference.** -/
theorem absorb_append (a : Absorber n σ β) (x y : List β) :
    a.absorbAll compress (x ++ y) = (a.absorbAll compress x).absorbAll compress y :=
  List.foldl_append

/-- The block is not complete yet. -/
lemma absorbAll_short (a : Absorber n σ β) (x : List β) (hlen : a.kept.length + x.length < n) :
    (a.absorbAll compress x).value = a.value ∧ (a.absorbAll compress x).kept = a.kept ++ x := by
  induction x using List.reverseRecOn with
  | nil => exact ⟨rfl, (List.append_nil _).symm⟩
  | append_singleton x b ih =>
      rw [List.length_append, List.length_singleton] at hlen
      obtain ⟨hvalue, hkept⟩ := ih (by omega)
      have hlast := absorb_short compress (a.absorbAll compress x) b (by
        rw [hkept, List.length_append]
        omega)
      rw [hvalue, hkept, List.append_assoc] at hlast
      rw [absorb_append]
      exact hlast

/-- The block has become complete. -/
lemma absorbAll_block (a : Absorber n σ β) {x : List β} (hlen : a.kept.length + x.length = n) :
    (a.absorbAll compress x).value = compress a.value (a.kept ++ x) ∧
      (a.absorbAll compress x).kept = [] := by
  have hlt := a.kept_lt
  obtain ⟨x, b, rfl⟩ : ∃ y b, x = y ++ [b] := by
    refine ⟨x.dropLast, x.getLast ?_, (List.dropLast_append_getLast _).symm⟩
    rintro rfl
    exact absurd hlen hlt.ne
  rw [List.length_append, List.length_singleton] at hlen
  obtain ⟨hvalue, hkept⟩ := a.absorbAll_short compress x (by omega)
  have hlast := absorb_block compress (a.absorbAll compress x) b (by
    rw [hkept, List.length_append]
    omega)
  rw [hvalue, hkept, List.append_assoc] at hlast
  rw [absorb_append]
  exact hlast

/-- **The value is that of the complete blocks**, and the rest is kept. -/
theorem absorb_eq (hn : 0 < n) (s : σ) (x : List β) :
    ((⟨s, [], hn⟩ : Absorber n σ β).absorbAll compress x).value =
        foldBlocks n compress (x.length / n) s x ∧
      ((⟨s, [], hn⟩ : Absorber n σ β).absorbAll compress x).kept = x.drop (n * (x.length / n)) := by
  induction x using List.reverseRecOn with
  | nil => simp [absorbAll, foldBlocks]
  | append_singleton x b ih =>
      obtain ⟨hvalue, hkept⟩ := ih
      rw [absorb_append]
      generalize hx : (⟨s, [], hn⟩ : Absorber n σ β).absorbAll compress x = a at hvalue hkept
      have hlen : a.kept.length = x.length - n * (x.length / n) := by
        rw [hkept, List.length_drop]
      have hdiv := Nat.div_add_mod x.length n
      have hlt := Nat.mod_lt x.length hn
      have hle : n * (x.length / n) ≤ x.length := Nat.mul_div_le _ _
      show (absorb compress a b).value = _ ∧ (absorb compress a b).kept = _
      rw [absorb, List.length_append, List.length_singleton]
      split_ifs with hroom
      · -- the block is not complete yet
        have hsame : (x.length + 1) / n = x.length / n :=
          Nat.div_eq_of_lt_le (by rw [mul_comm]; omega) (by rw [mul_comm, Nat.mul_succ]; omega)
        rw [hsame, hvalue, foldBlocks_append _ _ _ hle, List.drop_append_of_le_length hle]
        exact ⟨rfl, congrArg (· ++ [b]) hkept⟩
      · have hwhole : x.length + 1 = n * (x.length / n + 1) := by
          rw [Nat.mul_succ]
          omega
        have hnext : (x.length + 1) / n = x.length / n + 1 := by
          rw [hwhole, Nat.mul_div_cancel_left _ hn]
        have hblock : ((x ++ [b]).drop (n * (x.length / n))).take n = a.kept ++ [b] := by
          rw [List.drop_append_of_le_length hle, ← hkept, List.take_of_length_le]
          rw [List.length_append, List.length_singleton]
          omega
        rw [hnext, foldBlocks_add, foldBlocks_append _ _ _ hle, ← hvalue, foldBlocks, hblock,
          foldBlocks, ← hwhole, List.drop_of_length_le (by simp)]
        exact ⟨rfl, rfl⟩

end Absorber

end BlockHash
