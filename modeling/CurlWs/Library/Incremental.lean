import Mathlib

/-!
# Decoders that ask for more

The length of a header is often known only from its first bytes.  A decoder of such headers answers,
for the input there is so far, with its result or with the number of elements it needs next, which
is not always the number it will need in all.

Two things can be wanted of such a decoder.  That its answers can be relied on (`Exact`): as long as
less has come than was asked for, it asks for the rest, and a result does not change any more.  And
that reading exactly what it asks for leads to the result of the whole input, without a byte too
many.  The second follows from the first, and the first is proved stage by stage, each of which
waits for a number of elements that is known when it begins.

* `Exact` — every answer of the decoder can be relied on, whatever follows.
* **`Exact.stage`** — a decoder that waits for `n` elements and then goes on as an exact one is
  exact.
* **`read_spec`**, **`Exact.answer_eq`** — reading what is asked for, again and again, leads to the
  answer for the whole input and takes nothing past it.
-/

namespace Incremental

variable {α ρ : Type*}

/-- The answer of a decoder for the input there is so far. -/
inductive Answer (ρ : Type*) where
  | needs (k : ℕ)
  | result (r : ρ)
  deriving DecidableEq, Repr

/-- Every answer can be relied on: a number asked for goes down by what comes in and is never less
than what is still missing, and a result is final. -/
structure Exact (dec : List α → Answer ρ) : Prop where
  pos : ∀ {b k}, dec b = .needs k → 0 < k
  again : ∀ {b k}, dec b = .needs k → ∀ t : List α, t.length < k →
    dec (b ++ t) = .needs (k - t.length)
  final : ∀ {b r}, dec b = .result r → ∀ t : List α, dec (b ++ t) = .result r

lemma exact_result (r : ρ) : Exact fun _ : List α => Answer.result r := by
  refine ⟨?_, ?_, ?_⟩
  · intro b k h
    cases h
  · intro b k h
    cases h
  · intro b r' h t
    exact h

/-- **Stages.**  The decoder waits for `n` elements, and goes on as one that may depend on them. -/
theorem Exact.stage {dec : List α → Answer ρ} {n : ℕ} {g : List α → List α → Answer ρ}
    (hshort : ∀ b, b.length < n → dec b = .needs (n - b.length))
    (hlong : ∀ x b, x.length = n → dec (x ++ b) = g x b)
    (hg : ∀ x, x.length = n → Exact (g x)) : Exact dec := by
  have hsplit (b : List α) (hb : ¬ b.length < n) : (b.take n).length = n ∧
      ∀ t, dec (b ++ t) = g (b.take n) (b.drop n ++ t) := by
    have hlen : (b.take n).length = n := by
      rw [List.length_take]
      omega
    refine ⟨hlen, fun t => ?_⟩
    rw [← hlong _ _ hlen, ← List.append_assoc, List.take_append_drop]
  have hstart {b : List α} {a : Answer ρ} (hb : ¬ b.length < n) (h : dec b = a) :
      g (b.take n) (b.drop n) = a := by
    have := (hsplit b hb).2 []
    rw [List.append_nil, List.append_nil] at this
    rw [← this, h]
  refine ⟨?_, ?_, ?_⟩
  · intro b k h
    by_cases hb : b.length < n
    · have hk := (hshort b hb).symm.trans h
      cases hk
      omega
    · exact (hg _ (hsplit b hb).1).pos (hstart hb h)
  · intro b k h t ht
    by_cases hb : b.length < n
    · have hk := (hshort b hb).symm.trans h
      cases hk
      rw [hshort _ (by rw [List.length_append]; omega), List.length_append, Nat.sub_add_eq]
    · rw [(hsplit b hb).2 t]
      exact (hg _ (hsplit b hb).1).again (hstart hb h) t ht
  · intro b r h t
    by_cases hb : b.length < n
    · exact absurd ((hshort b hb).symm.trans h) (by simp)
    · rw [(hsplit b hb).2 t]
      exact (hg _ (hsplit b hb).1).final (hstart hb h) t

/-! ## Reading

The reader takes from the rest of the input what it was asked for, or all of it if there is not as
much. -/

/-- Read `need` elements, decode all that has been read, and go on with the number the decoder asks
for, until there is a result or nothing is left.  Every round takes something, so the first argument
bounds the rounds. -/
def read (dec : List α → Answer ρ) : ℕ → List α → ℕ → List α → List α
  | 0, taken, _, _ => taken
  | fuel + 1, taken, need, rest =>
      match dec (taken ++ rest.take need) with
      | .result _ => taken ++ rest.take need
      | .needs k => read dec fuel (taken ++ rest.take need) k (rest.drop need)

/-- The decoder has no result for any beginning of the input but the input itself. -/
def Waits (dec : List α → Answer ρ) (b : List α) : Prop :=
  ∀ x, x <+: b → x ≠ b → ∃ k, dec x = .needs k

/-- Less than what was asked for brings no result. -/
lemma Waits.extend {dec : List α → Answer ρ} (hdec : Exact dec) {b t : List α} {k : ℕ}
    (h : Waits dec b) (hb : dec b = .needs k) (ht : t.length ≤ k) : Waits dec (b ++ t) := by
  intro x hx hne
  rcases le_total x.length b.length with hle | hle
  · have hpre : x <+: b := List.prefix_of_prefix_length_le hx (List.prefix_append b t) hle
    by_cases hxb : x = b
    · exact ⟨k, hxb ▸ hb⟩
    · exact h x hpre hxb
  · obtain ⟨y, rfl⟩ : b <+: x := List.prefix_of_prefix_length_le (List.prefix_append b t) hx hle
    have hy : y <+: t := (List.prefix_append_right_inj b).mp hx
    have hlt : y.length < t.length := by
      refine lt_of_le_of_ne hy.length_le fun heq => hne ?_
      rw [hy.eq_of_length heq]
    exact ⟨_, hdec.again hb y (by omega)⟩

/-- **Reading what is asked for** stops at the first beginning of the input that has a result; if
there is none, all of the input is read. -/
theorem read_spec {dec : List α → Answer ρ} (hdec : Exact dec) (fuel : ℕ) :
    ∀ {taken : List α} {need : ℕ} {rest : List α}, rest.length ≤ fuel →
      dec taken = .needs need → Waits dec taken →
        read dec fuel taken need rest <+: taken ++ rest ∧
          (∀ k, dec (read dec fuel taken need rest) = .needs k →
            read dec fuel taken need rest = taken ++ rest) ∧
              Waits dec (read dec fuel taken need rest) := by
  induction fuel with
  | zero =>
      intro taken need rest hlen hneed hwaits
      obtain rfl := List.length_eq_zero_iff.mp (Nat.le_zero.mp hlen)
      rw [List.append_nil]
      exact ⟨List.prefix_rfl, fun _ _ => rfl, hwaits⟩
  | succ fuel ih =>
      intro taken need rest hlen hneed hwaits
      have hwaits' : Waits dec (taken ++ rest.take need) :=
        hwaits.extend hdec hneed (List.length_take_le ..)
      have hwhole : taken ++ rest = (taken ++ rest.take need) ++ rest.drop need := by
        rw [List.append_assoc, List.take_append_drop]
      rw [read]
      cases h : dec (taken ++ rest.take need) with
      | result r =>
          refine ⟨?_, fun k hk => absurd (h.symm.trans hk) (by simp), hwaits'⟩
          rw [hwhole]
          exact List.prefix_append _ _
      | needs k =>
          have hshort : (rest.drop need).length ≤ fuel := by
            have := hdec.pos hneed
            rw [List.length_drop]
            omega
          simp only
          rw [hwhole]
          exact ih hshort h hwaits'

/-- A beginning of the input that asks for more only when it is all of it has the answer of the
whole. -/
lemma Exact.answer_eq {dec : List α → Answer ρ} (hdec : Exact dec) {x b : List α} (hx : x <+: b)
    (hall : ∀ k, dec x = .needs k → x = b) : dec x = dec b := by
  cases h : dec x with
  | needs k => rw [← hall k h, h]
  | result r =>
      obtain ⟨t, rfl⟩ := hx
      exact (hdec.final h t).symm

end Incremental
