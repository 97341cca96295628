import Mathlib

/-!
# Work that runs out

A system that takes one action after another, with an amount of work that no action adds to and that
each action takes its weight from.  Once the work has run out, the next action of some weight
reaches the goal.

This is progress without fairness: nothing is assumed about which actions come, only that those that
come together weigh enough.  Actions of weight zero may come in between, in any number, as long as
they keep the system ready.  `Ready` is the invariant that carries all four facts about a step, and
`Allowed` is what is asked of the actions.

* **`Countdown.work_run`** — what is left of the work after a run.
* **`Countdown.goal_run`** — the goal is reached, and kept.
-/

/-- What the actions of a system do to an amount of work, from the states that are ready for it and
with the actions that are allowed. -/
structure Countdown {σ α : Type*} (step : σ → α → σ) (Ready Goal : σ → Prop) (Allowed : α → Prop)
    (work : σ → ℕ) (weight : α → ℕ) : Prop where
  keeps : ∀ {s a}, Ready s → Allowed a → Ready (step s a)
  takes : ∀ {s a}, Ready s → Allowed a → work (step s a) ≤ work s - weight a
  reaches : ∀ {s a}, Ready s → Allowed a → work s = 0 → 0 < weight a → Goal (step s a)
  stays : ∀ {s a}, Ready s → Allowed a → Goal s → Goal (step s a)

namespace Countdown

variable {σ α : Type*} {step : σ → α → σ} {Ready Goal : σ → Prop} {Allowed : α → Prop}
  {work : σ → ℕ} {weight : α → ℕ} (h : Countdown step Ready Goal Allowed work weight)

include h

lemma ready_run (as : List α) : ∀ {s : σ}, Ready s → (∀ a ∈ as, Allowed a) →
    Ready (as.foldl step s) := by
  induction as with
  | nil =>
      intro s hs _
      exact hs
  | cons a as ih =>
      intro s hs hall
      exact ih (h.keeps hs (hall a List.mem_cons_self))
        fun b hb => hall b (List.mem_cons_of_mem a hb)

lemma stays_run (as : List α) : ∀ {s : σ}, Ready s → (∀ a ∈ as, Allowed a) → Goal s →
    Goal (as.foldl step s) := by
  induction as with
  | nil =>
      intro s _ _ hg
      exact hg
  | cons a as ih =>
      intro s hs hall hg
      have ha := hall a List.mem_cons_self
      exact ih (h.keeps hs ha) (fun b hb => hall b (List.mem_cons_of_mem a hb)) (h.stays hs ha hg)

/-- **What is left of the work.** -/
theorem work_run (as : List α) : ∀ {s : σ}, Ready s → (∀ a ∈ as, Allowed a) →
    work (as.foldl step s) ≤ work s - (as.map weight).sum := by
  induction as with
  | nil =>
      intro s _ _
      exact le_rfl
  | cons a as ih =>
      intro s hs hall
      have ha := hall a List.mem_cons_self
      have hstep := h.takes hs ha
      have hrest := ih (h.keeps hs ha) fun b hb => hall b (List.mem_cons_of_mem a hb)
      rw [List.foldl_cons, List.map_cons, List.sum_cons]
      omega

/-- **The goal is reached** once the work has run out, and kept. -/
theorem goal_run {s : σ} (hs : Ready s) {as : List α} {a : α} {bs : List α}
    (hall : ∀ b ∈ as ++ a :: bs, Allowed b) (hwork : work s ≤ (as.map weight).sum)
    (ha : 0 < weight a) : Goal ((as ++ a :: bs).foldl step s) := by
  have hbefore : ∀ b ∈ as, Allowed b := fun b hb => hall b (List.mem_append_left _ hb)
  have hafter : ∀ b ∈ a :: bs, Allowed b := fun b hb => hall b (List.mem_append_right _ hb)
  have hready := h.ready_run as hs hbefore
  have hzero : work (as.foldl step s) = 0 := by
    have hrun := h.work_run as hs hbefore
    omega
  have hallowed := hafter a List.mem_cons_self
  rw [List.foldl_append, List.foldl_cons]
  exact h.stays_run bs (h.keeps hready hallowed)
    (fun b hb => hafter b (List.mem_cons_of_mem a hb)) (h.reaches hready hallowed hzero ha)

end Countdown
