import Mathlib

/-!
# Loops that drain a buffer

A loop of the shape `while (len > 0) { step; if (no progress or stop) break; }`.  Each round is
given what is left of a list and leaves some of it, and the loop is left in three ways: at the end
of the list, when a round has asked to stop, and when a round has taken nothing.

The loop is given twice, as a relation between the states at its head, which has no bound, and as a
program with a bound on its rounds.  That a run of the loop is finite is well-foundedness of the
relation, and that the bound is large enough is that the program ends where the relation ends.

* **`Loop.terminates`** — if no round adds to the list, the loop ends.
* **`Loop.ends_run`** — as many rounds as the list is long are enough.
* **`Loop.consumed_or_stopped`** — if an invariant makes every round take something or ask to stop,
  the loop is not left with part of the list for want of progress.
-/

namespace Draining

/-- A round, and whether the state after it asks to stop. -/
structure Loop (σ α : Type*) where
  round : σ → List α → σ × List α
  stop : σ → Bool

/-- The ways out of a loop. -/
inductive Exit where
  | consumed
  | stopped
  | stuck
  deriving DecidableEq, Repr

namespace Loop

variable {σ α : Type*} (L : Loop σ α)

/-! ## The relation and the program

`Again` is one round after which the loop goes on, `Heads` any number of them, and `Ends` the last
round with the way out. -/

/-- One round, after which there is another. -/
structure Again (a b : σ × List α) : Prop where
  more : a.2 ≠ []
  round : L.round a.1 a.2 = b
  progress : b.2.length ≠ a.2.length
  live : L.stop b.1 = false

/-- The states at the head of the loop, when it is entered in the state `a`. -/
def Heads (a b : σ × List α) : Prop := Relation.ReflTransGen L.Again a b

/-- From the head of the loop to its end. -/
inductive Ends (a : σ × List α) : Exit → σ × List α → Prop
  | consumed (h : a.2 = []) : Ends a .consumed a
  | stopped (h : a.2 ≠ []) (hs : L.stop (L.round a.1 a.2).1 = true) :
      Ends a .stopped (L.round a.1 a.2)
  | stuck (h : a.2 ≠ []) (hs : L.stop (L.round a.1 a.2).1 = false)
      (hl : (L.round a.1 a.2).2.length = a.2.length) : Ends a .stuck (L.round a.1 a.2)

/-- The loop, with a bound on its rounds. -/
def run : ℕ → σ × List α → Exit × (σ × List α)
  | 0, a => (.consumed, a)
  | fuel + 1, a =>
      if a.2.isEmpty then (.consumed, a)
      else
        let b := L.round a.1 a.2
        if L.stop b.1 then (.stopped, b)
        else if b.2.length = a.2.length then (.stuck, b)
        else run fuel b

/-! ## Termination

A round after which the loop goes on has taken something, so that the list has become shorter. -/

variable {L}

/-- No round adds to the list. -/
def Shrinks (L : Loop σ α) : Prop := ∀ s l, (L.round s l).2.length ≤ l.length

lemma Again.lt (h : L.Shrinks) {a b : σ × List α} (hab : L.Again a b) :
    b.2.length < a.2.length := by
  refine lt_of_le_of_ne ?_ hab.progress
  rw [← hab.round]
  exact h a.1 a.2

/-- **The loop terminates**: there is no infinite sequence of rounds. -/
theorem terminates (h : L.Shrinks) : WellFounded fun b a => L.Again a b :=
  Subrelation.wf (fun hab => hab.lt h) (measure fun a : σ × List α => a.2.length).wf

/-- **The program follows the relation**, if it is given as many rounds as the list is long. -/
theorem ends_run (h : L.Shrinks) (fuel : ℕ) : ∀ a : σ × List α, a.2.length ≤ fuel →
    ∃ b, L.Heads a b ∧ L.Ends b (L.run fuel a).1 (L.run fuel a).2 := by
  induction fuel with
  | zero =>
      intro a hlen
      exact ⟨a, .refl, .consumed (List.length_eq_zero_iff.mp (Nat.le_zero.mp hlen))⟩
  | succ fuel ih =>
      intro a hlen
      simp only [run, List.isEmpty_iff]
      split_ifs with hnil hstop hsame
      · exact ⟨a, .refl, .consumed hnil⟩
      · exact ⟨a, .refl, .stopped hnil hstop⟩
      · exact ⟨a, .refl, .stuck hnil (Bool.eq_false_of_not_eq_true hstop) hsame⟩
      · have hagain : L.Again a (L.round a.1 a.2) :=
          ⟨hnil, rfl, hsame, Bool.eq_false_of_not_eq_true hstop⟩
        have hlt := hagain.lt h
        obtain ⟨b, hheads, hends⟩ := ih (L.round a.1 a.2) (by omega)
        exact ⟨b, .head hagain hheads, hends⟩

/-! ## Invariants

What is known at the head of the loop, in every round. -/

/-- What holds when the loop is entered and survives a round holds at every head. -/
theorem Heads.invariant {I : σ × List α → Prop} (step : ∀ a b, I a → L.Again a b → I b)
    {a b : σ × List α} (hab : L.Heads a b) (init : I a) : I b := by
  induction hab with
  | refl => exact init
  | tail _ hbc ih => exact step _ _ ih hbc

/-- A round that takes something, or asks to stop. -/
def Productive (L : Loop σ α) (a : σ × List α) : Prop :=
  a.2 ≠ [] → (L.round a.1 a.2).2.length < a.2.length ∨ L.stop (L.round a.1 a.2).1 = true

/-- **A loop of productive rounds** ends at the end of the list or because it was asked to. -/
theorem consumed_or_stopped {a b : σ × List α} {e : Exit} (h : L.Productive a)
    (hends : L.Ends a e b) : e = .consumed ∧ b.2 = [] ∨ e = .stopped ∧ L.stop b.1 = true := by
  cases hends with
  | consumed hnil => exact .inl ⟨rfl, hnil⟩
  | stopped _ hs => exact .inr ⟨rfl, hs⟩
  | stuck hmore hs hl =>
      rcases h hmore with hlt | hstop
      · exact absurd hl hlt.ne
      · exact absurd (hstop.symm.trans hs) (by simp)

end Loop

end Draining
