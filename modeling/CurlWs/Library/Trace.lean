import Mathlib

/-!
# Traces

A trace is the list of the events of a run, oldest first.  Two things are said about traces: that
each event was allowed at the moment it happened, and what the value of a variable is whose changes
are among the events.

Both look at a trace from its end, since this is where a run adds to it: `Always` and `latest` have
one lemma each for one event more, and with these an invariant of a system that logs is carried from
step to step.  Events that do not matter can be left out of either.

* **`always_concat`** — a new event has to be allowed after the trace so far, and no more.
* **`latest_concat`** — a new event reports a new value, or the old one stands.
* **`always_of_filter`** — what is said about some of the events can be proved without the others.
-/

namespace Trace

variable {ε σ : Type*}

/-- An event of a trace in two parts is in one of them. -/
lemma append_eq_split {x y before after : List ε} {e : ε} (h : x ++ y = before ++ e :: after) :
    (∃ rest, x = before ++ e :: rest ∧ after = rest ++ y) ∨
      ∃ rest, before = x ++ rest ∧ y = rest ++ e :: after := by
  rcases List.append_eq_append_iff.mp h with ⟨rest, hbefore, hy⟩ | ⟨rest, hx, hrest⟩
  · exact .inr ⟨rest, hbefore, hy⟩
  · cases rest with
    | nil =>
        rw [List.append_nil] at hx
        exact .inr ⟨[], by rw [hx, List.append_nil], hrest.symm⟩
    | cons e' rest =>
        obtain ⟨rfl, hafter⟩ := List.cons.inj hrest
        exact .inl ⟨rest, hx, hafter⟩

/-! ## What always holds

An event is judged by the events before it. -/

/-- Each event of the trace is allowed after the events before it. -/
def Always (allowed : List ε → ε → Prop) (t : List ε) : Prop :=
  ∀ earlier e later, t = earlier ++ e :: later → allowed earlier e

lemma always_nil (allowed : List ε → ε → Prop) : Always allowed [] := by
  intro earlier e later h
  exact absurd h (by simp)

/-- **A new event has to be allowed**, and the others were. -/
theorem always_concat {allowed : List ε → ε → Prop} {t : List ε} {e : ε} :
    Always allowed (t ++ [e]) ↔ Always allowed t ∧ allowed t e := by
  constructor
  · intro h
    refine ⟨fun earlier e' later ht => ?_, h t e [] rfl⟩
    exact h earlier e' (later ++ [e]) (by rw [ht, List.append_assoc, List.cons_append])
  · rintro ⟨ht, he⟩ earlier e' later heq
    rcases List.eq_nil_or_concat later with rfl | ⟨later', x, rfl⟩
    · obtain ⟨rfl, hlast⟩ := List.append_inj' heq rfl
      rw [← (List.cons.inj hlast).1]
      exact he
    · rw [List.concat_eq_append, ← List.cons_append, ← List.append_assoc] at heq
      exact ht earlier e' later' (List.append_inj' heq rfl).1

/-! ## Variables

`report` says which events set the variable, and to what. -/

/-- The value last reported. -/
def latest (report : ε → Option σ) (init : σ) (t : List ε) : σ :=
  t.foldl (fun s e => (report e).getD s) init

/-- **A new event** reports a value, or the old one stands. -/
@[simp] theorem latest_concat (report : ε → Option σ) (init : σ) (t : List ε) (e : ε) :
    latest report init (t ++ [e]) = (report e).getD (latest report init t) := by
  rw [latest, List.foldl_append]
  rfl

/-- The value stands as long as nothing is reported. -/
lemma latest_append_of_none {report : ε → Option σ} {x : List ε} (h : ∀ e ∈ x, report e = none)
    (init : σ) (t : List ε) : latest report init (t ++ x) = latest report init t := by
  rw [latest, List.foldl_append]
  refine List.foldlRecOn (motive := fun s => s = latest report init t) x _ rfl fun s hs e he => ?_
  rw [h e he, Option.getD_none, hs]

/-- Events that report nothing can be left out. -/
lemma latest_filter {report : ε → Option σ} {p : ε → Bool} (h : ∀ e, p e = false → report e = none)
    (init : σ) (t : List ε) : latest report init (t.filter p) = latest report init t := by
  induction t using List.reverseRecOn with
  | nil => rfl
  | append_singleton t e ih =>
      rw [List.filter_append, latest_concat]
      cases hp : p e with
      | true =>
          rw [List.filter_cons_of_pos hp, List.filter_nil, latest_concat, ih]
      | false =>
          rw [List.filter_cons_of_neg (by simp [hp]), List.filter_nil, List.append_nil, ih, h e hp]
          rfl

/-- If what is left out is always allowed, and leaving it out makes no difference to what is
allowed, it need not be looked at. -/
theorem always_of_filter {allowed : List ε → ε → Prop} {p : ε → Bool} {t : List ε}
    (h : Always allowed (t.filter p)) (hout : ∀ earlier e, p e = false → allowed earlier e)
    (hin : ∀ earlier e, allowed (earlier.filter p) e → allowed earlier e) : Always allowed t := by
  rintro earlier e later rfl
  cases hp : p e with
  | false => exact hout earlier e hp
  | true =>
      refine hin earlier e (h _ e (later.filter p) ?_)
      rw [List.filter_append, List.filter_cons_of_pos hp]

end Trace
