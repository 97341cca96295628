import Mathlib

/-!
# A queue of messages sent byte by byte

Messages wait in a queue and leave it through a channel that takes a byte at a time.  An urgent
message goes in front of all that have not begun.  A message may be the end of the transmission:
what waits behind it is dropped when it is complete.

**State.**  An `Outbox` has the messages that have left, those that wait, those that were dropped,
and how many bytes of the first waiting one have gone.  That these are fewer than the message has is
a field, so that a message leaves the queue with its last byte and not later.

**Time.**  A drain takes any number of bytes and is that many single ones, so that the results about
runs are proved for a new message and for one byte (`run_induction`).

**Order.**  The line is what has left and what waits, in this order.  A new message takes a place in
it, behind everything that has begun if it is urgent and at the end if not, and a byte changes the
line only by what is dropped from its end.  Who comes before whom is therefore decided when a
message joins.

* `Outbox` — the messages sent, the messages waiting and how much of the first has left.
* **`output_drain`** — the channel carries whole messages and a proper part of the next.
* **`run_perm`** — no message is lost or sent twice.
* **`run_ordinary`**, **`urgent_run`** — the order in which messages leave.
* **`ended_run`**, **`dropped_run`** — what happens when the end of the transmission is reached.
-/

/-- How messages are sent. -/
structure Coding (α β : Type*) where
  bytes : α → List β
  bytes_ne : ∀ x, bytes x ≠ []
  urgent : α → Bool
  /-- Nothing that waits behind such a message is sent. -/
  ends : α → Bool

namespace Coding

variable {α β : Type*} (c : Coding α β)

lemma size_pos (x : α) : 0 < (c.bytes x).length := List.length_pos_iff.mpr (c.bytes_ne x)

/-- The bytes of the first message of a queue. -/
def first : List α → List β
  | [] => []
  | x :: _ => c.bytes x

/-- A bound for the bytes of the first message that have left. -/
def room : List α → ℕ
  | [] => 1
  | x :: _ => (c.bytes x).length

lemma room_pos (w : List α) : 0 < c.room w := by
  cases w with
  | nil => exact Nat.one_pos
  | cons x w => exact c.size_pos x

end Coding

/-- A queue of messages.  Of the first, `begun` bytes have left, and not all. -/
@[ext] structure Outbox {α β : Type*} (c : Coding α β) where
  done : List α
  waiting : List α
  begun : ℕ
  dropped : List α
  begun_lt : begun < c.room waiting

namespace Outbox

open scoped List

variable {α β : Type*} {c : Coding α β}

/-- Nothing has happened. -/
def empty (c : Coding α β) : Outbox c := ⟨[], [], 0, [], Nat.one_pos⟩

/-- All messages that have left or are to leave, in their order. -/
def line (o : Outbox c) : List α := o.done ++ o.waiting

/-- What the channel has carried. -/
def output (o : Outbox c) : List β :=
  o.done.flatMap c.bytes ++ (c.first o.waiting).take o.begun

/-- Nothing has begun of an empty queue. -/
lemma begun_of_nil {o : Outbox c} (h : o.waiting = []) : o.begun = 0 := by
  have hlt := o.begun_lt
  rw [h] at hlt
  exact Nat.lt_one_iff.mp hlt

/-! ## The operations

A message joins, or bytes leave.  A single byte has four cases, which `tick_induction` names: the
queue is empty, the message goes on, it was the last message, or the next one follows. -/

/-- How many messages have begun to leave. -/
def started (o : Outbox c) : ℕ := if o.begun = 0 then 0 else 1

/-- Where a message goes in the queue: at the end, or in front of all that have not begun. -/
def spot (o : Outbox c) (x : α) : ℕ := if c.urgent x then o.started else o.waiting.length

/-- The first message is the same one, unless there was none. -/
lemma begun_lt_room (o : Outbox c) (x : α) :
    o.begun < c.room (o.waiting.take (o.spot x) ++ x :: o.waiting.drop (o.spot x)) := by
  have hlt := o.begun_lt
  cases hw : o.waiting with
  | nil =>
      rw [begun_of_nil hw]
      exact c.room_pos _
  | cons y w =>
      rw [hw] at hlt
      simp only [spot, started, hw]
      split_ifs with hu hb
      · rw [hb]
        exact c.room_pos _
      · exact hlt
      · rw [List.take_length]
        exact hlt

/-- A message joins the queue. -/
def push (o : Outbox c) (x : α) : Outbox c :=
  ⟨o.done, o.waiting.take (o.spot x) ++ x :: o.waiting.drop (o.spot x), o.begun, o.dropped,
    o.begun_lt_room x⟩

/-- One byte leaves. -/
def tick (o : Outbox c) : Outbox c :=
  match o.waiting with
  | [] => o
  | x :: w =>
      if h : o.begun + 1 < (c.bytes x).length then ⟨o.done, x :: w, o.begun + 1, o.dropped, h⟩
      else if c.ends x then ⟨o.done ++ [x], [], 0, o.dropped ++ w, Nat.one_pos⟩
      else ⟨o.done ++ [x], w, 0, o.dropped, c.room_pos w⟩

/-- Up to `n` bytes leave. -/
def drain (n : ℕ) (o : Outbox c) : Outbox c := tick^[n] o

lemma tick_of_nil {o : Outbox c} (h : o.waiting = []) : o.tick = o := by
  rw [tick, h]

lemma tick_more {o : Outbox c} {x : α} {w : List α} (hw : o.waiting = x :: w)
    (h : o.begun + 1 < (c.bytes x).length) :
    o.tick = ⟨o.done, x :: w, o.begun + 1, o.dropped, h⟩ := by
  rw [tick, hw]
  exact dif_pos h

/-- The last byte of a message that ends the transmission. -/
lemma tick_ends {o : Outbox c} {x : α} {w : List α} (hw : o.waiting = x :: w)
    (h : o.begun + 1 = (c.bytes x).length) (hx : c.ends x = true) :
    o.tick = ⟨o.done ++ [x], [], 0, o.dropped ++ w, Nat.one_pos⟩ := by
  rw [tick, hw]
  exact (dif_neg (by omega)).trans (if_pos hx)

/-- The last byte of any other message. -/
lemma tick_next {o : Outbox c} {x : α} {w : List α} (hw : o.waiting = x :: w)
    (h : o.begun + 1 = (c.bytes x).length) (hx : ¬ c.ends x = true) :
    o.tick = ⟨o.done ++ [x], w, 0, o.dropped, c.room_pos w⟩ := by
  rw [tick, hw]
  exact (dif_neg (by omega)).trans (if_neg hx)

/-- The cases of `tick`. -/
lemma tick_induction {P : Outbox c → Prop} (o : Outbox c) (idle : o.waiting = [] → P o)
    (more : ∀ x w, o.waiting = x :: w → ∀ h : o.begun + 1 < (c.bytes x).length,
      P ⟨o.done, x :: w, o.begun + 1, o.dropped, h⟩)
    (last : ∀ x w, o.waiting = x :: w → c.ends x = true →
      P ⟨o.done ++ [x], [], 0, o.dropped ++ w, Nat.one_pos⟩)
    (next : ∀ x w, o.waiting = x :: w → ¬ c.ends x = true →
      P ⟨o.done ++ [x], w, 0, o.dropped, c.room_pos w⟩) : P o.tick := by
  cases hw : o.waiting with
  | nil =>
      rw [tick_of_nil hw]
      exact idle hw
  | cons x w =>
      have hlt := o.begun_lt
      rw [hw] at hlt
      rcases Nat.lt_or_eq_of_le (Nat.succ_le_of_lt hlt) with h | h
      · rw [tick_more hw h]
        exact more x w hw h
      · by_cases hx : c.ends x = true
        · rw [tick_ends hw h hx]
          exact last x w hw hx
        · rw [tick_next hw h hx]
          exact next x w hw hx

lemma drain_zero (o : Outbox c) : drain 0 o = o := rfl

lemma drain_succ (n : ℕ) (o : Outbox c) : drain (n + 1) o = drain n o.tick :=
  Function.iterate_succ_apply tick n o

lemma drain_add (m n : ℕ) (o : Outbox c) : drain (m + n) o = drain n (drain m o) := by
  rw [Nat.add_comm]
  exact Function.iterate_add_apply tick n m o

/-- Nothing leaves an empty queue, however long. -/
lemma drain_of_nil {o : Outbox c} (h : o.waiting = []) (n : ℕ) : drain n o = o :=
  Function.iterate_fixed (tick_of_nil h) n

/-- Several bytes of one message leave. -/
lemma drain_more (k : ℕ) : ∀ {o : Outbox c} {x : α} {w : List α} (_ : o.waiting = x :: w)
    (h : o.begun + k < (c.bytes x).length),
    drain k o = ⟨o.done, x :: w, o.begun + k, o.dropped, h⟩ := by
  induction k with
  | zero =>
      intro o x w hw h
      exact Outbox.ext rfl hw rfl rfl
  | succ k ih =>
      intro o x w hw h
      rw [drain_succ, tick_more hw (by omega), ih rfl (by simp only; omega)]
      exact Outbox.ext rfl rfl (by simp only; omega) rfl

/-- The rest of a message leaves, if any is left. -/
lemma drain_rest {o : Outbox c} {x : α} {w : List α} (hw : o.waiting = x :: w) {k : ℕ}
    (hk : 0 < k) (h : o.begun + k = (c.bytes x).length) :
    drain k o =
      if c.ends x then ⟨o.done ++ [x], [], 0, o.dropped ++ w, Nat.one_pos⟩
      else ⟨o.done ++ [x], w, 0, o.dropped, c.room_pos w⟩ := by
  obtain ⟨n, rfl⟩ := Nat.exists_eq_succ_of_ne_zero hk.ne'
  rw [Nat.succ_eq_add_one, drain_add, drain_more n hw (by omega), drain_succ, drain_zero]
  split_ifs with hx
  · rw [tick_ends rfl (by simp only; omega) hx]
  · rw [tick_next rfl (by simp only; omega) hx]

/-! ## What the channel carries

The bytes of the messages that have left, and of the first of the others as many as have gone. -/

/-- A message that joins puts nothing on the channel. -/
lemma output_push (o : Outbox c) (x : α) : (o.push x).output = o.output := by
  simp only [output, push]
  congr 1
  cases hw : o.waiting with
  | nil =>
      rw [begun_of_nil hw]
      rfl
  | cons y w =>
      simp only [spot, started, hw]
      split_ifs with hu hb
      · rw [hb]
        rfl
      · rfl
      · rw [List.take_length]
        rfl

/-- **What a drain puts on the channel**, as long as it stays within one message. -/
theorem output_drain {o : Outbox c} {x : α} {w : List α} (hw : o.waiting = x :: w) {k : ℕ}
    (h : o.begun + k ≤ (c.bytes x).length) :
    (drain k o).output = o.output ++ ((c.bytes x).drop o.begun).take k := by
  have hcat : (c.bytes x).take (o.begun + k) =
      (c.bytes x).take o.begun ++ ((c.bytes x).drop o.begun).take k := List.take_add
  have hold : o.output = o.done.flatMap c.bytes ++ (c.bytes x).take o.begun := by
    rw [output, hw]
    rfl
  rw [hold, List.append_assoc, ← hcat]
  rcases Nat.lt_or_eq_of_le h with hlt | heq
  · rw [drain_more k hw hlt]
    rfl
  · rcases Nat.eq_zero_or_pos k with rfl | hk
    · rw [drain_zero, hold]
      rfl
    · have hdone : (o.done ++ [x]).flatMap c.bytes = o.done.flatMap c.bytes ++ c.bytes x := by
        rw [List.flatMap_append, List.flatMap_singleton]
      rw [drain_rest hw hk heq, heq, List.take_length, ← hdone]
      split_ifs
      · exact List.append_nil _
      · exact List.append_nil _

/-- Within the first message only a part has left. -/
lemma begun_lt_first {o : Outbox c} {x : α} {w : List α} (hw : o.waiting = x :: w) :
    o.begun < (c.bytes x).length := by
  have hlt := o.begun_lt
  rw [hw] at hlt
  exact hlt

/-! ## Runs

Any sequence of the two operations. -/

/-- What can be done with a queue. -/
inductive Op (α : Type*) where
  | push (x : α)
  | drain (n : ℕ)

/-- One operation. -/
def step (o : Outbox c) : Op α → Outbox c
  | .push x => o.push x
  | .drain n => drain n o

/-- Several operations. -/
def run (o : Outbox c) (ops : List (Op α)) : Outbox c := ops.foldl step o

/-- The messages that are pushed. -/
def pushed (ops : List (Op α)) : List α :=
  ops.filterMap fun
    | .push x => some x
    | .drain _ => none

lemma run_append (o : Outbox c) (ops ops' : List (Op α)) :
    o.run (ops ++ ops') = (o.run ops).run ops' := List.foldl_append

lemma run_concat (o : Outbox c) (ops : List (Op α)) (op : Op α) :
    o.run (ops ++ [op]) = (o.run ops).step op := by
  rw [run_append]
  rfl

lemma pushed_append (ops ops' : List (Op α)) : pushed (ops ++ ops') = pushed ops ++ pushed ops' :=
  List.filterMap_append

@[simp] lemma pushed_push (x : α) : pushed [Op.push x] = [x] := rfl

@[simp] lemma pushed_drain (n : ℕ) : pushed [(Op.drain n : Op α)] = [] := rfl

/-- **Induction over runs.**  What a new message and a single byte preserve is preserved by a run.
-/
theorem run_induction {P : List α → Outbox c → Prop} {l : List α} {o : Outbox c} (init : P l o)
    (hpush : ∀ l o x, P l o → P (l ++ [x]) (o.push x)) (htick : ∀ l o, P l o → P l o.tick)
    (ops : List (Op α)) : P (l ++ pushed ops) (o.run ops) := by
  induction ops using List.reverseRecOn with
  | nil =>
      rw [pushed, List.filterMap_nil, List.append_nil]
      exact init
  | append_singleton ops op ih =>
      rw [run_concat, pushed_append, ← List.append_assoc]
      cases op with
      | push x => exact hpush _ _ x ih
      | drain n =>
          rw [pushed_drain, List.append_nil]
          exact Function.Iterate.rec (P (l ++ pushed ops)) ih (htick _) n

/-! ## No message is lost or sent twice

Every message that was pushed is in one of three places. -/

/-- All messages there are. -/
def all (o : Outbox c) : List α := o.done ++ o.waiting ++ o.dropped

lemma all_push (o : Outbox c) (x : α) : (o.push x).all.Perm (o.all ++ [x]) := by
  have hmid : (o.waiting.take (o.spot x) ++ x :: o.waiting.drop (o.spot x)).Perm
      (o.waiting ++ [x]) := by
    refine List.perm_middle.trans ?_
    rw [List.take_append_drop]
    exact (List.perm_append_singleton x o.waiting).symm
  refine ((hmid.append_left o.done).append_right o.dropped).trans ?_
  simp only [all, List.append_assoc]
  exact (List.perm_append_comm.append_left o.waiting).append_left o.done

lemma all_tick (o : Outbox c) : o.tick.all.Perm o.all := by
  refine tick_induction (P := fun o' => o'.all.Perm o.all) o (fun _ => .rfl) ?_ ?_ ?_
  · intro x w hw h
    simp only [all, hw]
    exact .rfl
  · intro x w hw hx
    simp only [all, hw, List.append_nil, List.append_assoc, List.cons_append]
    have hcomm : (o.dropped ++ w).Perm (w ++ o.dropped) := List.perm_append_comm
    exact (hcomm.cons x).append_left o.done
  · intro x w hw hx
    simp only [all, hw, List.append_assoc, List.cons_append]
    exact .rfl

/-- **Every message that joined is in one place.** -/
theorem run_perm (ops : List (Op α)) : ((empty c).run ops).all.Perm (pushed ops) := by
  refine run_induction (P := fun l o => o.all.Perm l) (l := []) .rfl ?_ ?_ ops
  · intro l o x h
    exact (all_push o x).trans (h.append_right [x])
  · intro l o h
    exact (all_tick o).trans h

/-! ## The order

Stated by sublists: in a list without repetitions, that `[a, b]` is a sublist is that `a` comes
before `b`. -/

/-- A byte changes the line only by what is dropped from its end. -/
lemma line_tick (o : Outbox c) : o.tick.line <+: o.line := by
  refine tick_induction (P := fun o' => o'.line <+: o.line) o (fun _ => List.prefix_rfl) ?_ ?_ ?_
  · intro x w hw h
    rw [line, line, hw]
  · intro x w hw hx
    refine ⟨w, ?_⟩
    simp only [line, hw, List.append_nil, List.append_assoc, List.singleton_append]
  · intro x w hw hx
    rw [line, line, hw, List.append_assoc]
    rfl

/-- The line with a new message in its place. -/
lemma line_push (o : Outbox c) (x : α) :
    (o.push x).line = o.done ++ o.waiting.take (o.spot x) ++ x :: o.waiting.drop (o.spot x) :=
  (List.append_assoc ..).symm

/-- The line in two parts, at this place. -/
lemma line_split (o : Outbox c) (x : α) :
    o.line = o.done ++ o.waiting.take (o.spot x) ++ o.waiting.drop (o.spot x) := by
  rw [List.append_assoc, List.take_append_drop]
  rfl

lemma line_sublist_push (o : Outbox c) (x : α) : o.line <+ (o.push x).line := by
  rw [line_push, line_split o x]
  exact (List.sublist_cons_self x _).append_left _

lemma mem_line_push {o : Outbox c} {x y : α} : y ∈ (o.push x).line ↔ y = x ∨ y ∈ o.line := by
  rw [line_push, line_split o x]
  simp only [List.mem_append, List.mem_cons]
  tauto

/-- **Messages that are not urgent leave in the order in which they joined.** -/
theorem run_ordinary (ops : List (Op α)) :
    (((empty c).run ops).line.filter fun x => !c.urgent x) <+ pushed ops := by
  refine run_induction (P := fun l o => (o.line.filter fun x => !c.urgent x) <+ l) (l := [])
    (List.Sublist.refl _) ?_ ?_ ops
  · intro l o x h
    rw [line_push]
    by_cases hu : c.urgent x = true
    · rw [List.filter_append, List.filter_cons_of_neg (by simp [hu]), ← List.filter_append,
        ← line_split]
      exact h.trans (List.sublist_append_left l [x])
    · have hspot : o.spot x = o.waiting.length := if_neg hu
      rw [hspot, List.take_length, List.drop_length, List.filter_append]
      exact h.append (List.filter_sublist)
  · intro l o h
    exact ((line_tick o).sublist.filter _).trans h

/-- In `l`, the message `b` does not come without `a` before it. -/
def Precedes (a b : α) (l : List α) : Prop := b ∈ l → [a, b] <+ l

/-- The beginning of a list has the same order. -/
lemma Precedes.initial {a b : α} {l l' : List α} (h : Precedes a b l') (hl : l <+: l')
    (hn : l'.Nodup) : Precedes a b l := by
  obtain ⟨t, rfl⟩ := hl
  intro hb
  obtain ⟨u, v, huv, hu, hv⟩ := List.sublist_append_iff.mp (h (List.mem_append_left t hb))
  rcases List.eq_nil_or_concat v with rfl | ⟨v', y, rfl⟩
  · rw [huv, List.append_nil]
    exact hu
  · have hlast : y = b := by
      rw [List.concat_eq_append, ← List.append_assoc] at huv
      exact (List.append_singleton_inj.mp (show [a] ++ [b] = (u ++ v') ++ [y] from huv)).2.symm
    have hbt : b ∈ t := hv.subset (by rw [hlast]; simp)
    exact absurd hbt (List.disjoint_of_nodup_append hn hb)

/-- **What comes before a message keeps coming before it**, whatever joins later. -/
theorem precedes_run {l : List α} {o : Outbox c} {a b : α} (hall : o.all.Perm l) (hb : b ∈ l)
    (h : Precedes a b o.line) (ops : List (Op α)) (hn : (l ++ pushed ops).Nodup) :
    Precedes a b (o.run ops).line := by
  refine (run_induction (P := fun l o => b ∈ l ∧ o.all.Perm l ∧ (l.Nodup → Precedes a b o.line))
    ⟨hb, hall, fun _ => h⟩ ?_ ?_ ops).2.2 hn
  · rintro l o x ⟨hb, hall, h⟩
    refine ⟨List.mem_append_left _ hb, (all_push o x).trans (hall.append_right [x]), ?_⟩
    intro hn hmem
    have hx : x ∉ l := fun hx =>
      List.disjoint_of_nodup_append hn hx (List.mem_singleton_self x)
    have hne : b ≠ x := fun hbx => hx (hbx ▸ hb)
    have hold := (mem_line_push.mp hmem).resolve_left hne
    exact (h (List.nodup_append.mp hn).1 hold).trans (line_sublist_push o x)
  · rintro l o ⟨hb, hall, h⟩
    refine ⟨hb, (all_tick o).trans hall, fun hn => (h hn).initial (line_tick o) ?_⟩
    exact (List.nodup_append.mp ((hall.nodup_iff).mpr hn)).1

/-- A message is before those behind its place, and after those in front of it. -/
lemma precedes_push (o : Outbox c) (x : α) :
    (∀ y ∈ o.waiting.drop (o.spot x), Precedes x y (o.push x).line) ∧
      ∀ y ∈ o.done ++ o.waiting.take (o.spot x), Precedes y x (o.push x).line := by
  rw [line_push]
  refine ⟨fun y hy _ => ?_, fun y hy _ => ?_⟩
  · exact ((List.singleton_sublist.mpr hy).cons_cons x).trans (List.sublist_append_right _ _)
  · exact (List.singleton_sublist.mpr hy).append
      (List.singleton_sublist.mpr List.mem_cons_self)

/-- **Where an urgent message leaves**: after the message that had begun when it joined, and before
all the others that were waiting. -/
theorem urgent_run {before after : List (Op α)} {x : α} (hu : c.urgent x = true)
    (hn : (pushed (before ++ .push x :: after)).Nodup) :
    let o := (empty c).run before
    let o' := (empty c).run (before ++ .push x :: after)
    (∀ y ∈ o.waiting.drop o.started, Precedes x y o'.done) ∧
      ∀ y ∈ o.waiting.take o.started, Precedes y x o'.done := by
  intro o o'
  have hspot : o.spot x = o.started := if_pos hu
  have hall : (o.push x).all.Perm (pushed before ++ [x]) :=
    (all_push o x).trans ((run_perm before).append_right [x])
  have hsplit : before ++ .push x :: after = (before ++ [.push x]) ++ after := by simp
  have ho' : o' = (o.push x).run after := by
    show (empty c).run (before ++ .push x :: after) = _
    rw [hsplit, run_append, run_concat]
    rfl
  have hpushed : pushed (before ++ .push x :: after) = (pushed before ++ [x]) ++ pushed after := by
    rw [hsplit, pushed_append, pushed_append, pushed_push]
  rw [hpushed] at hn
  have hline : o'.line.Nodup := by
    have hperm := run_perm (c := c) (before ++ .push x :: after)
    rw [hpushed] at hperm
    exact (List.nodup_append.mp (hperm.nodup_iff.mpr hn)).1
  have hdone : ∀ {a b}, b ∈ pushed before ++ [x] → Precedes a b (o.push x).line →
      Precedes a b o'.done := by
    intro a b hb h
    have hrun := precedes_run hall hb h after hn
    rw [← ho'] at hrun
    exact hrun.initial (List.prefix_append _ _) hline
  have hold : ∀ y ∈ o.waiting, y ∈ pushed before := by
    intro y hy
    exact (run_perm before).subset (List.mem_append_left _ (List.mem_append_right _ hy))
  obtain ⟨hbehind, hfront⟩ := precedes_push o x
  rw [hspot] at hbehind hfront
  refine ⟨fun y hy => ?_, fun y hy => ?_⟩
  · exact hdone (List.mem_append_left _ (hold y (List.mem_of_mem_drop hy))) (hbehind y hy)
  · exact hdone (List.mem_append_right _ (List.mem_singleton_self x))
      (hfront y (List.mem_append_right _ hy))

/-! ## The end of the transmission

Such a message is the last to leave, what waits behind it is dropped, and what leaves later joined
later. -/

/-- **A message that ends the transmission is the last to leave**, and nothing waits any more. -/
theorem drain_ended {x : α} (hx : c.ends x = true) (n : ℕ) : ∀ {o : Outbox c}, x ∉ o.done →
    x ∈ (drain n o).done → (drain n o).waiting = [] ∧ ∃ l, (drain n o).done = l ++ [x] := by
  induction n with
  | zero => exact fun hout hin => absurd hin hout
  | succ n ih =>
      intro o hout
      rw [drain_succ]
      refine tick_induction (P := fun o' => x ∈ (drain n o').done →
        (drain n o').waiting = [] ∧ ∃ l, (drain n o').done = l ++ [x]) o ?_ ?_ ?_ ?_
      · intro hw hin
        rw [drain_of_nil hw] at hin
        exact absurd hin hout
      · intro y w hw h hin
        exact ih hout hin
      · intro y w hw hy hin
        rw [drain_of_nil rfl] at hin ⊢
        rcases List.mem_append.mp hin with hin | hin
        · exact absurd hin hout
        · rw [List.mem_singleton.mp hin]
          exact ⟨rfl, o.done, rfl⟩
      · intro y w hw hy hin
        refine ih (fun hmem => ?_) hin
        rcases List.mem_append.mp hmem with hmem | hmem
        · exact hout hmem
        · rw [List.mem_singleton.mp hmem] at hx
          exact hy hx

/-- **After the queue has run empty, only what joins later leaves.** -/
theorem run_of_idle {o : Outbox c} (h : o.waiting = []) (ops : List (Op α)) :
    ∃ d, (o.run ops).done = o.done ++ d ∧ ∀ y ∈ d ++ (o.run ops).waiting, y ∈ pushed ops := by
  have hinit : ∃ d, o.done = o.done ++ d ∧ ∀ y ∈ d ++ o.waiting, y ∈ ([] : List α) :=
    ⟨[], (List.append_nil _).symm, by rw [h]; exact List.forall_mem_nil _⟩
  refine run_induction (l := []) (o := o)
    (P := fun l o' => ∃ d, o'.done = o.done ++ d ∧ ∀ y ∈ d ++ o'.waiting, y ∈ l) hinit ?_ ?_ ops
  · rintro l o' x ⟨d, hd, hmem⟩
    refine ⟨d, hd, fun y hy => ?_⟩
    have hy' : y = x ∨ y ∈ d ++ o'.waiting := by
      rw [← List.take_append_drop (o'.spot x) o'.waiting]
      simp only [push, List.mem_append, List.mem_cons] at hy ⊢
      tauto
    rcases hy' with rfl | hy'
    · exact List.mem_append_right l (List.mem_singleton_self y)
    · exact List.mem_append_left _ (hmem y hy')
  · rintro l o' ⟨d, hd, hmem⟩
    refine tick_induction (P := fun o'' => ∃ d, o''.done = o.done ++ d ∧
      ∀ y ∈ d ++ o''.waiting, y ∈ l) o' ?_ ?_ ?_ ?_
    · exact fun _ => ⟨d, hd, hmem⟩
    · intro x w hw hlt
      rw [hw] at hmem
      exact ⟨d, hd, hmem⟩
    · intro x w hw hx
      rw [hw] at hmem
      refine ⟨d ++ [x], by rw [hd, List.append_assoc], fun y hy => hmem y ?_⟩
      simp only [List.append_nil, List.mem_append, List.mem_cons, List.not_mem_nil] at hy ⊢
      tauto
    · intro x w hw hx
      rw [hw] at hmem
      refine ⟨d ++ [x], by rw [hd, List.append_assoc], fun y hy => hmem y ?_⟩
      rwa [List.append_assoc] at hy

/-- **What leaves after the end of a transmission** joined after it. -/
theorem ended_run {before : List (Op α)} {n : ℕ} {x : α} (hx : c.ends x = true)
    (hout : x ∉ ((empty c).run before).done)
    (hin : x ∈ ((empty c).run (before ++ [.drain n])).done) (after : List (Op α)) :
    ∃ l d, ((empty c).run (before ++ [.drain n])).done = l ++ [x] ∧
      ((empty c).run (before ++ .drain n :: after)).done = l ++ x :: d ∧
      ∀ y ∈ d, y ∈ pushed after := by
  have hsplit : before ++ .drain n :: after = (before ++ [.drain n]) ++ after := by simp
  rw [run_concat] at hin ⊢
  obtain ⟨hidle, l, hl⟩ := drain_ended hx n hout hin
  obtain ⟨d, hd, hmem⟩ := run_of_idle hidle after
  refine ⟨l, d, hl, ?_, fun y hy => hmem y (List.mem_append_left _ hy)⟩
  rw [hsplit, run_append, run_concat]
  refine hd.trans ?_
  rw [hl, List.append_assoc]
  rfl

/-- **Messages are dropped only behind one that ends the transmission.** -/
theorem dropped_drain {y : α} (n : ℕ) : ∀ {o : Outbox c}, y ∈ (drain n o).dropped →
    y ∈ o.dropped ∨ ∃ x, c.ends x = true ∧ [x, y] <+ o.waiting ∧ x ∈ (drain n o).done := by
  induction n with
  | zero => exact fun h => .inl h
  | succ n ih =>
      intro o
      rw [drain_succ]
      refine tick_induction (P := fun o' => y ∈ (drain n o').dropped → y ∈ o.dropped ∨
        ∃ x, c.ends x = true ∧ [x, y] <+ o.waiting ∧ x ∈ (drain n o').done) o ?_ ?_ ?_ ?_
      · intro hw h
        rw [drain_of_nil hw] at h
        exact .inl h
      · intro x w hw hlt h
        rw [hw]
        exact ih h
      · intro x w hw hx h
        rw [drain_of_nil rfl] at h ⊢
        refine (List.mem_append.mp h).imp_right fun h => ⟨x, hx, ?_, ?_⟩
        · rw [hw]
          exact (List.singleton_sublist.mpr h).cons_cons x
        · exact List.mem_append_right _ (List.mem_singleton_self x)
      · intro x w hw hx h
        refine (ih h).imp_right ?_
        rintro ⟨z, hz, hsub, hdone⟩
        exact ⟨z, hz, hw ▸ hsub.cons x, hdone⟩

/-- The message `y` was dropped in the run `ops`, behind one that ended the transmission. -/
def DroppedIn (c : Coding α β) (y : α) (ops : List (Op α)) : Prop :=
  ∃ before n after x, ops = before ++ Op.drain n :: after ∧ c.ends x = true ∧
    [x, y] <+ ((empty c).run before).waiting ∧ x ∈ ((empty c).run (before ++ [.drain n])).done

lemma DroppedIn.concat {y : α} {ops : List (Op α)} (h : DroppedIn c y ops) (op : Op α) :
    DroppedIn c y (ops ++ [op]) := by
  obtain ⟨before, n, after, x, rfl, hx⟩ := h
  exact ⟨before, n, after ++ [op], x, by rw [List.append_assoc, List.cons_append], hx⟩

/-- **Every message that is dropped was behind one that ended the transmission.** -/
theorem dropped_run {y : α} (ops : List (Op α)) :
    y ∈ ((empty c).run ops).dropped → DroppedIn c y ops := by
  induction ops using List.reverseRecOn with
  | nil => exact fun h => absurd h List.not_mem_nil
  | append_singleton ops op ih =>
      intro h
      rw [run_concat] at h
      cases op with
      | push x => exact (ih h).concat _
      | drain n =>
          rcases dropped_drain n h with hy | ⟨x, hx, hsub, hdone⟩
          · exact (ih hy).concat _
          · refine ⟨ops, n, [], x, rfl, hx, hsub, ?_⟩
            rw [run_concat]
            exact hdone

/-- **Without urgent messages, and without one that ends the transmission**, an empty queue means
that all messages have left, in the order in which they joined. -/
theorem run_plain {ops : List (Op α)} (hu : ∀ x ∈ pushed ops, c.urgent x = false)
    (he : ∀ x ∈ pushed ops, c.ends x = false) (hw : ((empty c).run ops).waiting = []) :
    ((empty c).run ops).done = pushed ops := by
  have hall := run_perm (c := c) ops
  have hdropped : ((empty c).run ops).dropped = [] := by
    refine List.eq_nil_iff_forall_not_mem.mpr fun y hy => ?_
    obtain ⟨before, n, after, x, rfl, hx, -, hdone⟩ := dropped_run ops hy
    have hmem : x ∈ pushed (before ++ [.drain n]) := by
      refine (run_perm (c := c) _).subset ?_
      exact List.mem_append_left _ (List.mem_append_left _ hdone)
    rw [pushed_append, pushed_drain, List.append_nil] at hmem
    have hfalse := he x (by rw [pushed_append]; exact List.mem_append_left _ hmem)
    exact Bool.false_ne_true (hfalse.symm.trans hx)
  rw [all, hw, hdropped, List.append_nil, List.append_nil] at hall
  have horder := run_ordinary (c := c) ops
  rw [line, hw, List.append_nil, List.filter_eq_self.mpr] at horder
  · exact horder.eq_of_length hall.length_eq
  · intro x hx
    rw [hu x (hall.subset hx)]
    rfl

end Outbox
