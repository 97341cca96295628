import Mathlib

/-!
# Doubly linked lists

The links of the nodes in a memory are two functions, and a list of nodes is linked if the links of
each are its neighbours, none at the ends.  The two edits are taking a node out, wherever it is, and
putting one in front.

All nodes share the two functions, so that several lists can be in one memory.  An edit of one of
them leaves any other alone if they have no node in common; that is the frame rule of this library
(`unlink_other`, `push_other`).  An edit that moves a node from one list to another is taking out of
the one and putting into the other, and is never looked at as a whole.

* **`Linked.unlink`**, **`Linked.push`** — the edited list is linked.
* **`Linked.unlink_other`**, **`Linked.push_other`** — any other list stays so.
* `Follows` — the nodes of a list as they are met from its first node on, for lists of which only
  the links forward are in order.
* **`Follows.nodup`**, **`Follows.concat`** — a walk meets no node twice, and one more node is
  linked behind its last.
-/

namespace LinkedList

variable {α : Type*}

/-- The links of the nodes. -/
structure Links (α : Type*) where
  next : α → Option α
  prev : α → Option α

/-- The nodes follow each other in this order and there are no others: the links of each are its
neighbours in the list, none at the two ends. -/
def Linked (k : Links α) (l : List α) : Prop :=
  ∀ x a y, l = x ++ a :: y → k.prev a = x.getLast? ∧ k.next a = y.head?

lemma linked_nil (k : Links α) : Linked k [] := by
  intro x a y h
  cases x <;> cases h

section
variable {k k' : Links α} {l : List α} {a b : α}

/-- The links of other nodes do not matter. -/
lemma Linked.congr (h : Linked k l) (hnext : ∀ a ∈ l, k'.next a = k.next a)
    (hprev : ∀ a ∈ l, k'.prev a = k.prev a) : Linked k' l := by
  intro x a y hl
  have hmem : a ∈ l := by
    rw [hl]
    exact List.mem_append_right x List.mem_cons_self
  rw [hnext a hmem, hprev a hmem]
  exact h x a y hl

/-- There is nothing before the first node. -/
lemma Linked.prev_head (h : Linked k (a :: l)) : k.prev a = none := (h [] a l rfl).1

/-- Behind the first node comes the second. -/
lemma Linked.next_head (h : Linked k (a :: l)) : k.next a = l.head? := (h [] a l rfl).2

lemma Linked.next_mem (h : Linked k l) (ha : a ∈ l) (hnext : k.next a = some b) : b ∈ l := by
  obtain ⟨x, y, rfl⟩ := List.append_of_mem ha
  rw [(h x a y rfl).2] at hnext
  exact List.mem_append_right x (List.mem_cons_of_mem a (List.mem_of_head? hnext))

lemma Linked.prev_mem (h : Linked k l) (ha : a ∈ l) (hprev : k.prev a = some b) : b ∈ l := by
  obtain ⟨x, y, rfl⟩ := List.append_of_mem ha
  rw [(h x a y rfl).1] at hprev
  exact List.mem_append_left _ (List.mem_of_getLast? hprev)

/-- No node is before itself. -/
lemma Linked.ne_prev (h : Linked k l) (hnodup : l.Nodup) (ha : a ∈ l) : k.prev a ≠ some a := by
  obtain ⟨x, y, rfl⟩ := List.append_of_mem ha
  rw [(h x a y rfl).1]
  intro hlast
  have hx := List.mem_of_getLast? hlast
  exact (List.nodup_append.mp hnodup).2.2 a hx a List.mem_cons_self rfl

end

/-! ## Walking along a list

For lists whose links back are not kept, or not looked at.  A walk from a pointer is determined by
the links, and if it comes to an end it has met no node twice. -/

/-- The nodes met from a pointer on, along the links forward, up to the one without a successor. -/
def Follows (next : α → Option α) : Option α → List α → Prop
  | start, [] => start = none
  | start, a :: l => start = some a ∧ Follows next (next a) l

/-- A walk can be tried out. -/
instance Follows.decidable [DecidableEq α] (next : α → Option α) :
    (start : Option α) → (l : List α) → Decidable (Follows next start l)
  | start, [] => inferInstanceAs (Decidable (start = none))
  | start, a :: l =>
      have := Follows.decidable next (next a) l
      inferInstanceAs (Decidable (start = some a ∧ Follows next (next a) l))

section

variable {next next' : α → Option α} {start : Option α} {l l' : List α} {a b : α}

/-- The walk begins with its first node. -/
lemma Follows.head (h : Follows next start l) : start = l.head? := by
  cases l with
  | nil => exact h
  | cons a l => exact h.1

/-- There is one walk from a pointer. -/
lemma Follows.unique (h : Follows next start l) (h' : Follows next start l') : l = l' := by
  induction l generalizing start l' with
  | nil =>
      obtain rfl := h
      cases l' with
      | nil => rfl
      | cons b l' => cases h'.1
  | cons a l ih =>
      obtain ⟨rfl, hrest⟩ := h
      cases l' with
      | nil => cases h'
      | cons b l' =>
          obtain ⟨hab, hrest'⟩ := h'
          obtain rfl := Option.some.inj hab
          rw [ih hrest hrest']

/-- Only the links of the nodes that are met matter. -/
lemma Follows.congr (h : Follows next start l) (hsame : ∀ a ∈ l, next' a = next a) :
    Follows next' start l := by
  induction l generalizing start with
  | nil => exact h
  | cons a l ih =>
      refine ⟨h.1, ?_⟩
      rw [hsame a List.mem_cons_self]
      exact ih h.2 fun b hb => hsame b (List.mem_cons_of_mem a hb)

/-- The walk goes on from each of its nodes. -/
lemma Follows.suffix {x y : List α} (h : Follows next start (x ++ a :: y)) :
    Follows next (some a) (a :: y) := by
  induction x generalizing start with
  | nil =>
      obtain ⟨rfl, hrest⟩ := h
      exact ⟨rfl, hrest⟩
  | cons b x ih => exact ih h.2

/-- **A walk that comes to an end** meets no node twice. -/
theorem Follows.nodup (h : Follows next start l) : l.Nodup := by
  induction l generalizing start with
  | nil => exact List.nodup_nil
  | cons a l ih =>
      obtain ⟨rfl, hrest⟩ := h
      refine List.nodup_cons.mpr ⟨fun hmem => ?_, ih hrest⟩
      obtain ⟨x, y, rfl⟩ := List.append_of_mem hmem
      -- from the second visit on, the walk would be as long as from the first
      have hsame : y = x ++ a :: y := (Follows.suffix hrest).2.unique hrest
      have hlen := congrArg List.length hsame
      rw [List.length_append, List.length_cons] at hlen
      omega

/-- **A node is linked behind the last.** -/
theorem Follows.concat (h : Follows next start (l ++ [a])) (hlast : next' a = some b)
    (hend : next' b = none) (hsame : ∀ c ∈ l, next' c = next c) :
    Follows next' start (l ++ [a, b]) := by
  induction l generalizing start with
  | nil => exact ⟨h.1, hlast, hend⟩
  | cons c l ih =>
      refine ⟨h.1, ?_⟩
      rw [hsame c List.mem_cons_self]
      exact ih h.2 fun d hd => hsame d (List.mem_cons_of_mem c hd)

end

/-- A linked list is walked from its first node. -/
lemma Linked.follows {k : Links α} {l : List α} (h : Linked k l) :
    Follows k.next l.head? l := by
  have hwalk : ∀ x y, l = x ++ y → Follows k.next y.head? y := by
    intro x y
    induction y generalizing x with
    | nil =>
        intro _
        rfl
    | cons a y ih =>
        intro hl
        refine ⟨rfl, ?_⟩
        rw [(h x a y hl).2]
        exact ih (x ++ [a]) (by rw [hl, List.append_assoc]; rfl)
  exact hwalk [] l rfl

/-! ## Edits

What an edit writes, first as links and then as lists. -/

/-- A place in two lists put together is in the one or in the other. -/
lemma append_eq_append_cons {x y u v : List α} {b : α} (h : x ++ y = u ++ b :: v) :
    (∃ w, u = x ++ w ∧ y = w ++ b :: v) ∨ ∃ w, x = u ++ b :: w ∧ v = w ++ y := by
  rcases List.append_eq_append_iff.mp h with ⟨w, hu, hy⟩ | ⟨w, hx, hv⟩
  · exact .inl ⟨w, hu, hy⟩
  · cases w with
    | nil =>
        rw [List.append_nil] at hx
        exact .inl ⟨[], by rw [hx, List.append_nil], hv.symm⟩
    | cons c w =>
        obtain ⟨rfl, rfl⟩ := List.cons.inj hv
        exact .inr ⟨w, hx, rfl⟩

variable [DecidableEq α]

namespace Links

/-- Set the link forward of a node, if there is one. -/
def setNext (k : Links α) (p v : Option α) : Links α :=
  { k with next := fun a => if p = some a then v else k.next a }

/-- Set the link back. -/
def setPrev (k : Links α) (p v : Option α) : Links α :=
  { k with prev := fun a => if p = some a then v else k.prev a }

/-- Take a node out of its list. -/
def unlink (k : Links α) (a : α) : Links α :=
  (k.setNext (k.prev a) (k.next a)).setPrev (k.next a) (k.prev a)

/-- Put a node in front of the list that begins with `head`. -/
def push (k : Links α) (head : Option α) (a : α) : Links α :=
  ((k.setPrev (some a) none).setNext (some a) head).setPrev head (some a)

section
variable (k : Links α) (a b : α)

/-- The links forward without the node. -/
lemma next_unlink : (k.unlink a).next b = if k.prev a = some b then k.next a else k.next b := rfl

lemma prev_unlink : (k.unlink a).prev b = if k.next a = some b then k.prev a else k.prev b := rfl

/-- The links forward with a node in front. -/
lemma next_push (head : Option α) :
    (k.push head a).next b = if some a = some b then head else k.next b := rfl

lemma prev_push (head : Option α) : (k.push head a).prev b =
    if head = some b then some a else if some a = some b then none else k.prev b := rfl

end

end Links

/-- The first node of a list is taken out with one write. -/
lemma Links.unlink_of_prev_none {k : Links α} {a : α} (h : k.prev a = none) :
    k.unlink a = k.setPrev (k.next a) none := by
  have hnext : k.setNext none (k.next a) = k := by
    simp only [setNext, reduceCtorEq, if_false]
  rw [unlink, h, hnext]

section
variable {k : Links α} {l l' x y : List α} {a : α}

/-- The neighbours of the node become neighbours. -/
lemma Linked.unlink_middle (h : Linked k (x ++ a :: y)) (hnodup : (x ++ a :: y).Nodup) :
    Linked (k.unlink a) (x ++ y) := by
  obtain ⟨hprev, hnext⟩ := h x a y rfl
  obtain ⟨hx, hay, hxy⟩ := List.nodup_append.mp hnodup
  have hdisj : ∀ b ∈ x, b ∉ y := fun b hb hb' => hxy b hb b (List.mem_cons_of_mem a hb') rfl
  intro u b v hl
  rw [Links.next_unlink, Links.prev_unlink, hprev, hnext]
  rcases append_eq_append_cons hl with ⟨w, rfl, rfl⟩ | ⟨w, rfl, rfl⟩
  · -- behind the node
    obtain ⟨hb, hb'⟩ := h (x ++ a :: w) b v (by rw [List.append_assoc, List.cons_append])
    have hnot : x.getLast? ≠ some b := by
      intro hlast
      exact hdisj b (List.mem_of_getLast? hlast) (List.mem_append_right w List.mem_cons_self)
    rw [if_neg hnot, hb, hb']
    refine ⟨?_, rfl⟩
    cases w with
    | nil => rw [List.nil_append, List.head?_cons, if_pos rfl, List.append_nil]
    | cons c w =>
        have hne : (c :: w ++ b :: v).head? ≠ some b := by
          intro hc
          obtain rfl := Option.some.inj hc
          have hy := (List.nodup_cons.mp hay).2
          exact (List.nodup_cons.mp hy).1 (List.mem_append_right w List.mem_cons_self)
        rw [if_neg hne, List.getLast?_append_cons, List.getLast?_append_cons,
          List.getLast?_cons_cons]
  · -- in front of it
    obtain ⟨hb, hb'⟩ := h u b (w ++ a :: y) (by rw [List.append_assoc, List.cons_append])
    have hnot : y.head? ≠ some b := by
      intro hhead
      exact hdisj b (List.mem_append_right u List.mem_cons_self) (List.mem_of_head? hhead)
    rw [if_neg hnot, hb, hb']
    refine ⟨rfl, ?_⟩
    cases w with
    | nil => rw [List.getLast?_concat, if_pos rfl, List.nil_append]
    | cons c w =>
        have hne : (u ++ b :: c :: w).getLast? ≠ some b := by
          intro hc
          rw [List.getLast?_append_cons, List.getLast?_cons_cons] at hc
          have hbc := (List.nodup_append.mp hx).2.1
          exact (List.nodup_cons.mp hbc).1 (List.mem_of_getLast? hc)
        rw [if_neg hne, List.cons_append, List.cons_append, List.head?_cons, List.head?_cons]

/-- **Taking a node out.** -/
theorem Linked.unlink (h : Linked k l) (hnodup : l.Nodup) (ha : a ∈ l) :
    Linked (k.unlink a) (l.erase a) := by
  obtain ⟨x, y, rfl⟩ := List.append_of_mem ha
  have hx : a ∉ x := fun hx => (List.nodup_append.mp hnodup).2.2 a hx a List.mem_cons_self rfl
  rw [List.erase_append_right _ hx, List.erase_cons_head]
  exact h.unlink_middle hnodup

/-- The first node after that. -/
lemma Linked.head_erase (h : Linked k l) (a : α) :
    (l.erase a).head? = if l.head? = some a then k.next a else l.head? := by
  cases l with
  | nil => rfl
  | cons b l =>
      rw [List.head?_cons]
      by_cases hb : b = a
      · rw [hb] at h ⊢
        rw [if_pos rfl, List.erase_cons_head, h.next_head]
      · rw [if_neg fun hsome => hb (Option.some.inj hsome), List.erase_cons_tail, List.head?_cons]
        rwa [beq_iff_eq]

/-- **Putting a node in front.** -/
theorem Linked.push (h : Linked k l) (hnodup : l.Nodup) (ha : a ∉ l) :
    Linked (k.push l.head? a) (a :: l) := by
  have hhead : l.head? ≠ some a := fun h => ha (List.mem_of_head? h)
  intro u b v hl
  rw [Links.next_push, Links.prev_push]
  cases u with
  | nil =>
      obtain ⟨rfl, rfl⟩ := List.cons.inj hl
      rw [if_neg hhead, if_pos rfl, if_pos rfl]
      exact ⟨rfl, rfl⟩
  | cons c u =>
      have hl' : l = u ++ b :: v := (List.cons.inj hl).2
      obtain rfl : a = c := (List.cons.inj hl).1
      subst hl'
      obtain ⟨hb, hb'⟩ := h u b v rfl
      have hne : some a ≠ some b := by
        intro hab
        obtain rfl := Option.some.inj hab
        exact ha (List.mem_append_right u List.mem_cons_self)
      rw [if_neg hne, if_neg hne, hb, hb']
      refine ⟨?_, rfl⟩
      cases u with
      | nil => rw [List.nil_append, List.head?_cons, if_pos rfl, List.getLast?_singleton]
      | cons d u =>
          have hdb : (d :: u ++ b :: v).head? ≠ some b := by
            intro hd
            obtain rfl := Option.some.inj hd
            exact (List.nodup_cons.mp hnodup).1 (List.mem_append_right u List.mem_cons_self)
          rw [if_neg hdb, List.getLast?_cons_cons]

/-- A list apart does not notice that a node has been taken out. -/
theorem Linked.unlink_other (h : Linked k l) (ha : a ∈ l) (h' : Linked k l')
    (hdisj : ∀ b ∈ l, b ∉ l') : Linked (k.unlink a) l' := by
  refine h'.congr (fun b hb => ?_) fun b hb => ?_
  · rw [Links.next_unlink, if_neg]
    exact fun hprev => hdisj b (h.prev_mem ha hprev) hb
  · rw [Links.prev_unlink, if_neg]
    exact fun hnext => hdisj b (h.next_mem ha hnext) hb

/-- Nor that one has been put in front of another. -/
theorem Linked.push_other (h' : Linked k l') (ha : a ∉ l') (hdisj : ∀ b ∈ l, b ∉ l') :
    Linked (k.push l.head? a) l' := by
  have hne {b : α} (hb : b ∈ l') : some a ≠ some b := by
    intro hab
    obtain rfl := Option.some.inj hab
    exact ha hb
  refine h'.congr (fun b hb => ?_) fun b hb => ?_
  · rw [Links.next_push, if_neg (hne hb)]
  · have hhead : l.head? ≠ some b := fun hhead => hdisj b (List.mem_of_head? hhead) hb
    rw [Links.prev_push, if_neg hhead, if_neg (hne hb)]

end

end LinkedList
