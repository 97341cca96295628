import CurlWs.Memory.Runs

/-!
# The end of a pool

`mem_cleanup_pool` walks along the four lists of a pool and hands every block it meets to `free`.
It reads the link of a block before it frees it; to read or free a block that is not there any more
is an error, for which the functions are `none`, as they are when a walk takes more steps than it
may.

**One list.**  A loop frees the blocks of the list that its pointer leads to, in their order.  The
links of the blocks that are still to come must not be among what has been freed, which is where the
invariant of the pool is used: no block is in two lists, or twice in one.

**The pool.**  Lent or free makes no difference: all blocks of both pools are in one of the four
lists, so that every block that `malloc` ever gave is freed once.

* **`memCleanupPool_eq`** — what is freed, as a list.
* **`cleanup_sound`** — whatever was done with the pool before, each block that `malloc` has
  returned is freed once, lent or not.
-/

namespace CurlWs

open FreeList LinkedList

variable {α : Type*}

section

variable [DecidableEq α]

/-- `free(p)`. -/
def MemPool.release (m : MemPool α) (p : α) : MemPool α :=
  { m with heap := Function.update m.heap p none }

/-- One of the loops `while ((p = head) != NULL)`: the blocks it frees. -/
def cleanupLoop : ℕ → MemPool α → Option α → Option (List α × MemPool α)
  | 0, _, _ => none
  | _ + 1, m, none => some ([], m)
  | fuel + 1, m, some p => do
      let b ← m.heap p
      let r ← cleanupLoop fuel (m.release p) b.next
      some (p :: r.1, r.2)

/-- `mem_cleanup_pool`: the blocks it frees, and the memory it leaves. -/
def memCleanupPool (fuel : ℕ) (m : MemPool α) : Option (List α × MemPool α) := do
  let r₁ ← cleanupLoop fuel m m.ctrl.active
  let r₂ ← cleanupLoop fuel r₁.2 m.ctrl.free
  let r₃ ← cleanupLoop fuel r₂.2 m.data.active
  let r₄ ← cleanupLoop fuel r₃.2 m.data.free
  some (r₁.1 ++ r₂.1 ++ r₃.1 ++ r₄.1, r₄.2)

/-! ## One list

The memory without the blocks that have been freed so far (`MemPool.without`) is what the loop sees.
-/

/-- The memory without some of the blocks. -/
def MemPool.without (m : MemPool α) (l : List α) : MemPool α :=
  { m with heap := fun a => if a ∈ l then none else m.heap a }

lemma without_nil (m : MemPool α) : m.without [] = m := by
  simp [MemPool.without]

lemma release_without (m : MemPool α) (l : List α) (p : α) :
    (m.without l).release p = m.without (l ++ [p]) := by
  simp only [MemPool.release, MemPool.without, MemPool.mk.injEq, true_and]
  funext a
  by_cases ha : a = p
  · simp [ha]
  · simp [ha]

/-- **A loop frees the list it walks along.** -/
lemma cleanupLoop_eq {m : MemPool α} (fuel : ℕ) :
    ∀ (done : List α) {l : List α} {start : Option α},
    Follows m.next start l → (∀ a ∈ l, (m.heap a).isSome = true) → (done ++ l).Nodup →
    l.length < fuel → cleanupLoop fuel (m.without done) start = some (l, m.without (done ++ l)) := by
  induction fuel with
  | zero =>
      intro done l start _ _ _ hlen
      exact absurd hlen (Nat.not_lt_zero _)
  | succ fuel ih =>
      intro done l start hwalk hheap hnodup hlen
      cases l with
      | nil =>
          obtain rfl : start = none := hwalk
          rw [cleanupLoop, List.append_nil]
      | cons p l =>
          obtain ⟨rfl, hrest⟩ := hwalk
          obtain ⟨b, hb⟩ := Option.isSome_iff_exists.mp (hheap p List.mem_cons_self)
          have hnot : p ∉ done := fun hp =>
            (List.nodup_append.mp hnodup).2.2 p hp p List.mem_cons_self rfl
          have hread : (m.without done).heap p = some b := by
            rw [MemPool.without]
            exact (if_neg hnot).trans hb
          have hnext : m.next p = b.next := by rw [MemPool.next, hb]; rfl
          have hnodup' : (done ++ [p] ++ l).Nodup := by
            rwa [List.append_assoc, List.singleton_append]
          rw [hnext] at hrest
          have hloop := ih _ hrest (fun a ha => hheap a (List.mem_cons_of_mem p ha)) hnodup'
            (Nat.lt_of_succ_lt_succ hlen)
          simp only [cleanupLoop, hread, Option.bind_eq_bind, Option.bind_some, release_without,
            hloop, List.append_assoc, List.singleton_append]

end

/-! ## A pool

The four loops, one after another. -/

/-- The blocks of both pools, in the order they are freed. -/
def allBlocks (P : BlockPool → Pool α) : List α :=
  (P .ctrl).active ++ (P .ctrl).free ++ (P .data).active ++ (P .data).free

lemma mem_allBlocks {P : BlockPool → Pool α} {a : α} :
    a ∈ allBlocks P ↔ ∃ w, a ∈ (P w).blocks := by
  simp only [allBlocks, List.mem_append, Pool.mem_blocks]
  refine ⟨?_, ?_⟩
  · rintro (((h | h) | h) | h)
    · exact ⟨.ctrl, .inl h⟩
    · exact ⟨.ctrl, .inr h⟩
    · exact ⟨.data, .inl h⟩
    · exact ⟨.data, .inr h⟩
  · rintro ⟨w, h⟩
    cases w with
    | ctrl => exact .inl (.inl h)
    | data => exact h.elim (fun h => .inl (.inr h)) .inr

lemma nodup_allBlocks {m : MemPool α} {P : BlockPool → Pool α} (h : ∀ w, Keeps m w (P w)) :
    (allBlocks P).Nodup := by
  rw [allBlocks, List.append_assoc]
  refine List.nodup_append.mpr ⟨(P .ctrl).nodup, (P .data).nodup, ?_⟩
  rintro a ha b hb rfl
  exact (h .ctrl).disjoint (h .data) (by decide) ha hb

variable [DecidableEq α]

/-- **`mem_cleanup_pool`** frees the blocks of all lists. -/
theorem memCleanupPool_eq {m : MemPool α} {P : BlockPool → Pool α} (h : ∀ w, Keeps m w (P w))
    {fuel : ℕ} (hfuel : (allBlocks P).length < fuel) :
    memCleanupPool fuel m = some (allBlocks P, m.without (allBlocks P)) := by
  have hheap : ∀ w, ∀ a ∈ (P w).blocks, (m.heap a).isSome = true := by
    intro w a ha
    have hne : m.heap a ≠ none := mt MemPool.parent_eq_none.mpr ((h w).parent_ne_none ha)
    exact Option.isSome_iff_ne_none.mpr hne
  have hactive : ∀ w, ∀ a ∈ (P w).active, (m.heap a).isSome = true :=
    fun w a ha => hheap w a (Pool.mem_blocks.mpr (.inl ha))
  have hfree : ∀ w, ∀ a ∈ (P w).free, (m.heap a).isSome = true :=
    fun w a ha => hheap w a (Pool.mem_blocks.mpr (.inr ha))
  have hnodup := nodup_allBlocks h
  simp only [allBlocks, List.length_append] at hnodup hfuel ⊢
  have hdata := (List.nodup_append.mp hnodup).1
  have hctrl := (List.nodup_append.mp hdata).1
  have h₁ := cleanupLoop_eq fuel [] ((h .ctrl).active.follows) (hactive .ctrl)
    (List.nodup_append.mp hctrl).1 (by omega)
  have h₂ := cleanupLoop_eq fuel (P .ctrl).active ((h .ctrl).free.follows) (hfree .ctrl)
    hctrl (by omega)
  have h₃ := cleanupLoop_eq fuel ((P .ctrl).active ++ (P .ctrl).free)
    ((h .data).active.follows) (hactive .data) hdata (by omega)
  have h₄ := cleanupLoop_eq fuel
    ((P .ctrl).active ++ (P .ctrl).free ++ (P .data).active) ((h .data).free.follows)
    (hfree .data) hnodup (by omega)
  rw [without_nil, List.nil_append] at h₁
  have hheads : m.ctrl.active = (P .ctrl).active.head? ∧ m.ctrl.free = (P .ctrl).free.head? ∧
      m.data.active = (P .data).active.head? ∧ m.data.free = (P .data).free.head? :=
    ⟨(h .ctrl).active_head, (h .ctrl).free_head, (h .data).active_head, (h .data).free_head⟩
  obtain ⟨ha₁, ha₂, ha₃, ha₄⟩ := hheads
  simp only [memCleanupPool, ha₁, ha₂, ha₃, ha₄, h₁, h₂, h₃, h₄, Option.bind_eq_bind,
    Option.bind_some]

/-- There are no more blocks than events. -/
lemma Accounts.length_allBlocks_le {t : List (MemEvent α)} {m : MemPool α}
    {P : BlockPool → Pool α} (h : Accounts t m P) : (allBlocks P).length ≤ t.length := by
  refine length_le_of_allocated (nodup_allBlocks h.lists) fun a ha => ?_
  obtain ⟨w, hw⟩ := mem_allBlocks.mp ha
  exact ⟨w, (h.created w a).mp hw⟩

/-- **A pool is freed once and for all.** -/
theorem Accounts.memCleanupPool {t : List (MemEvent α)} {m : MemPool α} {P : BlockPool → Pool α}
    (h : Accounts t m P) {fuel : ℕ} (hfuel : t.length < fuel) :
    ∃ freed m', CurlWs.memCleanupPool fuel m = some (freed, m') ∧ freed.Nodup ∧
      (∀ a, a ∈ freed ↔ ∃ w, .allocated w a ∈ t) ∧ ∀ a, m'.heap a = none := by
  refine ⟨_, _, memCleanupPool_eq h.lists (h.length_allBlocks_le.trans_lt hfuel),
    nodup_allBlocks h.lists, fun a => ?_, fun a => ?_⟩
  · exact mem_allBlocks.trans (exists_congr fun w => h.created w a)
  · simp only [MemPool.without, ite_eq_left_iff]
    intro hnot
    by_contra hblock
    obtain ⟨b, hb⟩ := Option.ne_none_iff_exists'.mp hblock
    have hparent : m.parent a = some b.parent := by rw [MemPool.parent, hb]; rfl
    exact hnot (mem_allBlocks.mpr ⟨_, ((h.lists b.parent).blocks a).mpr hparent⟩)

/-! ## Every run

With as many steps allowed as there were calls, no walk runs out of them. -/

lemma length_memRun (calls : List (MemCall α)) : ∀ m : MemPool α,
    (memRun m calls).1.length = calls.length := by
  induction calls with
  | nil =>
      intro m
      rfl
  | cons c calls ih =>
      intro m
      exact congrArg Nat.succ (ih _)

/-- **The end of a pool.**  After any calls, `mem_cleanup_pool` frees each block that has ever been
obtained, and none twice, without a look at what it has freed; nothing is left. -/
theorem cleanup_sound (controlBlockSize dataBlockSize : ℕ) (calls : List (MemCall α))
    (h : ProperCalls (memInitPool α controlBlockSize dataBlockSize) calls) (fuel : ℕ)
    (hfuel : calls.length < fuel) :
    let r := memRun (memInitPool α controlBlockSize dataBlockSize) calls
    ∃ freed m', memCleanupPool fuel r.2 = some (freed, m') ∧ freed.Nodup ∧
      (∀ a, a ∈ freed ↔ ∃ w, .allocated w a ∈ r.1) ∧ ∀ a, m'.heap a = none := by
  intro r
  obtain ⟨P, hP⟩ := (accounts_memInitPool controlBlockSize dataBlockSize).memRun calls h
  rw [List.nil_append] at hP
  exact hP.memCleanupPool ((length_memRun calls _).trans_lt hfuel)

/-- Two blocks of one kind, one of which is free again, and one of the other kind. -/
theorem cleanup_sound_three :
    let r := memRun (memInitPool ℕ 125 1024)
      [.allocCtrl (some 1), .allocData (some 2), .allocCtrl (some 3), .free 1]
    ∃ freed m', memCleanupPool 5 r.2 = some (freed, m') ∧ freed.Nodup ∧
      (∀ a, a ∈ freed ↔ ∃ w, .allocated w a ∈ r.1) ∧ ∀ a, m'.heap a = none :=
  cleanup_sound 125 1024
    [.allocCtrl (some 1), .allocData (some 2), .allocCtrl (some 3), .free 1] (by decide +kernel) 5
    (by decide)

end CurlWs
