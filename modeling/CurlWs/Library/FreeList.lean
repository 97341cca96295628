import Mathlib

/-!
# Pools of reusable blocks

A pool has lent some of its blocks and keeps the others for reuse.  It lends what it has kept before
it takes a new block in.

`Pool` is the pool as a value: two lists, and as a field that no block is in both or in one of them
twice.  The operations are total on such values, so that a pool that lends a block twice cannot be
written down.  Giving a block back looks at the head of the free list only, as an implementation
would; a block that has been given back before is then moved to the front, and nothing else happens.

* **`Pool.mem_blocks_release`**, **`Pool.mem_blocks_lend`**, **`Pool.mem_blocks_add`** — which
  blocks there are.
* **`Pool.release_free`** — giving back what has been given back changes the order at most.
-/

namespace FreeList

variable {α : Type*}

/-- The blocks of a pool, each in one of two lists. -/
structure Pool (α : Type*) where
  active : List α
  free : List α
  nodup : (active ++ free).Nodup

namespace Pool

/-- All the blocks. -/
def blocks (P : Pool α) : List α := P.active ++ P.free

/-- A pool without blocks. -/
def empty : Pool α := ⟨[], [], List.nodup_nil⟩

/-- Lend a new block. -/
def add (P : Pool α) (a : α) (ha : a ∉ P.blocks) : Pool α :=
  ⟨a :: P.active, P.free, List.nodup_cons.mpr ⟨ha, P.nodup⟩⟩

/-- Lend the first of the free blocks. -/
def lend (P : Pool α) {a : α} {free : List α} (h : P.free = a :: free) : Pool α :=
  ⟨a :: P.active, free, (List.perm_middle.nodup_iff).mp (h ▸ P.nodup)⟩

section
variable {P : Pool α} {a b : α}

lemma nodup_active (P : Pool α) : P.active.Nodup := (List.nodup_append.mp P.nodup).1

lemma nodup_free (P : Pool α) : P.free.Nodup := (List.nodup_append.mp P.nodup).2.1

/-- No block is in both lists. -/
lemma not_mem_free (ha : a ∈ P.active) : a ∉ P.free := by
  intro hf
  exact (List.nodup_append.mp P.nodup).2.2 a ha a hf rfl

lemma mem_blocks : a ∈ P.blocks ↔ a ∈ P.active ∨ a ∈ P.free := List.mem_append

lemma not_mem_blocks : a ∉ P.blocks ↔ a ∉ P.active ∧ a ∉ P.free := by
  rw [mem_blocks, not_or]

/-- The new block is there, and the others. -/
lemma mem_blocks_add (ha : a ∉ P.blocks) : b ∈ (P.add a ha).blocks ↔ b = a ∨ b ∈ P.blocks :=
  List.mem_cons

lemma mem_blocks_lend {free : List α} (h : P.free = a :: free) :
    b ∈ (P.lend h).blocks ↔ b ∈ P.blocks := by
  rw [mem_blocks, mem_blocks, lend, h, List.mem_cons, List.mem_cons, or_assoc, or_left_comm]

end

variable [DecidableEq α]

/-- The lists are in order after a block has been given back. -/
lemma nodup_release {P : Pool α} {a : α} :
    (P.active.erase a ++ a :: P.free.erase a).Nodup := by
  refine List.nodup_append.mpr ⟨P.nodup_active.erase a, ?_, ?_⟩
  · exact List.nodup_cons.mpr ⟨P.nodup_free.not_mem_erase, P.nodup_free.erase a⟩
  · rintro b hb c hc rfl
    rw [P.nodup_active.mem_erase_iff] at hb
    rcases List.mem_cons.mp hc with rfl | hc
    · exact hb.1 rfl
    · exact not_mem_free hb.2 (List.mem_of_mem_erase hc)

/-- Take a block back, unless it is the one that would be lent next. -/
def release (P : Pool α) (a : α) : Pool α :=
  if P.free.head? = some a then P
  else ⟨P.active.erase a, a :: P.free.erase a, nodup_release⟩

variable {P : Pool α} {a b : α}

/-- The head of the free list is left where it is. -/
lemma release_head (h : P.free.head? = some a) : P.release a = P := if_pos h

lemma release_of_ne (h : P.free.head? ≠ some a) :
    P.release a = ⟨P.active.erase a, a :: P.free.erase a, nodup_release⟩ := if_neg h

/-- **A block that is given back is free, and nothing else changes hands.** -/
theorem mem_active_release : b ∈ (P.release a).active ↔ b ∈ P.active ∧ b ≠ a := by
  by_cases h : P.free.head? = some a
  · rw [release_head h]
    refine ⟨fun hb => ⟨hb, ?_⟩, And.left⟩
    rintro rfl
    exact not_mem_free hb (List.mem_of_head? h)
  · rw [release_of_ne h, P.nodup_active.mem_erase_iff, and_comm]

lemma mem_free_release : b ∈ (P.release a).free ↔ b = a ∨ b ∈ P.free := by
  by_cases h : P.free.head? = some a
  · rw [release_head h, or_iff_right_of_imp]
    rintro rfl
    exact List.mem_of_head? h
  · rw [release_of_ne h, List.mem_cons]
    by_cases hb : b = a
    · simp only [hb, true_or]
    · simp only [hb, false_or]
      exact P.nodup_free.mem_erase_iff.trans (and_iff_right hb)

/-- Taking a block back changes no block. -/
lemma mem_blocks_release (ha : a ∈ P.blocks) : b ∈ (P.release a).blocks ↔ b ∈ P.blocks := by
  rw [mem_blocks, mem_active_release, mem_free_release, mem_blocks]
  by_cases hb : b = a
  · rw [hb]
    exact ⟨fun _ => mem_blocks.mp ha, fun _ => .inr (.inl rfl)⟩
  · simp only [hb, ne_eq, not_false_eq_true, and_true, false_or]

/-- **What has been given back already only moves to the front.** -/
theorem release_free (ha : a ∈ P.free) :
    (P.release a).active = P.active ∧ (P.release a).free.Perm P.free := by
  by_cases h : P.free.head? = some a
  · rw [release_head h]
    exact ⟨rfl, List.Perm.refl _⟩
  · rw [release_of_ne h]
    refine ⟨List.erase_of_not_mem fun hact => not_mem_free hact ha, ?_⟩
    exact (List.perm_cons_erase ha).symm

end Pool

end FreeList
