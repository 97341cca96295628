import Mathlib

/-!
# The memory pool

`memory.c`.  A block is known by the address of its data, which is what callers hold; the memory is
a function from addresses to the blocks obtained from `malloc`.  What `malloc` returns is an
argument of the functions that may call it.

**Two pools** share the code, one for control frames and one for data frames, and a block remembers
which of the two it belongs to.  Each has a list of the blocks that are lent and a list of those
that are free, both linked in both directions, with a pointer to the first of either.

**The functions** are translated assignment by assignment, in the order of the source: each
operation on a field of a block is a definition of its own, and a test of a pointer that may be NULL
is a case distinction.  In this way the lists are not assumed to be lists; that they are is proved,
in `Memory/Lists`.

`mem_cleanup_pool`, which ends the life of a pool, is in `Memory/Cleanup`.
-/

namespace CurlWs

/-- The two pools of a `struct mem_pool`, as a block's `parent` tells them apart. -/
inductive BlockPool where
  | ctrl
  | data
  deriving DecidableEq, Repr

/-- `struct mem_block`, with the number of bytes of `data` in place of the bytes. -/
structure MemBlock (α : Type*) where
  parent : BlockPool
  prev : Option α := none
  next : Option α := none
  size : ℕ
  deriving DecidableEq, Repr

/-- `struct mem_block_pool`. -/
structure MemBlockPool (α : Type*) where
  blockSize : ℕ
  free : Option α := none
  active : Option α := none
  deriving DecidableEq, Repr

/-- `struct mem_pool`, and the memory it has obtained. -/
structure MemPool (α : Type*) where
  ctrl : MemBlockPool α
  data : MemBlockPool α
  heap : α → Option (MemBlock α) := fun _ => none

/-- `mem_init_pool`, of the two sizes of a `struct mem_pool_config`. -/
def memInitPool (α : Type*) (controlBlockSize dataBlockSize : ℕ) : MemPool α :=
  { ctrl := { blockSize := controlBlockSize }, data := { blockSize := dataBlockSize } }

namespace MemPool

variable {α : Type*}

/-- One of the two pools. -/
def sub (m : MemPool α) : BlockPool → MemBlockPool α
  | .ctrl => m.ctrl
  | .data => m.data

/-- `pool->free = v`. -/
def setFree (m : MemPool α) (w : BlockPool) (v : Option α) : MemPool α :=
  match w with
  | .ctrl => { m with ctrl := { m.ctrl with free := v } }
  | .data => { m with data := { m.data with free := v } }

/-- `pool->active = v`. -/
def setActive (m : MemPool α) (w : BlockPool) (v : Option α) : MemPool α :=
  match w with
  | .ctrl => { m with ctrl := { m.ctrl with active := v } }
  | .data => { m with data := { m.data with active := v } }

/-- `p->parent`. -/
def parent (m : MemPool α) (p : α) : Option BlockPool := (m.heap p).map MemBlock.parent

/-- `p->next`. -/
def next (m : MemPool α) (p : α) : Option α := (m.heap p).bind MemBlock.next

/-- `p->prev`. -/
def prev (m : MemPool α) (p : α) : Option α := (m.heap p).bind MemBlock.prev

variable [DecidableEq α]

/-- Write a field of a block. -/
def modify (m : MemPool α) (p : α) (f : MemBlock α → MemBlock α) : MemPool α :=
  { m with heap := fun a => if a = p then (m.heap p).map f else m.heap a }

/-- `p->next = v`. -/
def setNext (m : MemPool α) (p : α) (v : Option α) : MemPool α :=
  m.modify p fun b => { b with next := v }

/-- `p->prev = v`. -/
def setPrev (m : MemPool α) (p : α) (v : Option α) : MemPool α :=
  m.modify p fun b => { b with prev := v }

/-- `if (p->prev) p->prev->next = p->next;` -/
def bridgeNext (m : MemPool α) (p : α) : MemPool α :=
  (m.prev p).elim m fun q => m.setNext q (m.next p)

/-- `if (p->next) p->next->prev = v;` -/
def setNextPrev (m : MemPool α) (p : α) (v : Option α) : MemPool α :=
  (m.next p).elim m fun q => m.setPrev q v

/-- The lines that insert a node before the one `head` points to, of which `mem_free` and
`_mem_alloc` have one copy each. -/
def linkFront (m : MemPool α) (p : α) (head : Option α) : MemPool α :=
  ((m.setPrev p none).setNext p head).setNextPrev p (some p)

end MemPool

variable {α : Type*} [DecidableEq α]

/-- `mem_free`.  It has no meaning for what is no block. -/
def memFree (m : MemPool α) (p : α) : MemPool α :=
  match m.parent p with
  | none => m
  | some w =>
      -- the head of the free list is not freed again
      if (m.sub w).free = some p then m
      else
        let m := if (m.sub w).active = some p then m.setActive w (m.next p) else m
        let m := m.bridgeNext p
        let m := m.setNextPrev p (m.prev p)
        let m := m.linkFront p (m.sub w).free
        m.setFree w (some p)

/-- `_mem_alloc`: the block, or NULL. -/
def memAlloc (m : MemPool α) (w : BlockPool) (malloc : Option α) : Option α × MemPool α :=
  let insert (m : MemPool α) (p : α) : MemPool α :=
    (m.linkFront p (m.sub w).active).setActive w (some p)
  match (m.sub w).free with
  | some p =>
      let m := m.setFree w (m.next p)
      let m := (m.sub w).free.elim m fun q => m.setPrev q none
      (some p, insert m p)
  | none =>
      match malloc with
      | none => (none, m)
      | some p =>
          let b : MemBlock α := { parent := w, size := (m.sub w).blockSize }
          (some p, insert { m with heap := fun a => if a = p then some b else m.heap a } p)

/-- `mem_alloc_ctrl`. -/
def memAllocCtrl (m : MemPool α) (malloc : Option α) : Option α × MemPool α :=
  memAlloc m .ctrl malloc

/-- `mem_alloc_data`. -/
def memAllocData (m : MemPool α) (malloc : Option α) : Option α × MemPool α :=
  memAlloc m .data malloc

/-! ## Runs

Any calls of the three functions, one after another.  A call is proper if `malloc` gives memory that
is not in use, and if what is freed is a block of the pool; a block that has been freed before may
be freed again. -/

/-- A call of one of the functions, with what `malloc` returns if it is called. -/
inductive MemCall (α : Type*) where
  | allocCtrl (malloc : Option α)
  | allocData (malloc : Option α)
  | free (p : α)
  deriving DecidableEq, Repr

/-- What has happened, for statements about it. -/
inductive MemEvent (α : Type*) where
  | allocated (w : BlockPool) (p : α)
  | failed (w : BlockPool)
  | freed (p : α)
  deriving DecidableEq, Repr

/-- The event of an allocation. -/
def allocEvent (w : BlockPool) : Option α → MemEvent α
  | some p => .allocated w p
  | none => .failed w

/-- One call. -/
def memStep (m : MemPool α) : MemCall α → MemEvent α × MemPool α
  | .allocCtrl malloc =>
      let r := memAllocCtrl m malloc
      (allocEvent .ctrl r.1, r.2)
  | .allocData malloc =>
      let r := memAllocData m malloc
      (allocEvent .data r.1, r.2)
  | .free p => (.freed p, memFree m p)

/-- A sequence of calls: the events, and the pool it leaves. -/
def memRun (m : MemPool α) : List (MemCall α) → List (MemEvent α) × MemPool α
  | [] => ([], m)
  | c :: calls =>
      let r := memStep m c
      let rest := memRun r.2 calls
      (r.1 :: rest.1, rest.2)

/-- What is asked of a call: `malloc` returns memory that is not in use yet, and what is freed is a
block the pool has handed out. -/
def MemCall.Proper (m : MemPool α) : MemCall α → Prop
  | .allocCtrl malloc => ∀ p ∈ malloc, m.heap p = none
  | .allocData malloc => ∀ p ∈ malloc, m.heap p = none
  | .free p => (m.heap p).isSome = true

instance (m : MemPool α) : (c : MemCall α) → Decidable (c.Proper m)
  | .allocCtrl malloc => inferInstanceAs (Decidable (∀ p ∈ malloc, m.heap p = none))
  | .allocData malloc => inferInstanceAs (Decidable (∀ p ∈ malloc, m.heap p = none))
  | .free p => inferInstanceAs (Decidable ((m.heap p).isSome = true))

/-- All calls of a sequence are proper. -/
def ProperCalls (m : MemPool α) : List (MemCall α) → Prop
  | [] => True
  | c :: calls => c.Proper m ∧ ProperCalls (memStep m c).2 calls

instance decidableProperCalls (m : MemPool α) :
    (calls : List (MemCall α)) → Decidable (ProperCalls m calls)
  | [] => isTrue trivial
  | c :: calls =>
      have := decidableProperCalls (memStep m c).2 calls
      inferInstanceAs (Decidable (c.Proper m ∧ ProperCalls (memStep m c).2 calls))

end CurlWs
