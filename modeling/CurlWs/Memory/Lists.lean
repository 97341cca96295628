import CurlWs.Library.FreeList
import CurlWs.Library.LinkedList
import CurlWs.Model.Memory

/-!
# The lists of the memory pool

`mem_free` and `_mem_alloc` write links one at a time.  Taken together the writes take a node out of
a doubly linked list and put one in front, so that each of the two pools stays a pool of reusable
blocks.

**From writes to edits.**  The links of all blocks are two functions (`MemPool.links`).  A write
through a pointer changes one value of one of them, provided that the pointer is NULL or leads to a
block (`MemPool.Valid`).  The two writes that take a block out are `Links.unlink`, the three that
put it in front are `Links.push`, and the lemmas of the library about linked lists say what becomes
of the lists.

**From edits to pools.**  `Keeps` says that one of the two pools has its blocks in two given lists,
as a value of the library's `Pool`.  A call of `mem_free` is `Pool.release` of that value, and a
call of `_mem_alloc` is `Pool.lend` or `Pool.add`; the other pool, which has its blocks in the same
memory, stays as it was, since no block has two parents.

* **`keeps_memFree`** — a block is given back.
* **`keeps_memAlloc_reuse`**, **`keeps_memAlloc_new`** — a block is lent.
-/

namespace CurlWs

open FreeList LinkedList

variable {α : Type*}

namespace MemPool

/-- The links of the blocks. -/
def links (m : MemPool α) : Links α := ⟨m.next, m.prev⟩

section
variable (m : MemPool α) (w w' : BlockPool) (v : Option α)

/-- The links are not those of the pool itself. -/
@[simp] lemma links_setFree : (m.setFree w v).links = m.links := by cases w <;> rfl

@[simp] lemma links_setActive : (m.setActive w v).links = m.links := by cases w <;> rfl

@[simp] lemma parent_setFree : (m.setFree w v).parent = m.parent := by cases w <;> rfl

@[simp] lemma parent_setActive : (m.setActive w v).parent = m.parent := by cases w <;> rfl

lemma sub_setFree : (m.setFree w v).sub w' =
    if w' = w then { m.sub w with free := v } else m.sub w' := by
  cases w <;> cases w' <;> rfl

lemma sub_setActive : (m.setActive w v).sub w' =
    if w' = w then { m.sub w with active := v } else m.sub w' := by
  cases w <;> cases w' <;> rfl

lemma parent_eq_none {m : MemPool α} {p : α} : m.parent p = none ↔ m.heap p = none :=
  Option.map_eq_none_iff

end

variable [DecidableEq α]

section
variable (m : MemPool α) (p : α) (v : Option α) (w : BlockPool)

@[simp] lemma sub_modify (f : MemBlock α → MemBlock α) : (m.modify p f).sub w = m.sub w := by
  cases w <;> rfl

@[simp] lemma sub_setNext : (m.setNext p v).sub w = m.sub w := sub_modify ..

@[simp] lemma sub_setPrev : (m.setPrev p v).sub w = m.sub w := sub_modify ..

lemma parent_modify {f : MemBlock α → MemBlock α} (hf : ∀ b, (f b).parent = b.parent) :
    (m.modify p f).parent = m.parent := by
  funext a
  simp only [parent, modify]
  split_ifs with ha
  · rw [ha, Option.map_map]
    exact congrArg (Option.map · (m.heap p)) (funext hf)
  · rfl

@[simp] lemma parent_setNext : (m.setNext p v).parent = m.parent := parent_modify m p fun _ => rfl

@[simp] lemma parent_setPrev : (m.setPrev p v).parent = m.parent := parent_modify m p fun _ => rfl

end

/-- The pointer is NULL, or it points to a block. -/
def Valid (m : MemPool α) (q : Option α) : Prop := ∀ a, q = some a → m.parent a ≠ none

variable {m : MemPool α} {p : α} {v : Option α}

/-- A write through a pointer to a block. -/
lemma links_setNext (hp : m.parent p ≠ none) :
    (m.setNext p v).links = m.links.setNext (some p) v := by
  obtain ⟨b, hb⟩ := Option.ne_none_iff_exists'.mp (mt parent_eq_none.mpr hp)
  have hnext : (m.setNext p v).next = fun a => if some p = some a then v else m.next a := by
    funext a
    simp only [next, setNext, modify, Option.some_inj, eq_comm (a := p)]
    split_ifs
    · rw [hb]
      rfl
    · rfl
  have hprev : (m.setNext p v).prev = m.prev := by
    funext a
    simp only [prev, setNext, modify]
    split_ifs with ha
    · rw [ha, hb]
      rfl
    · rfl
  simp only [links, Links.setNext, hnext, hprev]

lemma links_setPrev (hp : m.parent p ≠ none) :
    (m.setPrev p v).links = m.links.setPrev (some p) v := by
  obtain ⟨b, hb⟩ := Option.ne_none_iff_exists'.mp (mt parent_eq_none.mpr hp)
  have hprev : (m.setPrev p v).prev = fun a => if some p = some a then v else m.prev a := by
    funext a
    simp only [prev, setPrev, modify, Option.some_inj, eq_comm (a := p)]
    split_ifs
    · rw [hb]
      rfl
    · rfl
  have hnext : (m.setPrev p v).next = m.next := by
    funext a
    simp only [next, setPrev, modify]
    split_ifs with ha
    · rw [ha, hb]
      rfl
    · rfl
  simp only [links, Links.setPrev, hnext, hprev]

/-- A write through a pointer that may be NULL. -/
lemma links_elim_setNext {q : Option α} (hq : m.Valid q) :
    (q.elim m fun a => m.setNext a v).links = m.links.setNext q v := by
  cases q with
  | none => simp only [Option.elim_none, Links.setNext, reduceCtorEq, if_false]
  | some a => exact links_setNext (hq a rfl)

lemma links_elim_setPrev {q : Option α} (hq : m.Valid q) :
    (q.elim m fun a => m.setPrev a v).links = m.links.setPrev q v := by
  cases q with
  | none => simp only [Option.elim_none, Links.setPrev, reduceCtorEq, if_false]
  | some a => exact links_setPrev (hq a rfl)

section
variable (m : MemPool α) (p : α) (v q : Option α) (w : BlockPool)

/-- A write through a pointer that may be NULL changes no parent and no head. -/
@[simp] lemma parent_elim_setNext : (q.elim m fun a => m.setNext a v).parent = m.parent := by
  cases q with
  | none => rfl
  | some a => exact parent_setNext ..

@[simp] lemma parent_elim_setPrev : (q.elim m fun a => m.setPrev a v).parent = m.parent := by
  cases q with
  | none => rfl
  | some a => exact parent_setPrev ..

@[simp] lemma sub_elim_setNext : (q.elim m fun a => m.setNext a v).sub w = m.sub w := by
  cases q with
  | none => rfl
  | some a => exact sub_setNext ..

@[simp] lemma sub_elim_setPrev : (q.elim m fun a => m.setPrev a v).sub w = m.sub w := by
  cases q with
  | none => rfl
  | some a => exact sub_setPrev ..

@[simp] lemma parent_linkFront : (m.linkFront p v).parent = m.parent := by
  simp only [linkFront, setNextPrev, parent_elim_setPrev, parent_setNext, parent_setPrev]

@[simp] lemma sub_linkFront : (m.linkFront p v).sub w = m.sub w := by
  simp only [linkFront, setNextPrev, sub_elim_setPrev, sub_setNext, sub_setPrev]

end

/-- **A node is put in front.** -/
lemma links_linkFront (hp : m.parent p ≠ none) {head : Option α} (hhead : m.Valid head) :
    (m.linkFront p head).links = m.links.push head p := by
  generalize hm₁ : (m.setPrev p none).setNext p head = m₁
  have hlinks : m₁.links = (m.links.setPrev (some p) none).setNext (some p) head := by
    rw [← hm₁, links_setNext (by rwa [parent_setPrev]), links_setPrev hp]
  have hparent : m₁.parent = m.parent := by
    rw [← hm₁, parent_setNext, parent_setPrev]
  have hnext : m₁.next p = head := by
    show m₁.links.next p = head
    rw [hlinks]
    exact if_pos rfl
  have hvalid : m₁.Valid head := by
    intro a ha
    rw [hparent]
    exact hhead a ha
  rw [linkFront, hm₁, setNextPrev, hnext, links_elim_setPrev hvalid, hlinks]
  rfl

/-- **A node is taken out.** -/
lemma links_unlink (hprev : m.Valid (m.prev p)) (hnext : m.Valid (m.next p))
    (hne : m.prev p ≠ some p) :
    ((m.bridgeNext p).setNextPrev p ((m.bridgeNext p).prev p)).links = m.links.unlink p := by
  generalize hm₁ : m.bridgeNext p = m₁
  have hlinks : m₁.links = m.links.setNext (m.prev p) (m.next p) := by
    rw [← hm₁, bridgeNext, links_elim_setNext hprev]
  have hparent : m₁.parent = m.parent := by
    rw [← hm₁, bridgeNext, parent_elim_setNext]
  have hnext' : m₁.next p = m.next p := by
    show m₁.links.next p = m.next p
    rw [hlinks]
    exact if_neg hne
  have hprev' : m₁.prev p = m.prev p := by
    show m₁.links.prev p = m.prev p
    rw [hlinks]
    rfl
  have hvalid : m₁.Valid (m.next p) := by
    intro a ha
    rw [hparent]
    exact hnext a ha
  rw [setNextPrev, hnext', hprev', links_elim_setPrev hvalid, hlinks]
  rfl

end MemPool

/-! ## What the lists are

The heads that the pool points to, the links between the blocks, and which blocks there are: those
that have the pool for their parent. -/

/-- The pool `w` keeps its blocks in the lists of `P`. -/
structure Keeps (m : MemPool α) (w : BlockPool) (P : Pool α) : Prop where
  active_head : (m.sub w).active = P.active.head?
  free_head : (m.sub w).free = P.free.head?
  active : Linked m.links P.active
  free : Linked m.links P.free
  blocks : ∀ a, a ∈ P.blocks ↔ m.parent a = some w

section
variable {m m' : MemPool α} {w w' : BlockPool} {P P' : Pool α} {p : α}

/-- Lists that are left alone. -/
lemma Keeps.congr (h : Keeps m w P) (hsub : m'.sub w = m.sub w)
    (hactive : Linked m'.links P.active) (hfree : Linked m'.links P.free)
    (hparent : ∀ a, m'.parent a = some w ↔ m.parent a = some w) : Keeps m' w P where
  active_head := by rw [hsub, h.active_head]
  free_head := by rw [hsub, h.free_head]
  active := hactive
  free := hfree
  blocks a := by rw [hparent, h.blocks]

/-- The pointers between the blocks of a list are to blocks. -/
lemma valid_links {l : List α} (h : Linked m.links l) (hmem : ∀ b ∈ l, m.parent b ≠ none)
    (hp : p ∈ l) : m.Valid (m.prev p) ∧ m.Valid (m.next p) :=
  ⟨fun b hb => hmem b (h.prev_mem hp hb), fun b hb => hmem b (h.next_mem hp hb)⟩

lemma Keeps.parent_ne_none (h : Keeps m w P) {b : α} (hb : b ∈ P.blocks) : m.parent b ≠ none := by
  rw [(h.blocks b).mp hb]
  exact Option.some_ne_none w

/-- Memory that is no block is in no pool. -/
lemma Keeps.not_mem (h : Keeps m w P) (hp : m.heap p = none) : p ∉ P.blocks := by
  intro hmem
  exact h.parent_ne_none hmem (MemPool.parent_eq_none.mpr hp)

/-- The head of the free list is a block. -/
lemma Keeps.valid_free (h : Keeps m w P) : m.Valid (m.sub w).free := by
  intro b hb
  rw [h.free_head] at hb
  exact h.parent_ne_none (Pool.mem_blocks.mpr (.inr (List.mem_of_head? hb)))

/-- The blocks of one pool are not in the other. -/
lemma Keeps.disjoint (h : Keeps m w P) (h' : Keeps m w' P') (hne : w' ≠ w) {b : α}
    (hb : b ∈ P.blocks) : b ∉ P'.blocks := by
  intro hb'
  have hsame := ((h.blocks b).mp hb).symm.trans ((h'.blocks b).mp hb')
  exact hne (Option.some.inj hsame).symm

end

/-! ## `mem_free`

Three cases: the block is lent, it is free but not at the head of its list, or it is at the head, in
which case nothing is done. -/

section
variable [DecidableEq α] {m : MemPool α} {w w' : BlockPool} {P P' : Pool α} {p : α}

/-- The writes of `mem_free`, when the block is not the head of the free list. -/
lemma memFree_spec (hp : m.parent p = some w) (hne : (m.sub w).free ≠ some p)
    (hprev : m.Valid (m.prev p)) (hnext : m.Valid (m.next p)) (hself : m.prev p ≠ some p)
    (hfree : m.Valid (m.sub w).free) :
    (memFree m p).links = (m.links.unlink p).push (m.sub w).free p ∧
      (memFree m p).parent = m.parent ∧
      ((memFree m p).sub w).free = some p ∧
      ((memFree m p).sub w).active =
        (if (m.sub w).active = some p then m.next p else (m.sub w).active) ∧
      ∀ w', w' ≠ w → (memFree m p).sub w' = m.sub w' := by
  generalize hm₁ : (if (m.sub w).active = some p then m.setActive w (m.next p) else m) = m₁
  generalize hm₂ : (m₁.bridgeNext p).setNextPrev p ((m₁.bridgeNext p).prev p) = m₂
  have hlinks₁ : m₁.links = m.links := by
    rw [← hm₁]
    split_ifs
    · exact m.links_setActive ..
    · rfl
  have hparent₁ : m₁.parent = m.parent := by
    rw [← hm₁]
    split_ifs
    · exact m.parent_setActive ..
    · rfl
  have hsub₂ (w' : BlockPool) : m₂.sub w' = m₁.sub w' := by
    rw [← hm₂, MemPool.setNextPrev, MemPool.sub_elim_setPrev, MemPool.bridgeNext,
      MemPool.sub_elim_setNext]
  have hparent₂ : m₂.parent = m.parent := by
    rw [← hm₂, MemPool.setNextPrev, MemPool.parent_elim_setPrev, MemPool.bridgeNext,
      MemPool.parent_elim_setNext, hparent₁]
  have hvalid {q : Option α} (hq : m.Valid q) : m₁.Valid q := by
    intro a ha
    rw [hparent₁]
    exact hq a ha
  have hnext₁ : m₁.next p = m.next p := congrFun (congrArg Links.next hlinks₁) p
  have hprev₁ : m₁.prev p = m.prev p := congrFun (congrArg Links.prev hlinks₁) p
  have hlinks₂ : m₂.links = m.links.unlink p := by
    rw [← hm₂, MemPool.links_unlink (by rw [hprev₁]; exact hvalid hprev)
      (by rw [hnext₁]; exact hvalid hnext) (by rw [hprev₁]; exact hself), hlinks₁]
  have hfree₂ : (m₂.sub w).free = (m.sub w).free := by
    rw [hsub₂, ← hm₁]
    split_ifs
    · rw [m.sub_setActive, if_pos rfl]
    · rfl
  have hresult : memFree m p = (m₂.linkFront p (m.sub w).free).setFree w (some p) := by
    simp only [memFree, hp, if_neg hne, hm₁, hm₂, hfree₂]
  rw [hresult]
  refine ⟨?_, ?_, ?_, ?_, fun w' hw' => ?_⟩
  · rw [MemPool.links_setFree, MemPool.links_linkFront, hlinks₂]
    · rw [hparent₂, hp]
      exact Option.some_ne_none w
    · intro a ha
      rw [hparent₂]
      exact hfree a ha
  · rw [MemPool.parent_setFree, MemPool.parent_linkFront, hparent₂]
  · rw [MemPool.sub_setFree, if_pos rfl]
  · rw [MemPool.sub_setFree, if_pos rfl, MemPool.sub_linkFront, hsub₂, ← hm₁]
    split_ifs
    · rw [m.sub_setActive, if_pos rfl]
    · rfl
  · rw [MemPool.sub_setFree, if_neg hw', MemPool.sub_linkFront, hsub₂, ← hm₁]
    split_ifs
    · rw [m.sub_setActive, if_neg hw']
    · rfl

/-- The head of the free list is not freed again. -/
lemma memFree_head (hp : m.parent p = some w) (h : (m.sub w).free = some p) : memFree m p = m := by
  simp only [memFree, hp, if_pos h]

/-- A block that is lent. -/
lemma keeps_memFree_active (h : Keeps m w P) (hp : m.parent p = some w) (hact : p ∈ P.active)
    (hhead : P.free.head? ≠ some p) : Keeps (memFree m p) w (P.release p) := by
  have hnot : p ∉ P.free := Pool.not_mem_free hact
  have hblocks (b : α) : b ∈ (P.release p).blocks ↔ m.parent b = some w :=
    (Pool.mem_blocks_release (Pool.mem_blocks.mpr (.inl hact))).trans (h.blocks b)
  have hmem : ∀ b ∈ P.active, m.parent b ≠ none := fun b hb =>
    h.parent_ne_none (Pool.mem_blocks.mpr (.inl hb))
  obtain ⟨hprev, hnext⟩ := valid_links h.active hmem hact
  obtain ⟨hlinks, hparent, hfree, hactive, -⟩ := memFree_spec hp (by rwa [h.free_head]) hprev hnext
    (h.active.ne_prev P.nodup_active hact) h.valid_free
  rw [h.free_head] at hlinks
  have hother := h.active.unlink_other hact h.free fun b hb => Pool.not_mem_free hb
  rw [Pool.release_of_ne hhead] at hblocks ⊢
  refine ⟨?_, hfree, ?_, ?_, fun b => ?_⟩
  · rw [hactive, h.active_head]
    exact (h.active.head_erase p).symm
  · rw [hlinks]
    exact (h.active.unlink P.nodup_active hact).push_other P.nodup_active.not_mem_erase
      fun b hb hb' => Pool.not_mem_free (List.mem_of_mem_erase hb') hb
  · show Linked _ (p :: P.free.erase p)
    rw [hlinks, List.erase_of_not_mem hnot]
    exact hother.push P.nodup_free hnot
  · rw [hparent]
    exact hblocks b

/-- A block that has been given back before. -/
lemma keeps_memFree_free (h : Keeps m w P) (hp : m.parent p = some w) (hfree : p ∈ P.free)
    (hhead : P.free.head? ≠ some p) : Keeps (memFree m p) w (P.release p) := by
  have hnot : p ∉ P.active := fun hact => Pool.not_mem_free hact hfree
  have hblocks (b : α) : b ∈ (P.release p).blocks ↔ m.parent b = some w :=
    (Pool.mem_blocks_release (Pool.mem_blocks.mpr (.inr hfree))).trans (h.blocks b)
  have hmem : ∀ b ∈ P.free, m.parent b ≠ none := fun b hb =>
    h.parent_ne_none (Pool.mem_blocks.mpr (.inr hb))
  obtain ⟨hprev, hnext⟩ := valid_links h.free hmem hfree
  obtain ⟨hlinks, hparent, hfree', hactive, -⟩ := memFree_spec hp (by rwa [h.free_head]) hprev hnext
    (h.free.ne_prev P.nodup_free hfree) h.valid_free
  have hother := h.free.unlink_other hfree h.active fun b hb hb' => Pool.not_mem_free hb' hb
  -- the head stays, for it is another block
  have hfirst : (P.free.erase p).head? = P.free.head? := by
    rw [h.free.head_erase, if_neg hhead]
  rw [h.free_head, ← hfirst] at hlinks
  rw [Pool.release_of_ne hhead] at hblocks ⊢
  refine ⟨?_, hfree', ?_, ?_, fun b => ?_⟩
  · have hne : P.active.head? ≠ some p := fun hhead => hnot (List.mem_of_head? hhead)
    show _ = (P.active.erase p).head?
    rw [hactive, h.active_head, if_neg hne, List.erase_of_not_mem hnot]
  · show Linked _ (P.active.erase p)
    rw [hlinks, List.erase_of_not_mem hnot]
    exact hother.push_other hnot fun b hb hb' => Pool.not_mem_free hb' (List.mem_of_mem_erase hb)
  · rw [hlinks]
    exact (h.free.unlink P.nodup_free hfree).push (P.nodup_free.erase p)
      P.nodup_free.not_mem_erase
  · rw [hparent]
    exact hblocks b

/-- **`mem_free`** gives a block back. -/
theorem keeps_memFree (h : Keeps m w P) (hp : m.parent p = some w) :
    Keeps (memFree m p) w (P.release p) := by
  by_cases hhead : P.free.head? = some p
  · rw [memFree_head hp (h.free_head.trans hhead), Pool.release_head hhead]
    exact h
  · rcases Pool.mem_blocks.mp ((h.blocks p).mpr hp) with hact | hfree
    · exact keeps_memFree_active h hp hact hhead
    · exact keeps_memFree_free h hp hfree hhead

/-- The other pool does not notice. -/
theorem keeps_memFree_other (h : Keeps m w P) (h' : Keeps m w' P') (hw : w' ≠ w)
    (hp : m.parent p = some w) : Keeps (memFree m p) w' P' := by
  by_cases hhead : P.free.head? = some p
  · rw [memFree_head hp (h.free_head.trans hhead)]
    exact h'
  have hdisj {b : α} (hb : b ∈ P.blocks) : b ∉ P'.active ∧ b ∉ P'.free :=
    Pool.not_mem_blocks.mp (h.disjoint h' hw hb)
  have hblock := (h.blocks p).mpr hp
  -- the block is in one of the lists of its own pool
  obtain ⟨l, hlinked, hnodup, hpl, hl⟩ : ∃ l, Linked m.links l ∧ l.Nodup ∧ p ∈ l ∧
      ∀ b ∈ l, b ∈ P.blocks := by
    rcases Pool.mem_blocks.mp hblock with hact | hfree
    · exact ⟨_, h.active, P.nodup_active, hact, fun b hb => Pool.mem_blocks.mpr (.inl hb)⟩
    · exact ⟨_, h.free, P.nodup_free, hfree, fun b hb => Pool.mem_blocks.mpr (.inr hb)⟩
  obtain ⟨hprev, hnext⟩ := valid_links hlinked (fun b hb => h.parent_ne_none (hl b hb)) hpl
  obtain ⟨hlinks, hparent, -, -, hsub⟩ := memFree_spec hp (by rwa [h.free_head]) hprev hnext
    (hlinked.ne_prev hnodup hpl) h.valid_free
  rw [h.free_head] at hlinks
  have hblocks {b : α} (hb : b ∈ P.free) : b ∈ P.blocks := Pool.mem_blocks.mpr (.inr hb)
  refine h'.congr (hsub w' hw) ?_ ?_ fun a => by rw [hparent]
  · rw [hlinks]
    exact (hlinked.unlink_other hpl h'.active fun b hb => (hdisj (hl b hb)).1).push_other
      (hdisj hblock).1 fun b hb => (hdisj (hblocks hb)).1
  · rw [hlinks]
    exact (hlinked.unlink_other hpl h'.free fun b hb => (hdisj (hl b hb)).2).push_other
      (hdisj hblock).2 fun b hb => (hdisj (hblocks hb)).2

end

/-! ## `_mem_alloc`

A block that is free is reused: it is taken off the front of the free list and put in front of the
active one.  Otherwise `malloc` is asked for a new one. -/

section
variable [DecidableEq α] {m : MemPool α} {w w' : BlockPool} {P P' : Pool α} {p : α}

/-- The end of `_mem_alloc`, for a block that is in no list. -/
lemma keeps_activate (hactive : (m.sub w).active = P.active.head?)
    (hfree : (m.sub w).free = P.free.head?) (hlinked : Linked m.links P.active)
    (hlinked' : Linked m.links P.free) (hp : p ∉ P.blocks)
    (hblocks : ∀ a, a ∈ (P.add p hp).blocks ↔ m.parent a = some w) :
    Keeps ((m.linkFront p (m.sub w).active).setActive w (some p)) w (P.add p hp) := by
  have hparent {b : α} (hb : b ∈ (P.add p hp).blocks) : m.parent b ≠ none := by
    rw [(hblocks b).mp hb]
    exact Option.some_ne_none w
  obtain ⟨hact, hfr⟩ := Pool.not_mem_blocks.mp hp
  have hvalid : m.Valid (m.sub w).active := by
    intro b hb
    rw [hactive] at hb
    have hmem : b ∈ P.blocks := Pool.mem_blocks.mpr (.inl (List.mem_of_head? hb))
    exact hparent ((Pool.mem_blocks_add hp).mpr (.inr hmem))
  have hlinks : ((m.linkFront p (m.sub w).active).setActive w (some p)).links
      = m.links.push P.active.head? p := by
    rw [MemPool.links_setActive, MemPool.links_linkFront
      (hparent ((Pool.mem_blocks_add hp).mpr (.inl rfl))) hvalid, hactive]
  refine ⟨?_, ?_, ?_, ?_, fun b => ?_⟩
  · rw [MemPool.sub_setActive, if_pos rfl]
    rfl
  · rw [MemPool.sub_setActive, if_pos rfl, MemPool.sub_linkFront]
    exact hfree
  · rw [hlinks]
    exact hlinked.push P.nodup_active hact
  · rw [hlinks]
    exact hlinked'.push_other hfr fun b hb => Pool.not_mem_free hb
  · rw [hblocks, MemPool.parent_setActive, MemPool.parent_linkFront]

/-- The other pool does not notice. -/
lemma keeps_activate_other {l : List α} (h' : Keeps m w' P') (hw : w' ≠ w)
    (hactive : (m.sub w).active = l.head?) (hl : ∀ b ∈ l, m.parent b = some w)
    (hp : m.parent p = some w) :
    Keeps ((m.linkFront p (m.sub w).active).setActive w (some p)) w' P' := by
  have hout {b : α} (hb : m.parent b = some w) : b ∉ P'.active ∧ b ∉ P'.free := by
    refine Pool.not_mem_blocks.mp fun hmem => hw ?_
    exact Option.some.inj (((h'.blocks b).mp hmem).symm.trans hb)
  have hvalid : m.Valid (m.sub w).active := by
    intro b hb
    rw [hactive] at hb
    rw [hl b (List.mem_of_head? hb)]
    exact Option.some_ne_none w
  have hlinks : ((m.linkFront p (m.sub w).active).setActive w (some p)).links
      = m.links.push l.head? p := by
    rw [MemPool.links_setActive,
      MemPool.links_linkFront (by rw [hp]; exact Option.some_ne_none w) hvalid, hactive]
  refine h'.congr ?_ ?_ ?_ fun a => by rw [MemPool.parent_setActive, MemPool.parent_linkFront]
  · rw [MemPool.sub_setActive, if_neg hw, MemPool.sub_linkFront]
  · rw [hlinks]
    exact h'.active.push_other (hout hp).1 fun b hb => (hout (hl b hb)).1
  · rw [hlinks]
    exact h'.free.push_other (hout hp).2 fun b hb => (hout (hl b hb)).2

/-- The beginning of `_mem_alloc`, when there is a free block. -/
def MemPool.popFree (m : MemPool α) (w : BlockPool) (p : α) : MemPool α :=
  ((m.setFree w (m.next p)).sub w).free.elim (m.setFree w (m.next p)) fun q =>
    (m.setFree w (m.next p)).setPrev q none

/-- With a free block `malloc` is not asked. -/
lemma memAlloc_reuse (hfree : (m.sub w).free = some p) (malloc : Option α) :
    memAlloc m w malloc = (some p,
      ((m.popFree w p).linkFront p ((m.popFree w p).sub w).active).setActive w (some p)) := by
  simp only [memAlloc, hfree]
  rfl

/-- What it leaves. -/
lemma popFree_spec (h : Keeps m w P) {free : List α} (hfree : P.free = p :: free) :
    (m.popFree w p).links = m.links.unlink p ∧ (m.popFree w p).parent = m.parent ∧
      ((m.popFree w p).sub w).active = P.active.head? ∧
      ((m.popFree w p).sub w).free = free.head? ∧
      ∀ w', w' ≠ w → (m.popFree w p).sub w' = m.sub w' := by
  have hlinked := h.free
  rw [hfree] at hlinked
  have hnext : m.next p = free.head? := hlinked.next_head
  have hpop : ((m.setFree w (m.next p)).sub w).free = free.head? := by
    rw [MemPool.sub_setFree, if_pos rfl, hnext]
  have hvalid : (m.setFree w (m.next p)).Valid free.head? := by
    intro b hb
    rw [MemPool.parent_setFree]
    refine h.parent_ne_none (Pool.mem_blocks.mpr (.inr ?_))
    rw [hfree]
    exact List.mem_cons_of_mem p (List.mem_of_head? hb)
  refine ⟨?_, ?_, ?_, ?_, fun w' hw => ?_⟩
  · rw [MemPool.popFree, hpop, MemPool.links_elim_setPrev hvalid, MemPool.links_setFree,
      Links.unlink_of_prev_none hlinked.prev_head, hlinked.next_head]
  · rw [MemPool.popFree, MemPool.parent_elim_setPrev, MemPool.parent_setFree]
  · rw [MemPool.popFree, MemPool.sub_elim_setPrev, MemPool.sub_setFree, if_pos rfl, h.active_head]
  · rw [MemPool.popFree, MemPool.sub_elim_setPrev, hpop]
  · rw [MemPool.popFree, MemPool.sub_elim_setPrev, MemPool.sub_setFree, if_neg hw]

/-- **`_mem_alloc` lends a free block**, if there is one. -/
theorem keeps_memAlloc_reuse (h : Keeps m w P) {free : List α} (hfree : P.free = p :: free)
    (malloc : Option α) : (memAlloc m w malloc).1 = some p ∧
      Keeps (memAlloc m w malloc).2 w (P.lend hfree) := by
  have hhead : (m.sub w).free = some p := by rw [h.free_head, hfree]; rfl
  rw [memAlloc_reuse hhead]
  refine ⟨rfl, ?_⟩
  obtain ⟨hlinks, hparent, hactive', hfree', -⟩ := popFree_spec h hfree
  have hlinked := h.free
  have hnodup := P.nodup
  have hmem : p ∈ P.free := by rw [hfree]; exact List.mem_cons_self
  rw [hfree] at hlinked hnodup
  have hother := h.free.unlink_other hmem h.active fun b hb hb' => Pool.not_mem_free hb' hb
  have hrest : (P.active ++ free).Nodup := by
    exact hnodup.sublist (List.Sublist.append_left (List.sublist_cons_self p free) _)
  have hp : p ∉ P.active ++ free := (List.nodup_middle.mp hnodup).notMem
  refine keeps_activate (P := ⟨P.active, free, hrest⟩) hactive' hfree' ?_ ?_ hp fun b => ?_
  · rw [hlinks]
    exact hother
  · rw [hlinks]
    exact Linked.unlink_middle (x := []) hlinked (List.nodup_append.mp hnodup).2.1
  · rw [hparent, ← h.blocks, ← Pool.mem_blocks_lend hfree]
    rfl

/-- The other pool does not notice. -/
theorem keeps_memAlloc_reuse_other (h : Keeps m w P) (h' : Keeps m w' P') (hw : w' ≠ w)
    {free : List α} (hfree : P.free = p :: free) (malloc : Option α) :
    Keeps (memAlloc m w malloc).2 w' P' := by
  have hhead : (m.sub w).free = some p := by rw [h.free_head, hfree]; rfl
  rw [memAlloc_reuse hhead]
  obtain ⟨hlinks, hparent, hactive', -, hsub⟩ := popFree_spec h hfree
  have hmem : p ∈ P.free := by rw [hfree]; exact List.mem_cons_self
  have hdisj {b : α} (hb : b ∈ P.free) : b ∉ P'.active ∧ b ∉ P'.free :=
    Pool.not_mem_blocks.mp (h.disjoint h' hw (Pool.mem_blocks.mpr (.inr hb)))
  refine keeps_activate_other (l := P.active) ?_ hw hactive' (fun b hb => ?_) ?_
  · refine h'.congr (hsub w' hw) ?_ ?_ fun a => by rw [hparent]
    · rw [hlinks]
      exact h.free.unlink_other hmem h'.active fun b hb => (hdisj hb).1
    · rw [hlinks]
      exact h.free.unlink_other hmem h'.free fun b hb => (hdisj hb).2
  · rw [hparent]
    exact (h.blocks b).mp (Pool.mem_blocks.mpr (.inl hb))
  · rw [hparent]
    exact (h.blocks p).mp (Pool.mem_blocks.mpr (.inr hmem))

/-- Without a free block, and without memory. -/
lemma memAlloc_failed (hfree : (m.sub w).free = none) : memAlloc m w none = (none, m) := by
  simp only [memAlloc, hfree]

/-- The memory with a new block. -/
def MemPool.create (m : MemPool α) (w : BlockPool) (p : α) : MemPool α :=
  { m with heap := fun a =>
      if a = p then some { parent := w, size := (m.sub w).blockSize } else m.heap a }

/-- Without a free block, but with memory. -/
lemma memAlloc_new (hfree : (m.sub w).free = none) :
    memAlloc m w (some p) = (some p,
      ((m.create w p).linkFront p ((m.create w p).sub w).active).setActive w (some p)) := by
  simp only [memAlloc, hfree]
  rfl

lemma sub_create : (m.create w p).sub w' = m.sub w' := by cases w' <;> rfl

lemma parent_create (b : α) : (m.create w p).parent b = if b = p then some w else m.parent b := by
  simp only [MemPool.parent, MemPool.create]
  split_ifs <;> rfl

/-- A new block is in no list. -/
lemma linked_create {l : List α} (h : Linked m.links l) (hp : p ∉ l) :
    Linked (m.create w p).links l := by
  have hne {b : α} (hb : b ∈ l) : b ≠ p := by
    rintro rfl
    exact hp hb
  refine h.congr (fun b hb => ?_) fun b hb => ?_
  · show ((m.create w p).heap b).bind _ = _
    rw [MemPool.create]
    simp only [if_neg (hne hb)]
    rfl
  · show ((m.create w p).heap b).bind _ = _
    rw [MemPool.create]
    simp only [if_neg (hne hb)]
    rfl

/-- **`_mem_alloc` lends a new block** when none is free. -/
theorem keeps_memAlloc_new (h : Keeps m w P) (hfree : P.free = []) (hp : m.heap p = none) :
    (memAlloc m w (some p)).1 = some p ∧
      Keeps (memAlloc m w (some p)).2 w (P.add p (h.not_mem hp)) := by
  have hhead : (m.sub w).free = none := by rw [h.free_head, hfree]; rfl
  obtain ⟨hact, hfr⟩ := Pool.not_mem_blocks.mp (h.not_mem hp)
  rw [memAlloc_new hhead]
  refine ⟨rfl, keeps_activate ?_ ?_ ?_ ?_ (h.not_mem hp) fun b => ?_⟩
  · rw [sub_create, h.active_head]
  · rw [sub_create, h.free_head]
  · exact linked_create h.active hact
  · exact linked_create h.free hfr
  · rw [Pool.mem_blocks_add, parent_create, h.blocks]
    split_ifs with hb
    · exact ⟨fun _ => rfl, fun _ => .inl hb⟩
    · exact or_iff_right hb

/-- The other pool does not notice. -/
theorem keeps_memAlloc_new_other (h : Keeps m w P) (h' : Keeps m w' P') (hw : w' ≠ w)
    (hfree : P.free = []) (hp : m.heap p = none) : Keeps (memAlloc m w (some p)).2 w' P' := by
  have hhead : (m.sub w).free = none := by rw [h.free_head, hfree]; rfl
  obtain ⟨hact, hfr⟩ := Pool.not_mem_blocks.mp (h'.not_mem hp)
  rw [memAlloc_new hhead]
  refine keeps_activate_other (l := P.active) ?_ hw ?_ (fun b hb => ?_) ?_
  · refine h'.congr sub_create (linked_create h'.active hact) (linked_create h'.free hfr)
      fun a => ?_
    rw [parent_create]
    split_ifs with ha
    · rw [ha, MemPool.parent_eq_none.mpr hp]
      exact ⟨fun hsame => absurd (Option.some.inj hsame).symm hw, fun hsame => by cases hsame⟩
    · rfl
  · rw [sub_create, h.active_head]
  · have hmem : b ∈ P.blocks := Pool.mem_blocks.mpr (.inl hb)
    have hne : b ≠ p := by
      rintro rfl
      exact h.not_mem hp hmem
    rw [parent_create, if_neg hne]
    exact (h.blocks b).mp hmem
  · rw [parent_create, if_pos rfl]

end

end CurlWs
