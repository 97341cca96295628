import CurlWs.Library.Trace
import CurlWs.Memory.Lists

/-!
# Runs of the memory pool

The two pools over whole sequences of calls, with what has been lent and given back read off the
events.

**Who has a block** is a matter of the events alone: the last of them that names it says whether it
is lent, and by which pool (`lentBy`).  That a block is lent only while it is not, and always by the
same pool, is said of every event at its moment (`LendsFairly`).  The lists of the pool, which are
all that the code looks at, have to agree with this (`Accounts`).

**One call** keeps the agreement, whichever of the three functions it is and whatever `malloc`
gives, as long as what it gives is not in use.  Freeing what is free already is a proper call.

* **`Accounts.memStep`** — one call.
* **`pool_sound`** — after any calls, the lists are well formed and hold every block once, those
  that are lent in the one and the rest in the other; and no block was lent twice at a time, or by
  both pools.
-/

namespace CurlWs

open FreeList Trace

variable {α : Type*} [DecidableEq α]

/-- What an event says about a block: it is lent by a pool, or by none. -/
def MemEvent.lends (p : α) : MemEvent α → Option (Option BlockPool)
  | .allocated w q => if q = p then some (some w) else none
  | .failed _ => none
  | .freed q => if q = p then some none else none

/-- The pool that lends a block. -/
def lentBy (t : List (MemEvent α)) (p : α) : Option BlockPool := latest (MemEvent.lends p) none t

/-- A block may be lent if it is not, and only by the pool that has lent it before. -/
def LendsFairly (t : List (MemEvent α)) : MemEvent α → Prop
  | .allocated w p => lentBy t p = none ∧ ∀ w', .allocated w' p ∈ t → w' = w
  | _ => True

/-- The block that has been lent. -/
def MemEvent.obtained : MemEvent α → Option α
  | .allocated _ p => some p
  | .failed _ => none
  | .freed _ => none

omit [DecidableEq α] in
/-- There are no more blocks than calls. -/
lemma length_le_of_allocated {t : List (MemEvent α)} {l : List α} (hl : l.Nodup)
    (h : ∀ a ∈ l, ∃ w, .allocated w a ∈ t) : l.length ≤ t.length := by
  have hsub : l ⊆ t.filterMap MemEvent.obtained := by
    intro a ha
    obtain ⟨w, hw⟩ := h a ha
    exact List.mem_filterMap.mpr ⟨_, hw, rfl⟩
  exact (hl.subperm hsub).length_le.trans (List.length_filterMap_le _ _)

/-- The lists agree with what has happened. -/
structure Accounts (t : List (MemEvent α)) (m : MemPool α) (P : BlockPool → Pool α) : Prop where
  lists : ∀ w, Keeps m w (P w)
  lent : ∀ w a, a ∈ (P w).active ↔ lentBy t a = some w
  created : ∀ w a, a ∈ (P w).blocks ↔ .allocated w a ∈ t
  fair : Always LendsFairly t

section
variable {t : List (MemEvent α)} {m m' : MemPool α} {P : BlockPool → Pool α} {w : BlockPool} {p : α}

/-- The block is lent now, and the others as before. -/
lemma lentBy_allocated (a : α) :
    lentBy (t ++ [.allocated w p]) a = if p = a then some w else lentBy t a := by
  rw [lentBy, latest_concat, MemEvent.lends]
  split_ifs <;> rfl

lemma lentBy_freed (a : α) : lentBy (t ++ [.freed p]) a = if p = a then none else lentBy t a := by
  rw [lentBy, latest_concat, MemEvent.lends]
  split_ifs <;> rfl

/-- A block is in one pool only. -/
lemma Accounts.unique (h : Accounts t m P) {w w' : BlockPool} (hp : p ∈ (P w).blocks)
    (hp' : p ∈ (P w').blocks) : w' = w := by
  by_contra hw
  exact (h.lists w).disjoint (h.lists w') hw hp hp'

/-- **A block has been lent.** -/
lemma Accounts.allocated (h : Accounts t m P) {Q : Pool α} (hQ : Keeps m' w Q)
    (hother : ∀ w', w' ≠ w → Keeps m' w' (P w')) (hactive : Q.active = p :: (P w).active)
    (hblocks : ∀ a, a ∈ Q.blocks ↔ a = p ∨ a ∈ (P w).blocks) (hnot : p ∉ (P w).active)
    (hout : ∀ w', w' ≠ w → p ∉ (P w').blocks) :
    Accounts (t ++ [.allocated w p]) m' (Function.update P w Q) := by
  have hlent : lentBy t p = none := by
    cases hl : lentBy t p with
    | none => rfl
    | some w' =>
        have hmem := (h.lent w' p).mpr hl
        by_cases hw : w' = w
        · exact absurd (hw ▸ hmem) hnot
        · exact absurd (Pool.mem_blocks.mpr (.inl hmem)) (hout w' hw)
  refine ⟨fun w' => ?_, fun w' a => ?_, fun w' a => ?_, always_concat.mpr ⟨h.fair, hlent, ?_⟩⟩
  · by_cases hw : w' = w
    · rw [hw, Function.update_self]
      exact hQ
    · rw [Function.update_of_ne hw]
      exact hother w' hw
  · rw [lentBy_allocated]
    by_cases hw : w' = w
    · rw [hw, Function.update_self, hactive, List.mem_cons, h.lent]
      split_ifs with ha
      · exact ⟨fun _ => rfl, fun _ => .inl ha.symm⟩
      · exact or_iff_right (Ne.symm ha)
    · rw [Function.update_of_ne hw, h.lent]
      split_ifs with ha
      · rw [← ha, hlent]
        refine ⟨fun hno => ?_, fun hsame => absurd (Option.some.inj hsame).symm hw⟩
        cases hno
      · rfl
  · rw [List.mem_append, List.mem_singleton, ← h.created]
    by_cases hw : w' = w
    · rw [hw, Function.update_self, hblocks, MemEvent.allocated.injEq, or_comm]
      exact or_congr_right (and_iff_right rfl).symm
    · rw [Function.update_of_ne hw, MemEvent.allocated.injEq]
      exact (or_iff_left fun hsame => hw hsame.1).symm
  · intro w' hw'
    by_contra hw
    exact hout w' hw ((h.created w' p).mpr hw')

/-- **A block has been given back.** -/
lemma Accounts.freed (h : Accounts t m P) (hp : m.parent p = some w) :
    Accounts (t ++ [.freed p]) (memFree m p) (Function.update P w ((P w).release p)) := by
  have hblock : p ∈ (P w).blocks := ((h.lists w).blocks p).mpr hp
  have hevent (e : MemEvent α) (he : ∀ w a, e ≠ .allocated w a) (w' : BlockPool) (a : α) :
      .allocated w' a ∈ t ++ [e] ↔ .allocated w' a ∈ t := by
    rw [List.mem_append, List.mem_singleton]
    exact or_iff_left fun hsame => he w' a hsame.symm
  refine ⟨fun w' => ?_, fun w' a => ?_, fun w' a => ?_, always_concat.mpr ⟨h.fair, trivial⟩⟩
  · by_cases hw : w' = w
    · rw [hw, Function.update_self]
      exact keeps_memFree (h.lists w) hp
    · rw [Function.update_of_ne hw]
      exact keeps_memFree_other (h.lists w) (h.lists w') hw hp
  · rw [lentBy_freed]
    by_cases hw : w' = w
    · rw [hw, Function.update_self, Pool.mem_active_release, h.lent]
      split_ifs with ha
      · exact ⟨fun hno => absurd ha.symm hno.2, fun hno => by cases hno⟩
      · exact and_iff_left (Ne.symm ha)
    · rw [Function.update_of_ne hw, h.lent]
      split_ifs with ha
      · refine ⟨fun hl => absurd ?_ hw, fun hno => by cases hno⟩
        rw [← ha] at hl
        exact h.unique hblock (Pool.mem_blocks.mpr (.inl ((h.lent w' p).mpr hl)))
      · rfl
  · rw [hevent _ (fun _ _ hsame => by cases hsame), ← h.created]
    by_cases hw : w' = w
    · rw [hw, Function.update_self, Pool.mem_blocks_release hblock]
    · rw [Function.update_of_ne hw]

/-- Nothing has been lent. -/
lemma Accounts.failed (h : Accounts t m P) (w : BlockPool) : Accounts (t ++ [.failed w]) m P := by
  refine ⟨h.lists, fun w' a => ?_, fun w' a => ?_, always_concat.mpr ⟨h.fair, trivial⟩⟩
  · rw [h.lent, lentBy, lentBy, latest_concat]
    rfl
  · rw [h.created, List.mem_append, List.mem_singleton]
    exact (or_iff_left fun hsame => by cases hsame).symm

/-! ## Calls

From the lists before a call to the lists after it, and from there over any number of calls. -/

/-- **An allocation.** -/
theorem Accounts.memAlloc (h : Accounts t m P) (w : BlockPool) {malloc : Option α}
    (hmalloc : ∀ p ∈ malloc, m.heap p = none) :
    ∃ P', Accounts (t ++ [allocEvent w (memAlloc m w malloc).1]) (memAlloc m w malloc).2 P' := by
  cases hfree : (P w).free with
  | cons p free =>
      obtain ⟨hresult, hkeeps⟩ := keeps_memAlloc_reuse (h.lists w) hfree malloc
      have hmem : p ∈ (P w).free := by
        rw [hfree]
        exact List.mem_cons_self
      have hblock : p ∈ (P w).blocks := Pool.mem_blocks.mpr (.inr hmem)
      rw [hresult]
      refine ⟨_, h.allocated hkeeps (fun w' hw => ?_) rfl (fun a => ?_) ?_ fun w' hw hp => ?_⟩
      · exact keeps_memAlloc_reuse_other (h.lists w) (h.lists w') hw hfree malloc
      · rw [Pool.mem_blocks_lend hfree, or_iff_right_of_imp]
        rintro rfl
        exact hblock
      · exact fun hact => Pool.not_mem_free hact hmem
      · exact hw (h.unique hblock hp)
  | nil =>
      cases malloc with
      | none =>
          have hhead : (m.sub w).free = none := by
            rw [(h.lists w).free_head, hfree]
            rfl
          rw [memAlloc_failed hhead]
          exact ⟨P, h.failed w⟩
      | some p =>
          have hp : m.heap p = none := hmalloc p rfl
          obtain ⟨hresult, hkeeps⟩ := keeps_memAlloc_new (h.lists w) hfree hp
          rw [hresult]
          refine ⟨_, h.allocated hkeeps (fun w' hw => ?_) rfl (fun a => ?_) ?_ fun w' hw => ?_⟩
          · exact keeps_memAlloc_new_other (h.lists w) (h.lists w') hw hfree hp
          · exact Pool.mem_blocks_add _
          · exact fun hact => (h.lists w).not_mem hp (Pool.mem_blocks.mpr (.inl hact))
          · exact (h.lists w').not_mem hp

/-- **One call.** -/
theorem Accounts.memStep (h : Accounts t m P) {c : MemCall α} (hc : c.Proper m) :
    ∃ P', Accounts (t ++ [(memStep m c).1]) (memStep m c).2 P' := by
  cases c with
  | allocCtrl malloc => exact h.memAlloc .ctrl hc
  | allocData malloc => exact h.memAlloc .data hc
  | free p =>
      obtain ⟨b, hb⟩ := Option.isSome_iff_exists.mp hc
      have hp : m.parent p = some b.parent := by
        rw [MemPool.parent, hb]
        rfl
      exact ⟨_, h.freed hp⟩

/-- **A sequence of calls.** -/
theorem Accounts.memRun (calls : List (MemCall α)) : ∀ {t : List (MemEvent α)} {m : MemPool α}
    {P : BlockPool → Pool α}, Accounts t m P → ProperCalls m calls →
      ∃ P', Accounts (t ++ (memRun m calls).1) (memRun m calls).2 P' := by
  induction calls with
  | nil =>
      intro t m P h _
      rw [CurlWs.memRun, List.append_nil]
      exact ⟨P, h⟩
  | cons c calls ih =>
      intro t m P h hproper
      obtain ⟨P', h'⟩ := h.memStep hproper.1
      obtain ⟨P'', h''⟩ := ih h' hproper.2
      rw [List.append_assoc, List.singleton_append] at h''
      exact ⟨P'', h''⟩

end

/-- A new pool has no blocks. -/
lemma accounts_memInitPool (controlBlockSize dataBlockSize : ℕ) :
    Accounts [] (memInitPool α controlBlockSize dataBlockSize) fun _ => Pool.empty where
  lists w :=
    { active_head := by cases w <;> rfl
      free_head := by cases w <;> rfl
      active := LinkedList.linked_nil _
      free := LinkedList.linked_nil _
      blocks := fun a => ⟨fun h => absurd h List.not_mem_nil, fun h => by cases h⟩ }
  lent w a := ⟨fun h => absurd h List.not_mem_nil, fun h => by cases h⟩
  created w a := ⟨fun h => absurd h List.not_mem_nil, fun h => absurd h List.not_mem_nil⟩
  fair := always_nil _

/-- **The pool is sound** after any sequence of calls.  The lists are doubly linked, without
repetition, and agree with what has happened: `active` has the blocks that are lent, and with `free`
all that have ever been.  A block was lent only while it was not, and by one pool only.  Giving a
free block back once more leaves the same lists, up to the order of `free`. -/
theorem pool_sound (controlBlockSize dataBlockSize : ℕ) (calls : List (MemCall α))
    (h : ProperCalls (memInitPool α controlBlockSize dataBlockSize) calls) :
    let r := memRun (memInitPool α controlBlockSize dataBlockSize) calls
    ∃ P, Accounts r.1 r.2 P ∧ ∀ w a, a ∈ (P w).free →
      ∃ P' : BlockPool → Pool α, (∀ w', Keeps (memFree r.2 a) w' (P' w')) ∧
        ∀ w', (P' w').active = (P w').active ∧ (P' w').free.Perm (P w').free := by
  intro r
  obtain ⟨P, hP⟩ := (accounts_memInitPool controlBlockSize dataBlockSize).memRun calls h
  rw [List.nil_append] at hP
  refine ⟨P, hP, fun w a ha => ?_⟩
  have hparent : r.2.parent a = some w := ((hP.lists w).blocks a).mp (Pool.mem_blocks.mpr (.inr ha))
  refine ⟨_, (hP.freed hparent).lists, fun w' => ?_⟩
  by_cases hw : w' = w
  · rw [hw, Function.update_self]
    exact Pool.release_free ha
  · rw [Function.update_of_ne hw]
    exact ⟨rfl, List.Perm.refl _⟩

omit [DecidableEq α] in
/-- A free list is what is found along the links. -/
lemma Keeps.free_eq {m : MemPool α} {w : BlockPool} {P : Pool α} (h : Keeps m w P) {l : List α}
    (hl : LinkedList.Follows m.links.next (m.sub w).free l) : P.free = l := by
  rw [h.free_head] at hl
  exact h.free.follows.unique hl

/-- Two blocks are given back, and then the one that is not at the head once more: it changes its
place, and is in the list once. -/
theorem pool_sound_twice :
    let r := memRun (memInitPool ℕ 125 1024)
      [.allocCtrl (some 1), .allocCtrl (some 2), .free 1, .free 2]
    ∃ P, Accounts r.1 r.2 P ∧ (P .ctrl).free = [2, 1] ∧
      ∃ P' : BlockPool → Pool ℕ, Keeps (memFree r.2 1) .ctrl (P' .ctrl) ∧
        (P' .ctrl).active = (P .ctrl).active ∧ (P' .ctrl).free = [1, 2] := by
  intro r
  obtain ⟨P, haccounts, hagain⟩ := pool_sound 125 1024
    [.allocCtrl (some 1), .allocCtrl (some 2), .free 1, .free 2]
    (show ProperCalls (memInitPool ℕ 125 1024) _ by decide +kernel)
  have hfree : (P .ctrl).free = [2, 1] := (haccounts.lists .ctrl).free_eq (by decide +kernel)
  obtain ⟨P', hkeeps, hsame⟩ := hagain .ctrl 1 (by rw [hfree]; decide)
  exact ⟨P, haccounts, hfree, P', hkeeps .ctrl, (hsame .ctrl).1,
    (hkeeps .ctrl).free_eq (by decide +kernel)⟩

end CurlWs
