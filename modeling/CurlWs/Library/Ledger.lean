import CurlWs.Library.Trace

/-!
# Blocks of memory

What a program has asked for and given back, as the events of its run.  A block is live from the
moment it was obtained until it is freed, and only a live block may be freed.

`Settled` is what a program has to keep up: that all its frees were of live blocks, and that the
blocks it holds are exactly the live ones.  Nothing is lost as long as this is so, and nothing is
left when it holds nothing.  The blocks are counted in a multiset, so that a name that is obtained
twice would count twice; no assumption is made that `malloc` gives new names.

* `Settled.obtained`, `Settled.refused`, `Settled.freed` — what each event does to what is held.
* **`settled_free`** — the blocks that a program holds can be freed one after another, and then
  there are none.
-/

namespace Ledger

open Trace

variable {α : Type*} [DecidableEq α]

/-- What has happened to a block. -/
inductive HeapEvent (α : Type*) where
  | obtained (p : α)
  | refused
  | freed (p : α)
  deriving DecidableEq, Repr

/-- The live blocks. -/
def live (log : List (HeapEvent α)) : Multiset α :=
  log.foldl
    (fun blocks e =>
      match e with
      | .obtained p => p ::ₘ blocks
      | .refused => blocks
      | .freed p => blocks.erase p)
    0

@[simp] lemma live_nil : live ([] : List (HeapEvent α)) = 0 := rfl

@[simp] lemma live_obtained (log : List (HeapEvent α)) (p : α) :
    live (log ++ [.obtained p]) = p ::ₘ live log := by
  rw [live, List.foldl_append]
  rfl

@[simp] lemma live_refused (log : List (HeapEvent α)) : live (log ++ [.refused]) = live log := by
  rw [live, List.foldl_append]
  rfl

@[simp] lemma live_freed (log : List (HeapEvent α)) (p : α) :
    live (log ++ [.freed p]) = (live log).erase p := by
  rw [live, List.foldl_append]
  rfl

/-- A block is freed while it is live. -/
def MayHappen (log : List (HeapEvent α)) : HeapEvent α → Prop
  | .freed p => p ∈ live log
  | _ => True

/-- Nothing has been freed that was not live, and the blocks that are held are the live ones. -/
structure Settled (log : List (HeapEvent α)) (held : Multiset α) : Prop where
  fair : Always MayHappen log
  live : live log = held

variable {log : List (HeapEvent α)} {held : Multiset α}

lemma settled_nil : Settled ([] : List (HeapEvent α)) 0 := ⟨always_nil _, rfl⟩

/-- A new block is held. -/
lemma Settled.obtained (h : Settled log held) (p : α) :
    Settled (log ++ [.obtained p]) (p ::ₘ held) :=
  ⟨always_concat.mpr ⟨h.fair, trivial⟩, by rw [live_obtained, h.live]⟩

lemma Settled.refused (h : Settled log held) : Settled (log ++ [.refused]) held :=
  ⟨always_concat.mpr ⟨h.fair, trivial⟩, by rw [live_refused, h.live]⟩

/-- A block is held no more. -/
lemma Settled.freed {p : α} (h : Settled log (p ::ₘ held)) : Settled (log ++ [.freed p]) held := by
  refine ⟨always_concat.mpr ⟨h.fair, ?_⟩, ?_⟩
  · rw [MayHappen, h.live]
    exact Multiset.mem_cons_self p held
  · rw [live_freed, h.live, Multiset.erase_cons_head]

/-- **What is held can be freed**, in any order. -/
theorem settled_free (ps : List α) : ∀ {log : List (HeapEvent α)} {held : Multiset α},
    Settled log (↑ps + held) → Settled (log ++ ps.map .freed) held := by
  induction ps with
  | nil =>
      intro log held h
      rw [List.map_nil, List.append_nil]
      exact (zero_add held) ▸ h
  | cons p ps ih =>
      intro log held h
      rw [← Multiset.cons_coe, Multiset.cons_add] at h
      rw [List.map_cons, List.append_cons]
      exact ih h.freed

end Ledger
