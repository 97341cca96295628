import CurlWs.Memory.Nodes
import CurlWs.Send.Queue

/-!
# The queue in memory is the list

The blocks reached from `priv->send` hold the buffers of the list in its order, and they are the
blocks that are lent, no more and no fewer.  Every function of `send.c` keeps it so.

**The relation.**  `Represents` ties four things together: the pool and its events, the walk along
the links forward, the buffers in the blocks that are met, and which blocks are lent.  Between two
functions the blocks of the queue are all that is lent.  Inside of one there may be a block that has
been obtained and is not linked yet, or has been taken off and is not given back yet; such blocks
are `spare`.  Of the links back only those of the lent blocks are ever written, and none is read, so
that the relation does not mention them.

**The functions** are followed write by write.  Each theorem says that the function in memory is not
`none`, that it returns what the function on the list returns, and that the relation holds again
afterwards, with the events it has added.

* **`represents_sendFrame`** — a frame is queued, or nothing happens for want of memory.
* **`represents_fillOutgoingBuffer`** — a drain hands out the same bytes.
* **`represents_sendDestroy`** — all blocks are given back.
-/

namespace CurlWs

open FreeList LinkedList Trace

variable {α : Type*} [DecidableEq α]

/-- The queue in memory is `queue`, in the blocks `l`; besides them the blocks `spare` are lent. -/
structure Represents (q : SendMemory α) (spare l : List α) (queue : List BufQueue) : Prop where
  accounts : ∃ P, Accounts q.events q.mem P
  chain : Follows (fun a => (q.node a).next) q.send l
  bufs : l.map (fun a => (q.node a).buf) = queue
  lent : ∀ a, q.lent a = true ↔ a ∈ spare ∨ a ∈ l
  apart : ∀ a ∈ spare, a ∉ l

section

variable {q q' : SendMemory α} {spare l : List α} {queue : List BufQueue} {p a : α}

/-! ## Blocks that are lent

To read or write a lent block is no error. -/

lemma load_of_lent (h : q.lent p = true) : q.load p = some (q.node p) := if_pos h

lemma modify_of_lent (h : q.lent p = true) (f : BufNode α → BufNode α) :
    q.modify p f = some { q with node := Function.update q.node p (f (q.node p)) } := if_pos h

lemma free_of_lent (h : q.lent p = true) :
    q.free p = some { q with mem := memFree q.mem p, events := q.events ++ [.freed p] } := if_pos h

lemma Represents.lent_of_mem (h : Represents q spare l queue) (hp : p ∈ l) : q.lent p = true :=
  (h.lent p).mpr (.inr hp)

/-- A block that is lent has been allocated. -/
lemma allocated_of_lent {t : List (MemEvent α)} (h : (lentBy t p).isSome = true) :
    ∃ w, .allocated w p ∈ t := by
  induction t using List.reverseRecOn with
  | nil => cases h
  | append_singleton t e ih =>
      rw [lentBy, latest_concat] at h
      have hbefore (hnone : e.lends p = none) : ∃ w, .allocated w p ∈ t ++ [e] := by
        rw [hnone] at h
        obtain ⟨w, hw⟩ := ih h
        exact ⟨w, List.mem_append_left _ hw⟩
      cases e with
      | allocated w b =>
          by_cases hb : b = p
          · exact ⟨w, List.mem_append_right _ (hb ▸ List.mem_singleton_self _)⟩
          · exact hbefore (if_neg hb)
      | failed w => exact hbefore rfl
      | freed b =>
          by_cases hb : b = p
          · rw [show MemEvent.lends p (.freed b) = some none from if_pos hb] at h
            cases h
          · exact hbefore (if_neg hb)

/-- The queue is no longer than what has been allocated. -/
lemma Represents.length_le (h : Represents q spare l queue) : l.length ≤ q.events.length :=
  length_le_of_allocated h.chain.nodup fun _ ha => allocated_of_lent (h.lent_of_mem ha)

/-! ## The pool

What obtaining and giving back a block does to the relation: a spare block comes or goes, and the
queue is left alone. -/

/-- A block is obtained, or there is none. -/
theorem Represents.alloc (h : Represents q spare l queue) (w : BlockPool) {malloc : Option α}
    (hmalloc : ∀ p ∈ malloc, q.mem.heap p = none) :
    ((q.alloc w malloc).1 = none ∧ Represents (q.alloc w malloc).2 spare l queue) ∨
      ∃ p, (q.alloc w malloc).1 = some p ∧ Represents (q.alloc w malloc).2 (p :: spare) l queue := by
  obtain ⟨P, hP⟩ := h.accounts
  have haccounts := hP.memAlloc w hmalloc
  cases hr : (memAlloc q.mem w malloc).1 with
  | none =>
      have halloc : (q.alloc w malloc).1 = none := hr
      rw [hr] at haccounts
      refine .inl ⟨halloc, ?_, h.chain, h.bufs, fun a => ?_, h.apart⟩
      · rw [SendMemory.alloc]
        simp only [hr]
        exact haccounts
      · rw [← h.lent a, SendMemory.alloc, SendMemory.lent, SendMemory.lent]
        simp only [hr]
        rw [lentBy, latest_concat]
        rfl
  | some p =>
      have halloc : (q.alloc w malloc).1 = some p := hr
      rw [hr] at haccounts
      obtain ⟨P', hP'⟩ := haccounts
      -- only what is not lent is allocated
      have hnot : q.lent p = false := by
        rw [SendMemory.lent, (always_concat.mp hP'.fair).2.1]
        rfl
      refine .inr ⟨p, halloc, ⟨P', ?_⟩, h.chain, h.bufs, fun a => ?_, fun a ha => ?_⟩
      · rw [SendMemory.alloc]
        simp only [hr]
        exact hP'
      · have hlent : (q.alloc w malloc).2.lent a = if p = a then true else q.lent a := by
          rw [SendMemory.alloc, SendMemory.lent, SendMemory.lent]
          simp only [hr]
          rw [show allocEvent w (some p) = .allocated w p from rfl, lentBy_allocated]
          split_ifs <;> rfl
        rw [hlent, List.mem_cons, or_assoc, ← h.lent a]
        split_ifs with hpa
        · exact ⟨fun _ => .inl hpa.symm, fun _ => rfl⟩
        · exact (or_iff_right (Ne.symm hpa)).symm
      · rcases List.mem_cons.mp ha with rfl | ha
        · exact fun hmem => absurd (hnot.symm.trans (h.lent_of_mem hmem)) (by decide)
        · exact h.apart a ha

/-- A spare block is given back. -/
theorem Represents.free (h : Represents q (p :: spare) l queue) (hp : p ∉ spare) :
    ∃ q', q.free p = some q' ∧ Represents q' spare l queue ∧
      q' = { q with mem := q'.mem, events := q.events ++ [.freed p] } := by
  have hlent : q.lent p = true := (h.lent p).mpr (.inl List.mem_cons_self)
  refine ⟨_, free_of_lent hlent, ⟨?_, h.chain, h.bufs, fun a => ?_, fun a ha => ?_⟩, rfl⟩
  · obtain ⟨P, hP⟩ := h.accounts
    obtain ⟨w, hw⟩ := Option.isSome_iff_exists.mp hlent
    have hactive := (hP.lent w p).mpr hw
    exact ⟨_, hP.freed (((hP.lists w).blocks p).mp (Pool.mem_blocks.mpr (.inl hactive)))⟩
  · have hiff := h.lent a
    rw [SendMemory.lent] at hiff ⊢
    rw [lentBy_freed]
    split_ifs with hpa
    · refine ⟨fun hno => Bool.noConfusion hno, fun hmem => ?_⟩
      rcases hmem with hmem | hmem
      · exact absurd (hpa ▸ hmem) hp
      · exact absurd (hpa ▸ hmem) (h.apart p List.mem_cons_self)
    · rw [hiff, List.mem_cons, or_assoc, or_iff_right (Ne.symm hpa)]
  · exact h.apart a (List.mem_cons_of_mem p ha)

/-! ## The walk

From the head to the node without a successor, which is reached because the queue is a walk that
comes to its end. -/

/-- **The last node** is found. -/
lemma lastNode_eq {x : List α} {a z : α} (hlent : ∀ b ∈ x ++ [z], q.lent b = true) (fuel : ℕ) :
    Follows (fun a => (q.node a).next) (some a) (x ++ [z]) → (x ++ [z]).length ≤ fuel →
      q.lastNode fuel a = some z := by
  induction fuel generalizing a x with
  | zero =>
      intro _ hlen
      rw [List.length_append, List.length_singleton] at hlen
      omega
  | succ fuel ih =>
      intro hchain hlen
      cases x with
      | nil =>
          obtain ⟨haz, hnext⟩ := hchain
          obtain rfl := Option.some.inj haz
          have hload := load_of_lent (hlent a (List.mem_singleton_self a))
          have hnext' : (q.node a).next = none := hnext
          simp only [SendMemory.lastNode, hload, Option.bind_eq_bind, Option.bind_some, hnext']
      | cons b x =>
          obtain ⟨hab, hnext⟩ := hchain
          obtain rfl := Option.some.inj hab
          have hload := load_of_lent (hlent a List.mem_cons_self)
          have hhead : (q.node a).next = (x ++ [z]).head? := hnext.head
          have hrest : ∀ b ∈ x ++ [z], q.lent b = true :=
            fun b hb => hlent b (List.mem_cons_of_mem a hb)
          obtain ⟨b, hb⟩ : ∃ b, (x ++ [z]).head? = some b := by
            cases x with
            | nil => exact ⟨z, rfl⟩
            | cons c x => exact ⟨c, rfl⟩
          rw [hb] at hhead
          simp only [SendMemory.lastNode, hload, Option.bind_eq_bind, Option.bind_some, hhead]
          refine ih hrest ?_ (by simpa using hlen)
          rw [← hhead]
          exact hnext

/-! ## `send_frame`

The new node has no successor and is not in the queue.  Wherever it is linked, the walk afterwards
is the list with the new buffer in its place. -/

/-- A spare block has been linked into the queue. -/
lemma Represents.linked (h : Represents q [p] l queue) (node' : α → BufNode α)
    (send' : Option α) {l' : List α} (hchain : Follows (fun a => (node' a).next) send' l')
    (hbuf : ∀ a, (node' a).buf = (q.node a).buf) (hmem : ∀ a, a ∈ l' ↔ a = p ∨ a ∈ l) :
    Represents { q with node := node', send := send' } [] l'
      (l'.map fun a => (q.node a).buf) := by
  refine ⟨h.accounts, hchain, List.map_congr_left fun a _ => hbuf a, fun a => ?_,
    List.forall_mem_nil _⟩
  have hlent := h.lent a
  rw [List.mem_singleton, ← hmem] at hlent
  exact hlent.trans (or_iff_right List.not_mem_nil).symm

/-- Two nodes are written. -/
lemma modify_modify (hp : q.lent p = true) (ha : q.lent a = true) (hap : a ≠ p)
    (f g : BufNode α → BufNode α) :
    ((q.modify p f).bind fun q => q.modify a g) = some { q with
      node := Function.update (Function.update q.node p (f (q.node p))) a (g (q.node a)) } := by
  rw [modify_of_lent hp, Option.bind_some]
  refine (modify_of_lent (q := { q with node := Function.update q.node p _ }) ha g).trans ?_
  simp only [Function.update_of_ne hap]

/-- The links of the two nodes have changed, and nothing else. -/
lemma update_update_buf {m n : BufNode α} (hm : m.buf = (q.node p).buf) (hn : n.buf = (q.node a).buf)
    (b : α) :
    (Function.update (Function.update q.node p m) a n b).buf = (q.node b).buf := by
  by_cases hb : b = a
  · rw [hb, Function.update_self, hn]
  · rw [Function.update_of_ne hb]
    by_cases hb' : b = p
    · rw [hb', Function.update_self, hm]
    · rw [Function.update_of_ne hb']

/-- **The new buffer is linked into the queue.** -/
theorem Represents.link (h : Represents q [p] l queue) (hend : (q.node p).next = none)
    (isUrgent : Bool) :
    ∃ q' l', q.link p isUrgent = some q' ∧
      Represents q' [] l' (enqueue queue (q.node p).buf isUrgent) ∧
      q' = { q with node := q'.node, send := q'.send } := by
  have hp : q.lent p = true := (h.lent p).mpr (.inl (List.mem_singleton_self p))
  have hnew : p ∉ l := h.apart p (List.mem_singleton_self p)
  have hne {a : α} (ha : a ∈ l) : a ≠ p := fun hap => hnew (hap ▸ ha)
  obtain rfl := h.bufs
  cases l with
  | nil =>
      have hsend : q.send = none := h.chain
      refine ⟨{ q with send := some p }, [p], by rw [SendMemory.link, hsend], ?_, rfl⟩
      exact h.linked q.node _ ⟨rfl, hend⟩ (fun _ => rfl) fun a => by simp
  | cons head rest =>
      obtain ⟨hsend, hrest⟩ := h.chain
      have hhead := h.lent_of_mem List.mem_cons_self
      have hheadp : head ≠ p := hne List.mem_cons_self
      have hnodup := List.nodup_cons.mp h.chain.nodup
      have hother {a : α} (ha : a ∈ rest) {m n : BufNode α} :
          Function.update (Function.update q.node p m) head n a = q.node a := by
        have hah : a ≠ head := fun hah => hnodup.1 (hah ▸ ha)
        rw [Function.update_of_ne hah, Function.update_of_ne (hne (List.mem_cons_of_mem _ ha))]
      rw [SendMemory.link, hsend]
      simp only [load_of_lent hhead, Option.bind_eq_bind, Option.bind_some, List.map_cons, enqueue]
      cases isUrgent with
      | true =>
          rw [if_pos rfl, if_pos rfl]
          split_ifs with hsent
          · -- behind the head, which has begun to leave
            refine ⟨_, head :: p :: rest, modify_modify hp hhead hheadp _ _, ?_, rfl⟩
            refine h.linked _ _ ⟨hsend, ?_, ?_⟩ (update_update_buf rfl rfl) fun a => ?_
            · simp only [Function.update_self]
            · simp only [Function.update_of_ne hheadp.symm, Function.update_self]
              exact hrest.congr fun a ha => by simp only [hother ha]
            · rw [List.mem_cons, List.mem_cons, List.mem_cons, or_left_comm]
          · refine ⟨_, p :: head :: rest,
              modify_modify (q := { q with send := some p }) hp hhead hheadp _ _, ?_, rfl⟩
            refine h.linked _ _ ⟨rfl, ?_, ?_⟩ (update_update_buf rfl rfl) fun a => List.mem_cons
            · simp only [Function.update_of_ne hheadp.symm, Function.update_self]
            · simp only [Function.update_self]
              exact hrest.congr fun a ha => by simp only [hother ha]
      | false =>
          rw [if_neg (by decide), if_neg (by decide)]
          obtain ⟨x, z, hxz⟩ : ∃ x z, head :: rest = x ++ [z] :=
            (List.eq_nil_or_concat' _).resolve_left (List.cons_ne_nil _ _)
          have hchain := h.chain
          have hlen := h.length_le
          rw [hsend, hxz] at hchain
          rw [hxz] at hlen hne
          have hlentz : ∀ b ∈ x ++ [z], q.lent b = true :=
            fun b hb => h.lent_of_mem (hxz ▸ hb)
          have hz : z ∈ x ++ [z] := List.mem_append_right x (List.mem_singleton_self z)
          rw [lastNode_eq hlentz _ hchain hlen, Option.bind_some]
          refine ⟨_, x ++ [z, p], modify_modify hp (hlentz z hz) (hne hz) _ _, ?_, rfl⟩
          have hqueue : (q.node head).buf :: rest.map (fun a => (q.node a).buf) ++ [(q.node p).buf]
              = (x ++ [z, p]).map fun a => (q.node a).buf := by
            rw [← List.map_cons (f := fun a => (q.node a).buf), hxz, List.map_append,
              List.map_append, List.append_assoc]
            rfl
          rw [hqueue]
          refine h.linked _ q.send ?_ (update_update_buf rfl rfl) fun a => ?_
          · rw [hsend]
            refine hchain.concat ?_ ?_ fun a ha => ?_
            · simp only [Function.update_self]
            · simp only [Function.update_of_ne (hne hz).symm, Function.update_self]
              exact hend
            · have haz : a ≠ z := by
                rintro rfl
                have hnodup' := hchain.nodup
                exact (List.nodup_append.mp hnodup').2.2 a ha a (List.mem_singleton_self a) rfl
              simp only [Function.update_of_ne haz,
                Function.update_of_ne (hne (List.mem_append_left _ ha))]
          · rw [hxz]
            simp only [List.mem_append, List.mem_cons, List.not_mem_nil, or_false]
            tauto

/-- **`send_frame`** queues the frame, or does nothing for want of memory. -/
theorem represents_sendFrame (h : Represents q [] l queue) (f : CwsFrame) {malloc : Option α}
    (hmalloc : ∀ p ∈ malloc, q.mem.heap p = none) :
    (∃ q', q.sendFrame f malloc = some (.outOfMemory, q') ∧ Represents q' [] l queue ∧
        q' = { q with mem := q'.mem, events := q.events ++ [.failed (SendMemory.poolOf f)] }) ∨
      ∃ q' l' p, q.sendFrame f malloc = some (.ok, q') ∧
        Represents q' [] l' (enqueue queue (encodedBuf q.cfg f) f.isUrgent) ∧
        q'.cfg = q.cfg ∧ q'.closeSent = q.closeSent ∧
        q'.events = q.events ++ [.allocated (SendMemory.poolOf f) p] := by
  rcases h.alloc (SendMemory.poolOf f) hmalloc with ⟨hnone, halloc⟩ | ⟨p, hsome, halloc⟩
  · refine .inl ⟨(q.alloc (SendMemory.poolOf f) malloc).2, ?_, halloc, ?_⟩
    · simp only [SendMemory.sendFrame, hnone]
    · have hr : (memAlloc q.mem (SendMemory.poolOf f) malloc).1 = none := hnone
      simp only [SendMemory.alloc, hr]
      rfl
  · have hr : (memAlloc q.mem (SendMemory.poolOf f) malloc).1 = some p := hsome
    have hevents : (q.alloc (SendMemory.poolOf f) malloc).2.events
        = q.events ++ [.allocated (SendMemory.poolOf f) p] := by
      simp only [SendMemory.alloc, hr]
      rfl
    generalize hq₁ : (q.alloc (SendMemory.poolOf f) malloc).2 = q₁ at halloc hevents
    have hlent : q₁.lent p = true := (halloc.lent p).mpr (.inl (List.mem_singleton_self p))
    have hcfg : q₁.cfg = q.cfg := by rw [← hq₁]; rfl
    -- the block is new to the queue, so what it held does not matter
    have hnew : p ∉ l := halloc.apart p (List.mem_singleton_self p)
    have hset : Represents { q₁ with
        node := Function.update q₁.node p { buf := encodedBuf q.cfg f } } [p] l queue := by
      have hsame {a : α} (ha : a ∈ l) {n : BufNode α} :
          Function.update q₁.node p n a = q₁.node a :=
        Function.update_of_ne (ne_of_mem_of_not_mem ha hnew) _ _
      refine ⟨halloc.accounts, ?_, ?_, halloc.lent, halloc.apart⟩
      · exact halloc.chain.congr fun a ha => by simp only [hsame ha]
      · rw [← halloc.bufs]
        exact List.map_congr_left fun a ha => by simp only [hsame ha]
    obtain ⟨q', l', hlink, hq', heq⟩ := hset.link (by simp only [Function.update_self]) f.isUrgent
    simp only [Function.update_self] at hq'
    refine .inr ⟨q', l', p, ?_, hq', ?_, ?_, ?_⟩
    · simp only [SendMemory.sendFrame, hsome, hq₁, modify_of_lent hlent, Option.bind_eq_bind,
        Option.bind_some, hlink]
    · rw [heq, ← hcfg]
    · rw [heq, ← hq₁]
      rfl
    · rw [heq]
      exact hevents

/-! ## Blocks are given back

The head leaves the queue and becomes spare, and is then given back. -/

/-- `priv->send` has moved on. -/
lemma Represents.pop {b : BufQueue} (h : Represents q [] (p :: l) (b :: queue)) :
    Represents { q with send := (q.node p).next } [p] l queue := by
  refine ⟨h.accounts, h.chain.2, (List.cons.inj h.bufs).2, fun a => ?_, fun a ha => ?_⟩
  · rw [List.mem_singleton, ← List.mem_cons]
    exact (h.lent a).trans (or_iff_right List.not_mem_nil)
  · rw [List.mem_singleton.mp ha]
    exact (List.nodup_cons.mp h.chain.nodup).1

/-- The links back do not matter. -/
lemma Represents.setPrev (h : Represents q spare l queue) (hp : p ∈ l) (v : Option α) :
    ∃ q', q.modify p (fun n => { n with prev := v }) = some q' ∧ Represents q' spare l queue ∧
      q' = { q with node := q'.node } := by
  refine ⟨_, modify_of_lent (h.lent_of_mem hp) _, ⟨h.accounts, ?_, ?_, h.lent, h.apart⟩, rfl⟩
  · refine h.chain.congr fun a _ => ?_
    by_cases ha : a = p
    · simp only [ha, Function.update_self]
    · simp only [Function.update_of_ne ha]
  · rw [← h.bufs]
    refine List.map_congr_left fun a _ => ?_
    by_cases ha : a = p
    · simp only [ha, Function.update_self]
    · simp only [Function.update_of_ne ha]

/-- **The head is recycled.** -/
lemma represents_recycle {b : BufQueue} (h : Represents q [] (p :: l) (b :: queue))
    (dataToSend : ℕ) :
    ∃ q', q.recycle p dataToSend =
        some (dataToSend + (queue.head?.map (·.written)).getD 0, q') ∧
      Represents q' [] l queue ∧ q'.cfg = q.cfg ∧ q'.closeSent = q.closeSent ∧
      q'.events = q.events ++ [.freed p] := by
  have hload := load_of_lent (h.lent_of_mem List.mem_cons_self)
  have hpop := h.pop
  have hnext : (q.node p).next = l.head? := h.chain.2.head
  obtain rfl := hpop.bufs
  cases l with
  | nil =>
      have hnone : (q.node p).next = none := hnext
      rw [hnone] at hpop
      obtain ⟨q', hfree, hq', heq⟩ := hpop.free List.not_mem_nil
      refine ⟨q', ?_, hq', by rw [heq], by rw [heq], by rw [heq]⟩
      simp only [SendMemory.recycle, hload, Option.bind_eq_bind, Option.bind_some, hnone, hfree]
      rfl
  | cons next l =>
      have hsome : (q.node p).next = some next := hnext
      rw [hsome] at hpop
      obtain ⟨q₁, hmodify, hq₁, heq₁⟩ := hpop.setPrev List.mem_cons_self none
      obtain ⟨q', hfree, hq', heq⟩ := hq₁.free List.not_mem_nil
      have hwritten : (q₁.node next).buf = (q.node next).buf := (List.cons.inj hq₁.bufs).1
      refine ⟨q', ?_, hq', by rw [heq, heq₁], by rw [heq, heq₁], by rw [heq, heq₁]⟩
      simp only [SendMemory.recycle, hload, Option.bind_eq_bind, Option.bind_some, hsome, hmodify,
        load_of_lent (hq₁.lent_of_mem List.mem_cons_self), hfree, hwritten]
      rfl

/-- The head is given back, with `priv->send` set afterwards. -/
lemma Represents.free_head {b : BufQueue} (h : Represents q [] (p :: l) (b :: queue)) :
    ∃ q', q.free p = some q' ∧ Represents { q' with send := (q.node p).next } [] l queue ∧
      q' = { q with mem := q'.mem, events := q.events ++ [.freed p] } := by
  obtain ⟨q', hfree, hq', heq⟩ := h.pop.free List.not_mem_nil
  have hlent : q.lent p = true := h.lent_of_mem List.mem_cons_self
  have hlent' : ({ q with send := (q.node p).next } : SendMemory α).lent p = true := hlent
  rw [free_of_lent hlent'] at hfree
  obtain rfl := Option.some.inj hfree
  exact ⟨_, free_of_lent hlent, hq', rfl⟩

/-- The loop of `send_destroy` frees the queue, from the head on. -/
lemma represents_destroyLoop (fuel : ℕ) : ∀ {q : SendMemory α} {l : List α} {queue : List BufQueue},
    Represents q [] l queue → l.length ≤ fuel →
      ∃ q', SendMemory.destroyLoop fuel q = some q' ∧ Represents q' [] [] [] ∧ q'.cfg = q.cfg ∧
        q'.closeSent = q.closeSent ∧ q'.events = q.events ++ l.map .freed := by
  induction fuel with
  | zero =>
      intro q l queue h hlen
      obtain rfl := List.length_eq_zero_iff.mp (Nat.le_zero.mp hlen)
      obtain rfl := h.bufs
      have hsend : q.send = none := h.chain
      refine ⟨q, if_pos hsend, h, rfl, rfl, ?_⟩
      rw [List.map_nil, List.append_nil]
  | succ fuel ih =>
      intro q l queue h hlen
      obtain rfl := h.bufs
      cases l with
      | nil =>
          have hsend : q.send = none := h.chain
          refine ⟨q, by simp only [SendMemory.destroyLoop, hsend], h, rfl, rfl, ?_⟩
          rw [List.map_nil, List.append_nil]
      | cons p l =>
          have hsend : q.send = some p := h.chain.1
          have hload := load_of_lent (h.lent_of_mem List.mem_cons_self)
          obtain ⟨q₁, hfree, hq₁, heq₁⟩ := h.free_head
          obtain ⟨q', hloop, hq', hcfg, hsent, hevents⟩ := ih hq₁ (by simpa using hlen)
          refine ⟨q', ?_, hq', ?_, ?_, ?_⟩
          · simp only [SendMemory.destroyLoop, hsend, hload, Option.bind_eq_bind, Option.bind_some,
              hfree, hloop]
          · rw [hcfg, heq₁]
          · rw [hsent, heq₁]
          · rw [hevents, heq₁, List.append_assoc]
            rfl

/-- **`send_destroy`** gives every block of the queue back. -/
theorem represents_sendDestroy (h : Represents q [] l queue) :
    ∃ q', q.sendDestroy = some q' ∧ Represents q' [] [] [] ∧ q'.cfg = q.cfg ∧
      q'.closeSent = q.closeSent ∧ q'.events = q.events ++ l.map .freed :=
  represents_destroyLoop _ h h.length_le

/-! ## `_fill_outgoing_buffer`

By induction on the room that is left, together with the loop on the list. -/

/-- The buffer of the head is written. -/
lemma Represents.advance {b : BufQueue} (h : Represents q [] (p :: l) (b :: queue))
    (f : BufQueue → BufQueue) :
    ∃ q', q.modify p (fun n => { n with buf := f n.buf }) = some q' ∧
      Represents q' [] (p :: l) (f b :: queue) ∧ q' = { q with node := q'.node } := by
  have hb : (q.node p).buf = b := (List.cons.inj h.bufs).1
  have hnot := (List.nodup_cons.mp h.chain.nodup).1
  refine ⟨_, modify_of_lent (h.lent_of_mem List.mem_cons_self) _,
    ⟨h.accounts, ?_, ?_, h.lent, h.apart⟩, rfl⟩
  · refine h.chain.congr fun a _ => ?_
    by_cases ha : a = p
    · simp only [ha, Function.update_self]
    · simp only [Function.update_of_ne ha]
  · rw [List.map_cons]
    refine congrArg₂ List.cons ?_ ?_
    · simp only [Function.update_self, hb]
    · rw [← (List.cons.inj h.bufs).2]
      exact List.map_congr_left fun a ha => by
        simp only [Function.update_of_ne (ne_of_mem_of_not_mem ha hnot)]

/-- The queue in memory after a drain that leaves the list in the state `s`. -/
structure Drained (q q' : SendMemory α) (s : Cws) : Prop where
  represents : ∃ l, Represents q' [] l s.send
  cfg : q'.cfg = q.cfg
  closeSent : q'.closeSent = s.closeState.sent
  events : ∃ freed : List α, q'.events = q.events ++ freed.map .freed

/-- Blocks have been freed before the rest of the drain. -/
lemma Drained.after {q₁ : SendMemory α} {s : Cws} (h : Drained q₁ q' s) (hcfg : q₁.cfg = q.cfg)
    (freed : List α) (hevents : q₁.events = q.events ++ freed.map .freed) : Drained q q' s := by
  obtain ⟨freed', hfreed⟩ := h.events
  refine ⟨h.represents, h.cfg.trans hcfg, h.closeSent, freed ++ freed', ?_⟩
  rw [hfreed, hevents, List.map_append, List.append_assoc]

/-- **The loop of `_fill_outgoing_buffer`**, entered with what is left of the head. -/
theorem represents_fillLoop (fuel : ℕ) : ∀ (len : ℕ) {left : ℕ} {q : SendMemory α}
    {l : List α} {s : Cws}, Represents q [] l s.send → q.closeSent = s.closeState.sent → Tidy s.send →
    (∀ b ∈ s.send.head?, left = b.written - b.sent) → (s.send = [] → left = 0) →
      ∃ q', q.fillLoop fuel len left = some ((fillLoop fuel s len left).1, q') ∧
        Drained q q' (fillLoop fuel s len left).2 := by
  induction fuel with
  | zero =>
      intro len left q l s h hsent _ _ _
      exact ⟨q, rfl, ⟨l, h⟩, rfl, hsent, [], (List.append_nil _).symm⟩
  | succ fuel ih =>
      intro len left q l s h hsent ht hleft hnil
      by_cases hstop : len = 0 ∨ left = 0
      · rw [fillLoop_stop _ hstop]
        exact ⟨q, if_neg (by omega), ⟨l, h⟩, rfl, hsent, [], (List.append_nil _).symm⟩
      cases hs : s.send with
      | nil => exact absurd (hnil hs) (not_or.mp hstop).2
      | cons head rest =>
          rw [hs] at h ht hleft
          have hleft' : left = head.written - head.sent := hleft head rfl
          cases l with
          | nil => exact absurd h.bufs.symm (List.cons_ne_nil _ _)
          | cons p l =>
              have hsend : q.send = some p := h.chain.1
              have hload := load_of_lent (h.lent_of_mem List.mem_cons_self)
              have hbuf : (q.node p).buf = head := (List.cons.inj h.bufs).1
              rw [fillLoop_cons hs fuel (by omega) (by omega) rfl]
              generalize hk : min len left = k
              have hk' : (if left < len then left else len) = k := by
                rw [← hk]
                split_ifs <;> omega
              obtain ⟨q₁, hmodify, hq₁, heq₁⟩ :=
                h.advance fun b => { b with sent := b.sent + k }
              have hload₁ := load_of_lent (hq₁.lent_of_mem List.mem_cons_self)
              have hbuf₁ : (q₁.node p).buf = { head with sent := head.sent + k } :=
                (List.cons.inj hq₁.bufs).1
              have hcfg₁ : q₁.cfg = q.cfg := by rw [heq₁]
              have hevents₁ : q₁.events = q.events := by rw [heq₁]
              have hsent₁ : q₁.closeSent = s.closeState.sent := by rw [heq₁, hsent]
              simp only [SendMemory.fillLoop, if_pos (show 0 < len ∧ 0 < left by omega), hsend,
                Option.bind_eq_bind, Option.bind_some, hload, hbuf, hk', hmodify, hload₁, hbuf₁]
              by_cases hwhole : head.sent + k = head.written
              · rw [if_pos hwhole, if_pos hwhole]
                obtain ⟨q₂, hrecycle, hq₂, hcfg₂, hsent₂, hevents₂⟩ :=
                  represents_recycle hq₁ (left - k)
                rw [hevents₁] at hevents₂
                rw [hrecycle, Option.bind_some]
                by_cases hclose : head.isCloseFrame = true
                · rw [if_pos hclose, if_pos hclose]
                  have hq₃ : Represents { q₂ with closeSent := true } [] l rest :=
                    ⟨hq₂.accounts, hq₂.chain, hq₂.bufs, hq₂.lent, hq₂.apart⟩
                  obtain ⟨q', hdestroy, hq', hcfg', hsent', hevents'⟩ := represents_sendDestroy hq₃
                  refine ⟨q', by simp only [hdestroy, Option.bind_some], ⟨[], hq'⟩, ?_, hsent',
                    p :: l, ?_⟩
                  · exact hcfg'.trans (hcfg₂.trans hcfg₁)
                  · rw [hevents', hevents₂, List.append_assoc]
                    rfl
                · rw [if_neg hclose, if_neg hclose]
                  have hstate : Represents q₂ [] l ({ s with send := rest } : Cws).send := hq₂
                  have hnext : ∀ b ∈ rest.head?,
                      left - k + (rest.head?.map (·.written)).getD 0 = b.written - b.sent := by
                    intro b hb
                    have hzero := ht.2 b (List.mem_of_mem_head? hb)
                    rw [hb, Option.map_some, Option.getD_some]
                    omega
                  have hlast : rest = [] →
                      left - k + (rest.head?.map (·.written)).getD 0 = 0 := by
                    rintro rfl
                    show left - k + 0 = 0
                    omega
                  obtain ⟨q', hloop, hdrained⟩ := ih (len - k) hstate (hsent₂.trans hsent₁)
                    ht.tail hnext hlast
                  refine ⟨q', by simp only [hloop, Option.bind_some], ?_⟩
                  exact hdrained.after (hcfg₂.trans hcfg₁) [p] hevents₂
              · rw [if_neg hwhole, if_neg hwhole]
                have hstate : Represents q₁ [] (p :: l) ({ s with
                    send := { head with sent := head.sent + k } :: rest } : Cws).send := hq₁
                have htidy : Tidy ({ head with sent := head.sent + k } :: rest) :=
                  ⟨.inr (show head.sent + k < head.written by omega), ht.2⟩
                have hmore : ∀ b ∈ ({ head with sent := head.sent + k } :: rest).head?,
                    left - k = b.written - b.sent := by
                  intro b hb
                  obtain rfl := Option.some.inj hb
                  show left - k = head.written - (head.sent + k)
                  omega
                obtain ⟨q', hloop, hdrained⟩ := ih (len - k) hstate hsent₁ htidy hmore
                  fun hnil => absurd hnil (List.cons_ne_nil _ _)
                refine ⟨q', by simp only [hloop, Option.bind_some], ?_⟩
                exact hdrained.after hcfg₁ [] (hevents₁.trans (List.append_nil _).symm)

/-- **`_fill_outgoing_buffer`**, on a queue that is not empty. -/
theorem represents_fillOutgoingBuffer {s : Cws} (h : Represents q [] l s.send)
    (hsent : q.closeSent = s.closeState.sent) (ht : Tidy s.send) (hne : s.send ≠ []) (len : ℕ) :
    ∃ q', q.fillOutgoingBuffer len = some ((fillOutgoingBuffer s len).1, q') ∧
      Drained q q' (fillOutgoingBuffer s len).2 := by
  obtain ⟨head, rest, hs⟩ := List.exists_cons_of_ne_nil hne
  have hbufs := h.bufs
  rw [hs] at hbufs
  obtain ⟨p, l, rfl, hbuf, -⟩ := List.map_eq_cons_iff.mp hbufs
  have hsend : q.send = some p := h.chain.1
  have hload := load_of_lent (h.lent_of_mem List.mem_cons_self)
  have hfill : fillOutgoingBuffer s len = fillLoop len s len (head.written - head.sent) := by
    rw [fillOutgoingBuffer, hs]
  have hleft : ∀ b ∈ s.send.head?, head.written - head.sent = b.written - b.sent := by
    intro b hb
    rw [hs] at hb
    obtain rfl := Option.some.inj hb
    rfl
  obtain ⟨q', hloop, hdrained⟩ := represents_fillLoop len len h hsent ht hleft
    fun hnil => absurd hnil hne
  refine ⟨q', ?_, hfill ▸ hdrained⟩
  simp only [SendMemory.fillOutgoingBuffer, hsend, Option.bind_eq_bind, Option.bind_some, hload,
    hbuf, hloop, hfill]

end

end CurlWs
