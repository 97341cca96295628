import CurlWs.Memory.Cleanup
import CurlWs.Memory.Represents

/-!
# Runs of the queue in memory

`send.c` on top of `memory.c`, over any sequence of frames and drains.  The list of buffers that the
rest of the development speaks of is what is in memory, whatever the blocks held before they were
obtained and whichever allocations fail.

**Two systems side by side.**  A run in memory is given what `malloc` returns; a run of the list is
given whether the pool has a block.  The two are compared when these agree (`Env.Grants`), question
by question and in the same order.  `Mirrors` says what they have in common between two calls: the
queue, the bit for the close frame, and how often the pool was asked.

**The end.**  When the connection is destroyed, `send_destroy` gives the blocks of the queue back
and `mem_cleanup_pool` frees all blocks there are.  Since the blocks that are lent are always those
of the queue, nothing is lent in between.

* **`mirrors_step`**, **`mirrors_run`** — one call, and any number of them.
* **`queue_in_memory`** — nothing that is not lent is read, written or given back; what leaves is
  what the list says; the blocks that are lent are those of the queue, and at the end they are all
  freed.
-/

namespace CurlWs

open FreeList

variable {α : Type*} [DecidableEq α]

/-- A call of `send_frame`, with what `malloc` returns if it is called, or of `_send_cb`. -/
inductive SendCall (α : Type*) where
  | frame (f : CwsFrame) (malloc : Option α)
  | drain (len : ℕ)

/-- The call, for the list. -/
def SendCall.op : SendCall α → QueueOp
  | .frame f _ => .frame f
  | .drain len => .fill len

namespace SendMemory

/-- The memory of a new connection, in which the blocks hold anything. -/
def init (cfg : Cfg) (node : α → BufNode α) (controlBlockSize dataBlockSize : ℕ) : SendMemory α :=
  { cfg, mem := memInitPool α controlBlockSize dataBlockSize, node }

/-- One call, and the bytes it hands to curl; an empty queue is not drained. -/
def step (q : SendMemory α) : SendCall α → Option (List Byte × SendMemory α)
  | .frame f malloc => (q.sendFrame f malloc).map fun r => ([], r.2)
  | .drain len => if q.send = none then some ([], q) else q.fillOutgoingBuffer len

/-- Several calls. -/
def run (q : SendMemory α) : List (SendCall α) → Option (List Byte × SendMemory α)
  | [] => some ([], q)
  | c :: calls => do
      let r ← q.step c
      let rest ← r.2.run calls
      some (r.1 ++ rest.1, rest.2)

end SendMemory

/-- `malloc` returns memory that is not in use. -/
def SendCall.Proper (q : SendMemory α) : SendCall α → Prop
  | .frame _ malloc => ∀ p ∈ malloc, q.mem.heap p = none
  | .drain _ => True

instance (q : SendMemory α) : (c : SendCall α) → Decidable (c.Proper q)
  | .frame _ malloc => inferInstanceAs (Decidable (∀ p ∈ malloc, q.mem.heap p = none))
  | .drain _ => inferInstanceAs (Decidable True)

/-- It does so throughout. -/
def ProperSends (q : SendMemory α) : List (SendCall α) → Prop
  | [] => True
  | c :: calls => c.Proper q ∧ (q.step c).elim True fun r => ProperSends r.2 calls

instance decidableProperSends (q : SendMemory α) :
    (calls : List (SendCall α)) → Decidable (ProperSends q calls)
  | [] => isTrue trivial
  | c :: calls =>
      have : Decidable ((q.step c).elim True fun r => ProperSends r.2 calls) :=
        match q.step c with
        | none => isTrue trivial
        | some r => decidableProperSends r.2 calls
      inferInstanceAs (Decidable (c.Proper q ∧ _))

/-- The answers of the pool, first to last. -/
def grants (t : List (MemEvent α)) : List Bool :=
  t.filterMap fun
    | .allocated .. => some true
    | .failed _ => some false
    | .freed _ => none

/-- The surroundings in which the pool answers like this. -/
def Env.Grants (env : Env) (answers : List Bool) : Prop :=
  ∀ i b, answers[i]? = some b → env.alloc i = b

/-! ## One call

The answers of the pool are read off the events, and a call adds at most one. -/

/-- The memory holds the queue of the state `s`, which has asked the pool as often. -/
structure Mirrors (q : SendMemory α) (s : Cws) : Prop where
  represents : ∃ l, Represents q [] l s.send
  cfg : q.cfg = s.cfg
  closeSent : q.closeSent = s.closeState.sent
  clock : s.clock = (grants q.events).length
  tidy : Tidy s.send

section

variable {q q' : SendMemory α} {s : Cws}

omit [DecidableEq α] in
lemma grants_append (t t' : List (MemEvent α)) : grants (t ++ t') = grants t ++ grants t' :=
  List.filterMap_append

omit [DecidableEq α] in
lemma grants_freed (l : List α) : grants (l.map .freed) = [] := by
  induction l with
  | nil => rfl
  | cons a l ih => exact ih

/-- The answers so far are the beginning of those in the end. -/
lemma Env.Grants.left {env : Env} {x y : List Bool} (h : env.Grants (x ++ y)) : env.Grants x := by
  intro i b hb
  refine h i b ?_
  rw [List.getElem?_append_left (List.getElem?_eq_some_iff.mp hb).1]
  exact hb

lemma Env.Grants.last {env : Env} {x : List Bool} {b : Bool} (h : env.Grants (x ++ [b])) :
    env.alloc x.length = b := h x.length b (by simp)

/-- A drain does not ask the pool. -/
lemma clock_fillOutgoingBuffer (s : Cws) (len : ℕ) :
    (fillOutgoingBuffer s len).2.clock = s.clock ∧ (fillOutgoingBuffer s len).2.cfg = s.cfg := by
  have hloop (fuel : ℕ) : ∀ (s : Cws) (len left : ℕ),
      (fillLoop fuel s len left).2.clock = s.clock ∧ (fillLoop fuel s len left).2.cfg = s.cfg := by
    induction fuel with
    | zero =>
        intro s len left
        exact ⟨rfl, rfl⟩
    | succ fuel ih =>
        intro s len left
        by_cases hstop : len = 0 ∨ left = 0
        · rw [fillLoop_stop _ hstop]
          exact ⟨rfl, rfl⟩
        cases hs : s.send with
        | nil =>
            have hnone : fillLoop (fuel + 1) s len left = ([], s) := by
              rw [fillLoop, hs]
            rw [hnone]
            exact ⟨rfl, rfl⟩
        | cons head rest =>
            rw [fillLoop_cons hs fuel (by omega) (by omega) (k := min len left) rfl]
            simp only
            split_ifs
            · exact ⟨rfl, rfl⟩
            · exact ih { s with send := rest } _ _
            · exact ih { s with send := _ :: rest } _ _
  rw [fillOutgoingBuffer]
  split
  · exact ⟨rfl, rfl⟩
  · exact hloop ..

lemma tidy_fillOutgoingBuffer (ht : Tidy s.send) (len : ℕ) :
    Tidy (fillOutgoingBuffer s len).2.send := by
  rw [fillOutgoingBuffer]
  cases hs : s.send with
  | nil => exact ht
  | cons head rest =>
      refine (steps_fillLoop len s len _ ht fun b hb => ?_).tidy ht
      rw [hs] at hb
      obtain rfl := Option.some.inj hb
      rfl

/-- **A call** does in memory what it does to the list, if the pool answers the same. -/
theorem mirrors_step (h : Mirrors q s) {c : SendCall α} (hc : c.Proper q) :
    ∃ out q', q.step c = some (out, q') ∧ ∃ answers, grants q'.events = grants q.events ++ answers ∧
      ∀ env : Env, env.Grants (grants q'.events) → ∀ before,
        Mirrors q' (queueStep env (s, before) c.op).1 ∧
          (queueStep env (s, before) c.op).2 = before ++ out := by
  obtain ⟨⟨l, hl⟩, hcfg, hsent, hclock, ht⟩ := h
  cases c with
  | frame f malloc =>
      rcases represents_sendFrame hl f hc with ⟨q', hsend, hq', heq⟩ |
        ⟨q', l', p, hsend, hq', hcfg', hsent', hevents⟩
      · have hgrants : grants q'.events = grants q.events ++ [false] := by
          rw [heq, grants_append]
          rfl
        refine ⟨[], q', by rw [SendMemory.step, hsend]; rfl, [false], hgrants, ?_⟩
        intro env henv before
        rw [hgrants] at henv
        have hno : env.alloc s.clock = false := hclock ▸ henv.last
        have hstate : (sendFrame env s f).2 = s.tick.log (.allocFailed f) := by
          rw [sendFrame, hno, if_neg (by decide)]
        refine ⟨?_, (List.append_nil _).symm⟩
        show Mirrors q' (sendFrame env s f).2
        rw [hstate]
        refine ⟨⟨l, hq'⟩, by rw [heq]; exact hcfg, by rw [heq]; exact hsent, ?_, ht⟩
        rw [hgrants, List.length_append, ← hclock]
        rfl
      · have hgrants : grants q'.events = grants q.events ++ [true] := by
          rw [hevents, grants_append]
          rfl
        refine ⟨[], q', by rw [SendMemory.step, hsend]; rfl, [true], hgrants, ?_⟩
        intro env henv before
        rw [hgrants] at henv
        have hyes : env.alloc s.clock = true := hclock ▸ henv.last
        have hstate : (sendFrame env s f).2 =
            (({ s.tick with send := enqueue s.send (encodedBuf s.cfg f) f.isUrgent } : Cws).log
              (.queued f)).unpauseSend := by
          rw [sendFrame, if_pos hyes]
          rfl
        refine ⟨?_, (List.append_nil _).symm⟩
        show Mirrors q' (sendFrame env s f).2
        rw [hstate]
        refine ⟨⟨l', hcfg ▸ hq'⟩, hcfg'.trans hcfg, hsent'.trans hsent, ?_, ht.enqueue rfl _⟩
        rw [hgrants, List.length_append, ← hclock]
        rfl
  | drain len =>
      by_cases hs : s.send = []
      · have hnil : q.send = none := by
          have hbufs := hl.bufs
          rw [hs] at hbufs
          obtain rfl := List.map_eq_nil_iff.mp hbufs
          exact hl.chain
        have hstay : fillOutgoingBuffer s len = ([], s) := by
          rw [fillOutgoingBuffer, hs]
        refine ⟨[], q, if_pos hnil, [], (List.append_nil _).symm, fun env _ before => ?_⟩
        show Mirrors q (fillOutgoingBuffer s len).2 ∧ before ++ (fillOutgoingBuffer s len).1 = _
        rw [hstay]
        exact ⟨⟨⟨l, hl⟩, hcfg, hsent, hclock, ht⟩, rfl⟩
      · obtain ⟨q', hfill, hdrained⟩ := represents_fillOutgoingBuffer hl hsent ht hs len
        obtain ⟨freed, hfreed⟩ := hdrained.events
        obtain ⟨hclock', hcfg'⟩ := clock_fillOutgoingBuffer s len
        have hsome : q.send ≠ none := by
          intro hnil
          have hchain := hl.chain
          rw [hnil] at hchain
          cases l with
          | nil => exact hs hl.bufs.symm
          | cons p l => exact absurd hchain.1 (by simp)
        have hgrants : grants q'.events = grants q.events := by
          rw [hfreed, grants_append, grants_freed, List.append_nil]
        refine ⟨_, q', (if_neg hsome).trans hfill, [], ?_, fun env _ before => ⟨?_, rfl⟩⟩
        · rw [hgrants, List.append_nil]
        · exact ⟨hdrained.represents, hdrained.cfg.trans (hcfg.trans hcfg'.symm),
            hdrained.closeSent, by rw [hgrants]; exact hclock'.trans hclock,
            tidy_fillOutgoingBuffer ht len⟩

/-! ## Every run

From a new connection on. -/

lemma run_concat_memory (q : SendMemory α) (calls : List (SendCall α)) (c : SendCall α) :
    q.run (calls ++ [c]) = (q.run calls).bind fun r =>
      (r.2.step c).map fun x => (r.1 ++ x.1, x.2) := by
  induction calls generalizing q with
  | nil =>
      simp only [List.nil_append, SendMemory.run, Option.bind_eq_bind, Option.bind_some]
      cases q.step c with
      | none => rfl
      | some r => simp
  | cons d calls ih =>
      simp only [List.cons_append, SendMemory.run, Option.bind_eq_bind, ih]
      cases q.step d with
      | none => rfl
      | some r =>
          simp only [Option.bind_some]
          cases r.2.run calls with
          | none => rfl
          | some x =>
              simp only [Option.bind_some]
              cases x.2.step c with
              | none => rfl
              | some y => simp

/-- The calls before it, and the call itself. -/
lemma ProperSends.concat {calls : List (SendCall α)} {c : SendCall α} :
    ∀ {q : SendMemory α}, ProperSends q (calls ++ [c]) →
      ProperSends q calls ∧ ∀ out q', q.run calls = some (out, q') → c.Proper q' := by
  induction calls with
  | nil =>
      intro q h
      refine ⟨trivial, fun out q' hrun => ?_⟩
      obtain ⟨-, rfl⟩ := Prod.mk.inj (Option.some.inj hrun)
      exact h.1
  | cons d calls ih =>
      intro q h
      obtain ⟨hd, hrest⟩ := h
      cases hstep : q.step d with
      | none =>
          refine ⟨⟨hd, by rw [hstep]; trivial⟩, fun out q' hrun => ?_⟩
          simp [SendMemory.run, hstep] at hrun
      | some r =>
          rw [hstep] at hrest
          obtain ⟨hproper, hlast⟩ := ih hrest
          refine ⟨⟨hd, by rw [hstep]; exact hproper⟩, fun out q' hrun => ?_⟩
          simp only [SendMemory.run, hstep, Option.bind_eq_bind, Option.bind_some] at hrun
          obtain ⟨x, hx, heq⟩ := Option.bind_eq_some_iff.mp hrun
          obtain ⟨-, rfl⟩ := Prod.mk.inj (Option.some.inj heq)
          exact hlast x.1 x.2 hx

/-- A new connection. -/
lemma mirrors_init (cfg : Cfg) (node : α → BufNode α) (controlBlockSize dataBlockSize : ℕ) :
    Mirrors (SendMemory.init cfg node controlBlockSize dataBlockSize) (Cws.fresh cfg) := by
  refine ⟨⟨[], ⟨_, accounts_memInitPool controlBlockSize dataBlockSize⟩, rfl, rfl, fun a => ?_,
    List.forall_mem_nil _⟩, rfl, rfl, rfl, tidy_nil⟩
  exact ⟨fun h => Bool.noConfusion h, fun h => absurd h (by simp)⟩

/-- **The list is followed in memory**, in every run. -/
theorem mirrors_run {cfg : Cfg} {node : α → BufNode α} {controlBlockSize dataBlockSize : ℕ}
    (calls : List (SendCall α)) :
    ProperSends (SendMemory.init cfg node controlBlockSize dataBlockSize) calls →
      ∃ out q', (SendMemory.init cfg node controlBlockSize dataBlockSize).run calls
          = some (out, q') ∧
        ∀ env : Env, env.Grants (grants q'.events) →
          let r := queueRun env (Cws.fresh cfg, []) (calls.map SendCall.op)
          Mirrors q' r.1 ∧ r.2 = out := by
  induction calls using List.reverseRecOn with
  | nil =>
      intro _
      exact ⟨[], _, rfl, fun env _ => ⟨mirrors_init .., rfl⟩⟩
  | append_singleton calls c ih =>
      intro hproper
      obtain ⟨hbefore, hlast⟩ := hproper.concat
      obtain ⟨out, q₁, hrun, hmirrors⟩ := ih hbefore
      have hc := hlast out q₁ hrun
      -- surroundings in which the pool answers as it did so far
      obtain ⟨h₀, -⟩ := hmirrors ⟨fun i => (grants q₁.events)[i]?.getD false, fun _ => .zero,
        fun _ _ => {}⟩ fun i b hb => by simp [hb]
      obtain ⟨out', q', hstep, answers, hgrants, -⟩ := mirrors_step h₀ hc
      refine ⟨out ++ out', q', ?_, fun env henv => ?_⟩
      · rw [run_concat_memory, hrun, Option.bind_some, hstep]
        rfl
      · rw [hgrants] at henv
        obtain ⟨h, hout⟩ := hmirrors env henv.left
        obtain ⟨out'', q'', hstep', -, -, hnext⟩ := mirrors_step h hc
        obtain ⟨rfl, rfl⟩ := Prod.mk.inj (Option.some.inj (hstep.symm.trans hstep'))
        obtain ⟨hm, hbytes⟩ := hnext env (hgrants ▸ henv) out
        rw [← hout] at hm hbytes ⊢
        simp only [List.map_append, queueRun, List.foldl_append] at hm hbytes ⊢
        exact ⟨hm, hbytes⟩

/-- **The queue in memory.** Let frames be sent and the queue be drained in any order, whatever the
blocks hold that `malloc` returns, and whenever it fails.  No function reads, writes or gives back
what is not lent, follows NULL or walks without end; what leaves is what leaves the list, where the
pool answers the same; the blocks that are lent are always those of the queue; and `send_destroy`
and `mem_cleanup_pool` together free each block that was ever obtained, once.  A block is taken to
hold whatever is written to it; that the bytes of a frame fit is the business of `roomy_iff` and
`encodesSafely_iff`. -/
theorem queue_in_memory (cfg : Cfg) (node : α → BufNode α) (controlBlockSize dataBlockSize : ℕ)
    (calls : List (SendCall α))
    (h : ProperSends (SendMemory.init cfg node controlBlockSize dataBlockSize) calls) :
    ∃ out q, (SendMemory.init cfg node controlBlockSize dataBlockSize).run calls = some (out, q) ∧
      (∀ env : Env, env.Grants (grants q.events) →
        let r := queueRun env (Cws.fresh cfg, []) (calls.map SendCall.op)
        r.2 = out ∧ (∃ l, Represents q [] l r.1.send) ∧ q.closeSent = r.1.closeState.sent) ∧
      ∃ q' freed m, q.sendDestroy = some q' ∧ (∀ a, q'.lent a = false) ∧
        memCleanupPool (q'.events.length + 1) q'.mem = some (freed, m) ∧ freed.Nodup ∧
        (∀ a, a ∈ freed ↔ ∃ w, .allocated w a ∈ q.events) ∧ ∀ a, m.heap a = none := by
  obtain ⟨out, q, hrun, hmirrors⟩ := mirrors_run calls h
  refine ⟨out, q, hrun, fun env henv => ?_, ?_⟩
  · obtain ⟨hm, hout⟩ := hmirrors env henv
    exact ⟨hout, hm.represents, hm.closeSent⟩
  · obtain ⟨hm, -⟩ := hmirrors ⟨fun i => (grants q.events)[i]?.getD false, fun _ => .zero,
      fun _ _ => {}⟩ fun i b hb => by simp [hb]
    obtain ⟨l, hl⟩ := hm.represents
    obtain ⟨q', hdestroy, hq', -, -, hevents⟩ := represents_sendDestroy hl
    obtain ⟨P, hP⟩ := hq'.accounts
    obtain ⟨freed, m, hcleanup, hnodup, hfreed, hempty⟩ :=
      hP.memCleanupPool (Nat.lt_succ_self q'.events.length)
    refine ⟨q', freed, m, hdestroy, fun a => ?_, hcleanup, hnodup, fun a => ?_, hempty⟩
    · refine Bool.eq_false_of_not_eq_true fun hlent => ?_
      rcases (hq'.lent a).mp hlent with hmem | hmem <;> cases hmem
    · rw [hfreed, hevents]
      refine exists_congr fun w => ?_
      rw [List.mem_append, or_iff_left]
      intro hmem
      obtain ⟨b, -, hb⟩ := List.mem_map.mp hmem
      cases hb

/-- An urgent ping goes behind a data frame that has begun to leave; a block is used again; and the
pool fails in the end. -/
theorem queue_in_memory_urgent :
    let data : CwsFrame := { fin := true, mask := true, opcode := wsOpcodeBinary }
    let ping : CwsFrame :=
      { fin := true, mask := true, isControl := true, isUrgent := true, opcode := wsOpcodePing }
    let init : SendMemory ℕ := .init {} (fun _ => ⟨none, some 7, ⟨true, 0, 0, 0, []⟩⟩) 125 1024
    ∃ out q, init.run [.frame data (some 1), .drain 2, .frame data (some 2), .frame ping (some 3),
        .drain 10, .frame data (some 4), .frame ping none, .frame ping none] = some (out, q) ∧
      out = [0x82, 0x80, 0, 0, 0, 0, 0x89, 0x80, 0, 0, 0, 0] ∧
      ∃ q' freed m, q.sendDestroy = some q' ∧
        memCleanupPool (q'.events.length + 1) q'.mem = some (freed, m) ∧ freed.Nodup := by
  intro data ping init
  obtain ⟨out, q, hrun, -, q', freed, m, hdestroy, -, hcleanup, hnodup, -⟩ :=
    queue_in_memory {} (fun _ => ⟨none, some 7, ⟨true, 0, 0, 0, []⟩⟩) 125 1024
      [.frame data (some (1 : ℕ)), .drain 2, .frame data (some 2), .frame ping (some 3), .drain 10,
        .frame data (some 4), .frame ping none, .frame ping none] (by decide +kernel)
  refine ⟨out, q, hrun, ?_, q', freed, m, hdestroy, hcleanup, hnodup⟩
  have hout : (init.run [.frame data (some 1), .drain 2, .frame data (some 2),
      .frame ping (some 3), .drain 10, .frame data (some 4), .frame ping none,
      .frame ping none]).map Prod.fst
        = some [0x82, 0x80, 0, 0, 0, 0, 0x89, 0x80, 0, 0, 0, 0] := by decide +kernel
  rw [hrun] at hout
  exact Option.some.inj hout

end

end CurlWs
