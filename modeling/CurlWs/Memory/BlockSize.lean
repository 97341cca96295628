import CurlWs.Memory.Runs
import CurlWs.Model.Config
import CurlWs.Send.Encode

/-!
# The size of a block

The number of bytes for the largest data frame is computed in three places: for the configuration of
the pool, for the call of `malloc` and for the call of `frame_encode`.  All three are sums of
`size_t` values that nobody checks.

**Blocks.**  The size of a block is fixed when `malloc` gives it, and no function changes it later.
So every block that is handed out has the size its pool was made for (`Sized`), whatever has been
done with the pool.

**Frames.**  What is expected of a pool is stated for any pool (`Roomy`): room behind the queue's
structure for the buffer `frame_encode` is told about, and room in the buffer for every frame within
the maximum.  Where none of the sums wraps, the three numbers agree.  Where one does, the first
block that is handed out, or the largest frame, shows that they do not.

* **`Sized.memRun`** — every block of a pool is of the size the pool was made for.
* **`roomy_iff`** — the three numbers agree, and every frame within the maximum fits, exactly when
  the largest of them is a `size_t`.
-/

namespace CurlWs

variable {α : Type*}

/-! ## Blocks are as large as the pool says

No write touches a size.  The lemmas follow the functions of `memory.c` and are put together in the
order of the calls. -/

/-- The sizes of the two pools, and those of their blocks. -/
structure Sized (size : BlockPool → ℕ) (m : MemPool α) : Prop where
  pool : ∀ w, (m.sub w).blockSize = size w
  block : ∀ {p b}, m.heap p = some b → b.size = size b.parent

namespace Sized

variable {size : BlockPool → ℕ} {m : MemPool α} (h : Sized size m)

include h

lemma setFree (w : BlockPool) (v : Option α) : Sized size (m.setFree w v) := by
  refine ⟨fun w' => ?_, ?_⟩
  · rw [MemPool.sub_setFree]
    split_ifs with hw
    · rw [hw]
      exact h.pool w
    · exact h.pool w'
  · intro p b hb
    cases w <;> exact h.block hb

lemma setActive (w : BlockPool) (v : Option α) : Sized size (m.setActive w v) := by
  refine ⟨fun w' => ?_, ?_⟩
  · rw [MemPool.sub_setActive]
    split_ifs with hw
    · rw [hw]
      exact h.pool w
    · exact h.pool w'
  · intro p b hb
    cases w <;> exact h.block hb

variable [DecidableEq α]

/-- A write to a link. -/
lemma modify {f : MemBlock α → MemBlock α} (hf : ∀ b, (f b).parent = b.parent ∧ (f b).size = b.size)
    (p : α) : Sized size (m.modify p f) := by
  refine ⟨fun w => ?_, ?_⟩
  · rw [MemPool.sub_modify]
    exact h.pool w
  · intro q b hb
    simp only [MemPool.modify] at hb
    split_ifs at hb
    · obtain ⟨b', hb', rfl⟩ := Option.map_eq_some_iff.mp hb
      rw [(hf b').1, (hf b').2]
      exact h.block hb'
    · exact h.block hb

lemma setNext (p : α) (v : Option α) : Sized size (m.setNext p v) :=
  h.modify (f := fun b => { b with next := v }) (fun _ => ⟨rfl, rfl⟩) p

lemma setPrev (p : α) (v : Option α) : Sized size (m.setPrev p v) :=
  h.modify (f := fun b => { b with prev := v }) (fun _ => ⟨rfl, rfl⟩) p

lemma elim_setNext (q v : Option α) : Sized size (q.elim m fun a => m.setNext a v) := by
  cases q with
  | none => exact h
  | some a => exact h.setNext a v

lemma elim_setPrev (q v : Option α) : Sized size (q.elim m fun a => m.setPrev a v) := by
  cases q with
  | none => exact h
  | some a => exact h.setPrev a v

lemma linkFront (p : α) (head : Option α) : Sized size (m.linkFront p head) :=
  ((h.setPrev p none).setNext p head).elim_setPrev _ _

/-- `mem_free`. -/
lemma memFree (p : α) : Sized size (memFree m p) := by
  rw [CurlWs.memFree]
  cases m.parent p with
  | none => exact h
  | some w =>
      simp only
      split_ifs
      · exact h
      · exact ((((h.setActive w _).elim_setNext _ _).elim_setPrev _ _).linkFront p _).setFree w _
      · exact (((h.elim_setNext _ _).elim_setPrev _ _).linkFront p _).setFree w _

/-- A block from `malloc`. -/
lemma newBlock (p : α) (w : BlockPool) : Sized size { m with
    heap := fun a => if a = p then some { parent := w, size := (m.sub w).blockSize }
      else m.heap a } := by
  refine ⟨fun w' => ?_, ?_⟩
  · cases w' with
    | ctrl => exact h.pool .ctrl
    | data => exact h.pool .data
  · intro q b hb
    simp only at hb
    split_ifs at hb
    · cases hb
      exact h.pool w
    · exact h.block hb

/-- `_mem_alloc`. -/
lemma memAlloc (w : BlockPool) (malloc : Option α) : Sized size (memAlloc m w malloc).2 := by
  rw [CurlWs.memAlloc.eq_def]
  cases (m.sub w).free with
  | some p => exact (((h.setFree w _).elim_setPrev _ _).linkFront p _).setActive w _
  | none =>
      cases malloc with
      | none => exact h
      | some p => exact ((h.newBlock p w).linkFront p _).setActive w _

/-- **The blocks of a pool** are of the size the pool was made for, after any calls. -/
theorem memRun (calls : List (MemCall α)) : Sized size (memRun m calls).2 := by
  induction calls generalizing m with
  | nil => exact h
  | cons c calls ih =>
      rw [CurlWs.memRun]
      refine ih ?_
      cases c with
      | allocCtrl malloc => exact h.memAlloc .ctrl malloc
      | allocData malloc => exact h.memAlloc .data malloc
      | free p => exact h.memFree p

end Sized

/-- A data block in use is of the size of the data pool. -/
lemma allocated_size [DecidableEq α] {controlBlockSize dataBlockSize : ℕ}
    {calls : List (MemCall α)}
    (hproper : ProperCalls (memInitPool α controlBlockSize dataBlockSize) calls) {p : α}
    (hp : .allocated .data p ∈ (memRun (memInitPool α controlBlockSize dataBlockSize) calls).1) :
    ∃ b, (memRun (memInitPool α controlBlockSize dataBlockSize) calls).2.heap p = some b ∧
      b.size = dataBlockSize := by
  obtain ⟨P, hP⟩ := (accounts_memInitPool controlBlockSize dataBlockSize).memRun calls hproper
  rw [List.nil_append] at hP
  have hparent := ((hP.lists .data).blocks p).mp ((hP.created .data p).mpr hp)
  obtain ⟨b, hb, hdata⟩ := Option.map_eq_some_iff.mp hparent
  have hsized : Sized (fun w => ((memInitPool α controlBlockSize dataBlockSize).sub w).blockSize)
      (memRun (memInitPool α controlBlockSize dataBlockSize) calls).2 :=
    Sized.memRun ⟨fun _ => rfl, fun h => by cases h⟩ calls
  refine ⟨b, hb, (hsized.block hb).trans ?_⟩
  rw [hdata]
  rfl

/-! ## Data frames

The condition is about the sum of all four parts: the payload, the header of a frame, the node of
the queue and the header of the block. -/

/-- What is expected of the pool of a connection: every data block it hands out has room for the
queue's structure and for the buffer `frame_encode` is given, the buffer has room for every frame
within the maximum, and encoding such a frame succeeds and stays in the buffer. -/
structure Roomy (sizes : StructSizes) (cfg : Cfg) (m : MemPool ℕ) : Prop where
  blocks : ∀ calls, ProperCalls m calls → ∀ p, .allocated .data p ∈ (memRun m calls).1 →
    ∃ b, (memRun m calls).2.heap p = some b ∧
      sizes.bufQueue + sizeAdd cfg.maxPayloadSize wsFrameHeaderMax ≤ b.usable sizes
  room : ∀ f : CwsFrame, f.isControl = false → f.payloadLen ≤ cfg.maxPayloadSize →
    encodedLen f ≤ bufferSize cfg f
  encodes : ∀ f : CwsFrame, f.isControl = false → f.payloadLen ≤ cfg.maxPayloadSize →
    (frameEncode f (bufferSize cfg f)).1 ≠ 0 ∧
      (frameEncode f (bufferSize cfg f)).2.length ≤ bufferSize cfg f

lemma bufferSize_data {cfg : Cfg} {f : CwsFrame} (hf : f.isControl = false) :
    bufferSize cfg f = sizeAdd cfg.maxPayloadSize wsFrameHeaderMax := by
  rw [bufferSize, hf]
  rfl

/-- Where no sum wraps, the three numbers agree. -/
lemma roomy_of_lt {sizes : StructSizes} {cfg : Cfg}
    (h : cfg.maxPayloadSize + wsFrameHeaderMax + sizes.bufQueue + sizes.memBlock < sizeModulus)
    (controlBlockSize : ℕ) :
    Roomy sizes cfg (memInitPool ℕ controlBlockSize
      (sendGetMemoryNeeded sizes (sizeAdd cfg.maxPayloadSize wsFrameHeaderMax))) := by
  have hbuffer : sizeAdd cfg.maxPayloadSize wsFrameHeaderMax
      = cfg.maxPayloadSize + wsFrameHeaderMax := sizeAdd_of_lt (by omega)
  have hroom (f : CwsFrame) (hf : f.isControl = false) (hlen : f.payloadLen ≤ cfg.maxPayloadSize) :
      encodedLen f ≤ bufferSize cfg f := by
    have := headerLen_bounds f
    rw [bufferSize_data hf, hbuffer, encodedLen, wsFrameHeaderMax, wsFrameHeaderMin,
      wsFrameHeaderMask, wsFrameHeaderMaxPayloadSize]
    omega
  refine ⟨fun calls hproper p hp => ?_, hroom, fun f hf hlen => ?_⟩
  · obtain ⟨b, hb, hsize⟩ := allocated_size hproper hp
    refine ⟨b, hb, ?_⟩
    rw [MemBlock.usable, mallocSize, hsize, sendGetMemoryNeeded, hbuffer,
      @sizeAdd_of_lt sizes.bufQueue _ (by omega), sizeAdd_of_lt (by omega)]
    omega
  · have hlt : bufferSize cfg f < sizeModulus := by
      rw [bufferSize_data hf, hbuffer]
      omega
    have hle := hroom f hf hlen
    rw [frameEncode_of_le hlt hle, length_encoding]
    exact ⟨(encodedLen_pos f).ne', hle⟩

/-- A buffer that has room for the largest frame has a size that did not wrap. -/
lemma Roomy.buffer_lt {sizes : StructSizes} {cfg : Cfg} {m : MemPool ℕ} (h : Roomy sizes cfg m) :
    cfg.maxPayloadSize + wsFrameHeaderMax < sizeModulus := by
  by_contra hwrap
  have hmax : sizeModulus ≤ cfg.maxPayloadSize + 14 := not_lt.mp hwrap
  have hlarge : headerLen { payloadLen := cfg.maxPayloadSize } = 14 := by
    refine if_neg ?_ |>.trans (if_neg ?_)
    all_goals
      simp only [sizeModulus] at hmax ⊢
      omega
  have hroom := h.room { payloadLen := cfg.maxPayloadSize } rfl le_rfl
  have hlt : sizeAdd cfg.maxPayloadSize wsFrameHeaderMax < sizeModulus :=
    Nat.mod_lt _ (by decide)
  rw [bufferSize_data rfl, encodedLen, hlarge] at hroom
  simp only at hroom
  omega

/-- The first block a pool hands out. -/
lemma allocData_first (controlBlockSize dataBlockSize : ℕ) :
    let r := memRun (memInitPool ℕ controlBlockSize dataBlockSize) [.allocData (some 0)]
    ProperCalls (memInitPool ℕ controlBlockSize dataBlockSize) [.allocData (some 0)] ∧
      .allocated .data 0 ∈ r.1 := by
  intro r
  refine ⟨⟨fun p _ => rfl, trivial⟩, ?_⟩
  exact List.mem_singleton_self _

/-- **The pool has room for every frame** exactly when the largest of the sums is a `size_t`. -/
theorem roomy_iff (sizes : StructSizes) (cfg : Cfg) (maxPayloadSize : ℕ) :
    let r := configMemorypool ℕ sizes cfg maxPayloadSize
    Roomy sizes r.1 r.2 ↔ configMaxPayloadSize maxPayloadSize + wsFrameHeaderMax + sizes.bufQueue
      + sizes.memBlock < sizeModulus := by
  intro r
  refine ⟨fun h => ?_, fun h => ?_⟩
  swap
  · have hmax : r.1.maxPayloadSize = configMaxPayloadSize maxPayloadSize := rfl
    rw [← hmax] at h
    exact roomy_of_lt h _
  have hbuffer : sizeAdd (configMaxPayloadSize maxPayloadSize) wsFrameHeaderMax
      = configMaxPayloadSize maxPayloadSize + wsFrameHeaderMax := sizeAdd_of_lt h.buffer_lt
  obtain ⟨hproper, hmem⟩ := allocData_first (sendGetMemoryNeeded sizes wsCtlFrameMax)
    (sendGetMemoryNeeded sizes (sizeAdd (configMaxPayloadSize maxPayloadSize) wsFrameHeaderMax))
  obtain ⟨b, hb, husable⟩ := h.blocks _ hproper 0 hmem
  obtain ⟨b', hb', hsize⟩ := allocated_size hproper hmem
  obtain rfl : b' = b := Option.some_inj.mp (hb'.symm.trans hb)
  have hmax : r.1.maxPayloadSize = configMaxPayloadSize maxPayloadSize := rfl
  rw [MemBlock.usable, mallocSize, hsize, sendGetMemoryNeeded, hmax, hbuffer] at husable
  have hlt := h.buffer_lt
  rw [hmax] at hlt
  have hpos : 0 < configMaxPayloadSize maxPayloadSize + wsFrameHeaderMax :=
    Nat.add_pos_left (configMaxPayloadSize_pos maxPayloadSize) _
  generalize configMaxPayloadSize maxPayloadSize + wsFrameHeaderMax = n at husable hlt hpos ⊢
  simp only [sizeAdd, sizeModulus] at husable hlt ⊢
  omega

/-- Where no limit is asked for by the largest `size_t`, the buffer for a data frame has thirteen
bytes, and a frame of twenty bytes is not sent. -/
theorem no_limit_not_roomy :
    let r := configMemorypool ℕ .lp64 {} sizeMax
    let f : CwsFrame := { fin := true, mask := true, opcode := 2, payloadLen := 20 }
    f.payloadLen ≤ r.1.maxPayloadSize ∧ bufferSize r.1 f = 13 ∧
      (frameEncode f (bufferSize r.1 f)).1 = 0 ∧ ¬ Roomy .lp64 r.1 r.2 := by
  intro r f
  refine ⟨by decide, by decide, by decide, fun h => ?_⟩
  exact absurd (h.room f rfl (by decide)) (by decide)

end CurlWs
