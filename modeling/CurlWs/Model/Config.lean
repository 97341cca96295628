import CurlWs.Model.Memory
import CurlWs.Model.Send

/-!
# The memory pool of a connection

`_config_memorypool` of `curlws.c` and `send_get_memory_needed` of `send.c`: how large the blocks of
the pool are.

In front of the bytes of a frame stand two structures in each block, the node of the queue and the
header of the block itself.  Their sizes depend on the compiler, so they are parameters, with the
usual ones as an example.  All sums are taken as `size_t` values, and none is checked: a
`max_payload_size` near the largest value leaves a block of a few bytes.
-/

namespace CurlWs

/-- `sizeof` of the structures that stand in front of a frame in the memory `malloc` returns. -/
structure StructSizes where
  /-- `struct cws_buf_queue` -/
  bufQueue : ℕ
  /-- `struct mem_block` -/
  memBlock : ℕ
  deriving DecidableEq, Repr

/-- The sizes where pointers and `size_t` have eight bytes. -/
def StructSizes.lp64 : StructSizes := ⟨48, 24⟩

/-- `send_get_memory_needed`. -/
def sendGetMemoryNeeded (sizes : StructSizes) (payloadSize : ℕ) : ℕ :=
  sizeAdd sizes.bufQueue payloadSize

/-- `priv->cfg.max_payload_size`: zero asks for the default. -/
def configMaxPayloadSize (maxPayloadSize : ℕ) : ℕ :=
  if maxPayloadSize ≠ 0 then maxPayloadSize else 1024

lemma configMaxPayloadSize_pos (maxPayloadSize : ℕ) : 0 < configMaxPayloadSize maxPayloadSize := by
  rw [configMaxPayloadSize]
  split_ifs <;> omega

/-- `_config_memorypool`, for the `max_payload_size` of the user's configuration. -/
def configMemorypool (α : Type*) (sizes : StructSizes) (cfg : Cfg) (maxPayloadSize : ℕ) :
    Cfg × MemPool α :=
  let cfg : Cfg :=
    { cfg with
      maxPayloadSize := configMaxPayloadSize maxPayloadSize
      maxPayloadSize_pos := configMaxPayloadSize_pos maxPayloadSize }
  let maxFrameSize := sizeAdd cfg.maxPayloadSize wsFrameHeaderMax
  (cfg, memInitPool α (sendGetMemoryNeeded sizes wsCtlFrameMax)
    (sendGetMemoryNeeded sizes maxFrameSize))

/-- What `_mem_alloc` asks of `malloc` for a new block. -/
def mallocSize (sizes : StructSizes) (blockSize : ℕ) : ℕ := sizeAdd sizes.memBlock blockSize

/-- The bytes of `data` that are within the memory of a block. -/
def MemBlock.usable {α : Type*} (sizes : StructSizes) (b : MemBlock α) : ℕ :=
  mallocSize sizes b.size - sizes.memBlock

end CurlWs
