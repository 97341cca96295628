import CurlWs.Memory.Runs
import CurlWs.Model.Send

/-!
# The outgoing queue in memory

`send.c` once more, with the queue as it is in memory: its buffers are blocks of the pool, known by
their addresses, each with the pointers to its neighbours.

**What is an error.**  The bytes of a block that has not been lent are still those last written, and
so are those of a block just obtained; but to read or write them, or to give the block back, is an
error, as it is to follow NULL: the functions are `none` then.  They are `none` as well where a walk
along the queue does not come to its end within as many nodes as have ever been allocated.  A
function that is not `none` has therefore only touched blocks it was given and has not given back.

**What is taken for granted.**  A block holds what is written to it: its fields and the encoded
frame, of any length.  Whether the blocks of the pool are large enough for that is another question,
which `Memory/BlockSize` and `Send/EncodeSafety` are about.

`events` is not in the source: it records the calls of the pool, and only says which blocks are lent
and how long a walk may be.
-/

namespace CurlWs

/-- `struct cws_buf_queue`, with its links. -/
structure BufNode (α : Type*) where
  prev : Option α := none
  next : Option α := none
  buf : BufQueue
  deriving DecidableEq, Repr

/-- What the sending side has in memory: the pool, the data of the blocks, and `priv->send`;
`closeSent` is `CLOSE_SENT`. -/
structure SendMemory (α : Type*) where
  cfg : Cfg
  mem : MemPool α
  node : α → BufNode α
  send : Option α := none
  closeSent : Bool := false
  events : List (MemEvent α) := []

namespace SendMemory

variable {α : Type*} [DecidableEq α]

/-- The block is lent. -/
def lent (q : SendMemory α) (p : α) : Bool := (lentBy q.events p).isSome

/-- `*p`. -/
def load (q : SendMemory α) (p : α) : Option (BufNode α) := if q.lent p then some (q.node p) else none

/-- Write fields of `*p`. -/
def modify (q : SendMemory α) (p : α) (f : BufNode α → BufNode α) : Option (SendMemory α) :=
  if q.lent p then some { q with node := Function.update q.node p (f (q.node p)) } else none

/-- `mem_alloc_ctrl` or `mem_alloc_data`. -/
def alloc (q : SendMemory α) (w : BlockPool) (malloc : Option α) : Option α × SendMemory α :=
  let r := memAlloc q.mem w malloc
  (r.1, { q with mem := r.2, events := q.events ++ [allocEvent w r.1] })

/-- `mem_free`, of a block that is lent. -/
def free (q : SendMemory α) (p : α) : Option (SendMemory α) :=
  if q.lent p then some { q with mem := memFree q.mem p, events := q.events ++ [.freed p] }
  else none

/-! ## `send_frame`

A new node is written, and then linked in one of four ways: into an empty queue, in front of the
head, behind it, or behind the last node, which is looked for from the head on. -/

/-- `while (qP->next) qP = qP->next;` -/
def lastNode (q : SendMemory α) : ℕ → α → Option α
  | 0, _ => none
  | fuel + 1, qP => do
      let n ← q.load qP
      match n.next with
      | none => some qP
      | some next => q.lastNode fuel next

/-- The pool `send_frame` takes a block from. -/
def poolOf (f : CwsFrame) : BlockPool := if f.isControl then .ctrl else .data

/-- Link the new buffer `buf` into the queue. -/
def link (q : SendMemory α) (buf : α) (isUrgent : Bool) : Option (SendMemory α) :=
  match q.send with
  | none => some { q with send := some buf }
  | some qP => do
      let head ← q.load qP
      if isUrgent then
        if 0 < head.buf.sent then
          -- the links back of the node behind stay as they are
          let q ← q.modify buf fun n => { n with next := head.next, prev := some qP }
          q.modify qP fun n => { n with next := some buf }
        else
          let q ← { q with send := some buf }.modify buf fun n => { n with next := some qP }
          q.modify qP fun n => { n with prev := some buf }
      else
        let last ← q.lastNode q.events.length qP
        let q ← q.modify buf fun n => { n with prev := some last }
        q.modify last fun n => { n with next := some buf }

/-- `send_frame`, up to the waking of curl. -/
def sendFrame (q : SendMemory α) (f : CwsFrame) (malloc : Option α) :
    Option (CWScode × SendMemory α) :=
  let r := q.alloc (poolOf f) malloc
  match r.1 with
  | none => some (.outOfMemory, r.2)
  | some buf => do
      let q ← r.2.modify buf fun _ => { buf := encodedBuf q.cfg f }
      let q ← q.link buf f.isUrgent
      some (.ok, q)

/-! ## `_fill_outgoing_buffer`

A drain writes to the head while it lasts, and gives it back when it has been sent.  After a close
frame the whole of the queue is given back. -/

/-- The loop of `send_destroy`. -/
def destroyLoop : ℕ → SendMemory α → Option (SendMemory α)
  | 0, q => if q.send = none then some q else none
  | fuel + 1, q =>
      match q.send with
      | none => some q
      | some p => do
          let n ← q.load p
          let q ← q.free p
          destroyLoop fuel { q with send := n.next }

/-- `send_destroy`. -/
def sendDestroy (q : SendMemory α) : Option (SendMemory α) := destroyLoop q.events.length q

/-- The head `p` has been sent: the queue goes on with the next buffer, `dataToSend` counts its
bytes as well, and the head is recycled. -/
def recycle (q : SendMemory α) (p : α) (dataToSend : ℕ) : Option (ℕ × SendMemory α) := do
  let head ← q.load p
  match head.next with
  | none => (({ q with send := none }).free p).map (dataToSend, ·)
  | some next => do
      let q ← { q with send := some next }.modify next fun n => { n with prev := none }
      let n ← q.load next
      (q.free p).map (dataToSend + n.buf.written, ·)

/-- The loop of `_fill_outgoing_buffer`.  Every iteration uses up room, so the first argument bounds
the iterations. -/
def fillLoop : ℕ → SendMemory α → ℕ → ℕ → Option (List Byte × SendMemory α)
  | 0, q, _, _ => some ([], q)
  | fuel + 1, q, len, dataToSend =>
      if 0 < len ∧ 0 < dataToSend then do
        let p ← q.send
        let head ← q.load p
        let lesser := if dataToSend < len then dataToSend else len
        let out := (head.buf.buffer.drop head.buf.sent).take lesser
        let len := len - lesser
        let dataToSend := dataToSend - lesser
        let q ← q.modify p fun n => { n with buf := { n.buf with sent := n.buf.sent + lesser } }
        let head ← q.load p
        if head.buf.sent = head.buf.written then
          let r ← q.recycle p dataToSend
          if head.buf.isCloseFrame then
            -- `data_to_send` is zero then, so the loop ends
            let q ← { r.2 with closeSent := true }.sendDestroy
            some (out, q)
          else
            let rest ← fillLoop fuel r.2 len r.1
            some (out ++ rest.1, rest.2)
        else
          let rest ← fillLoop fuel q len dataToSend
          some (out ++ rest.1, rest.2)
      else some ([], q)

/-- `_fill_outgoing_buffer`. -/
def fillOutgoingBuffer (q : SendMemory α) (len : ℕ) : Option (List Byte × SendMemory α) := do
  let head ← q.send
  let n ← q.load head
  fillLoop len q len (n.buf.written - n.buf.sent)

end SendMemory

end CurlWs
