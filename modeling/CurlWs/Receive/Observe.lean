import CurlWs.Library.WebSocket
import CurlWs.Receive.View

/-!
# What has been received, according to the trace

`observe` reads a trace as the reference reads a stream: which messages and control frames there
have been.  A message lasts from a call of `on_fragment` with `CWS_FIRST` to one with `CWS_LAST`,
and two byte strings are kept for it: the payload taken off the wire, and what the calls have
delivered.

**Markers.**  `pieceInfo` and `finalInfo` are the markers a piece should have, from the kind of the
message, whether it has begun, and whether the piece ends it.  The bits of a marker are read back by
`first_finalInfo`, `last_finalInfo` and `flagKind_finalInfo`.

**Reading a trace.**  `Seen` is what has been received; `Seen.record` adds one event to it.  Pieces
of payload, calls of `on_fragment`, control frames and failures count, everything else passes by, so
the view is enough (`view_seen`).

**A message in progress.**  `Ready` says that the markers in the receive state and the observation
agree about the message to which the next payload bytes belong.

* **`Seen.fragment_ready`** — a call of `on_fragment` for the next piece of a message, whatever its
  place in the message.
-/

namespace CurlWs

open WebSocket

/-! ## Kinds and markers

The flags of `on_fragment`, made of a kind and two facts. -/

/-- The marker of a kind of message. -/
def kindFlag : Kind → Flags
  | .text => cwsText
  | .binary => cwsBinary

/-- The kind a marker names. -/
def flagKind (info : Flags) : Kind := if cwsText &&& info ≠ 0 then .text else .binary

/-- The markers for a piece of a message, before the end of the message is known. -/
def pieceInfo (k : Kind) (begun : Bool) : Flags :=
  if begun then cwsCont else cwsFirst ||| kindFlag k

/-- The same with `CWS_LAST` added at the end of the message. -/
def finalInfo (k : Kind) (begun last : Bool) : Flags :=
  if last then pieceInfo k begun ||| cwsLast else pieceInfo k begun

/-- The first piece is marked as such. -/
lemma first_finalInfo (k : Kind) (begun last : Bool) :
    (cwsFirst &&& finalInfo k begun last ≠ 0) ↔ begun = false := by
  cases k <;> cases begun <;> cases last <;>
    simp [finalInfo, pieceInfo, kindFlag, cwsFirst, cwsLast, cwsText, cwsBinary, cwsCont]

lemma last_finalInfo (k : Kind) (begun last : Bool) :
    (cwsLast &&& finalInfo k begun last ≠ 0) ↔ last = true := by
  cases k <;> cases begun <;> cases last <;>
    simp [finalInfo, pieceInfo, kindFlag, cwsFirst, cwsLast, cwsText, cwsBinary, cwsCont]

/-- The first piece names the kind of the message. -/
lemma flagKind_finalInfo (k : Kind) (last : Bool) : flagKind (finalInfo k false last) = k := by
  cases k <;> cases last <;> simp [flagKind, finalInfo, pieceInfo, kindFlag, cwsFirst, cwsLast,
    cwsText, cwsBinary]

/-! ## Observation

From the events to what has been received. -/

/-- What has been received. -/
structure Seen where
  items : List Item := []
  /-- The message in progress, with what has been delivered of it. -/
  current : Option (Kind × List Byte) := none
  /-- The payload of the message in progress. -/
  wire : List Byte := []
  /-- The completed messages, as they were delivered. -/
  deliveries : List (Kind × List Byte) := []
  deriving DecidableEq, Repr

namespace Seen

/-- The message in progress, as the reference has it. -/
def openMessage (S : Seen) : Open := S.current.map fun c => (c.1, S.wire)

/-- The part of a fragment after its message has begun. -/
def extend (S : Seen) (k : Kind) (delivered : List Byte) (last : Bool) : Seen :=
  if last then
    { items := S.items ++ [.message k S.wire], current := none, wire := []
      deliveries := S.deliveries ++ [(k, delivered)] }
  else { S with current := some (k, delivered) }

/-- A call of `on_fragment`. -/
def fragment (S : Seen) (info : Flags) (buf : List Byte) : Seen :=
  if cwsFirst &&& info ≠ 0 then
    ({ S with items := S.items ++ [.start (flagKind info)] } : Seen).extend (flagKind info) buf
      (cwsLast &&& info ≠ 0)
  else
    match S.current with
    | none => S
    | some (k, d) => S.extend k (d ++ buf) (cwsLast &&& info ≠ 0)

/-- A complete control frame. -/
def control (S : Seen) (opcode : ℕ) (p : List Byte) : Seen :=
  { S with items := S.items ++
    [if opcode = 9 then .ping p else if opcode = 10 then .pong p else .closeFrame p] }

/-- A close frame has been received, or the connection has been failed. -/
def isClosed (S : Seen) : Bool := S.items.any Item.isClosing

/-- One event.  A failure with another status than 1002 is not one the reference knows. -/
def record (S : Seen) : Event → Seen
  | .payload piece => { S with wire := S.wire ++ piece.bytes }
  | .callback (.onFragment info buf) _ => S.fragment info (buf.getD [])
  | .controlFrame opcode p => S.control opcode p
  | .closing code =>
      if code = protocolError ∧ S.isClosed = false then
        { S with items := S.items ++ [.failed protocolError] }
      else S
  | _ => S

end Seen

/-- What has been received, according to a trace. -/
def observe (trace : List Event) : Seen := trace.foldl Seen.record {}

@[simp] lemma observe_concat (trace : List Event) (e : Event) :
    observe (trace ++ [e]) = (observe trace).record e := by
  rw [observe, observe, List.foldl_append]
  rfl

/-- The events the receive path does not write say nothing here. -/
lemma observe_filter (trace : List Event) :
    observe (trace.filter Event.isReceive) = observe trace := by
  induction trace using List.reverseRecOn with
  | nil => rfl
  | append_singleton trace e ih =>
      rw [List.filter_append, observe_concat]
      cases e with
      | callback => rw [List.filter_singleton, ← ih]; exact observe_concat ..
      | closing => rw [List.filter_singleton, ← ih]; exact observe_concat ..
      | payload => rw [List.filter_singleton, ← ih]; exact observe_concat ..
      | controlFrame => rw [List.filter_singleton, ← ih]; exact observe_concat ..
      | controlWrite => rw [List.filter_singleton, ← ih]; exact observe_concat ..
      | _ => simp [Event.isReceive, Seen.record, ih]

/-- What has been received, according to a view. -/
def View.seen (v : View) : Seen := observe v.trace

/-- The view shows all that has been received. -/
lemma view_seen (s : Cws) : s.view.seen = observe s.trace := observe_filter s.trace

@[simp] lemma seen_log (v : View) (e : Event) : (v.log e).seen = v.seen.record e :=
  observe_concat v.trace e

/-! ## Fragments

The next piece of a message, first or not, last or not. -/

/-- The markers and the observation agree that the next payload bytes belong to a message of kind
`k`, of which something has been delivered, `d`, or nothing yet. -/
inductive Ready (r : Recv) (S : Seen) (k : Kind) : Bool → List Byte → Prop where
  | first (hs : r.streamType = kindFlag k) (hi : r.fragmentInfo = pieceInfo k false)
      (hc : S.current = none) (hw : S.wire = []) : Ready r S k false []
  | next {d : List Byte} (hs : r.streamType = kindFlag k) (hi : r.fragmentInfo = pieceInfo k true)
      (hc : S.current = some (k, d)) (hm : Item.start k ∈ S.items) : Ready r S k true d

/-- The beginning of a message, as an item. -/
def startItem (k : Kind) (begun : Bool) : List Item := if begun then [] else [.start k]

/-- The stream type is that of the message. -/
lemma Ready.streamType {r : Recv} {S : Seen} {k : Kind} {begun : Bool} {d : List Byte}
    (h : Ready r S k begun d) : r.streamType = kindFlag k := by
  cases h with
  | first hs _ _ _ => exact hs
  | next hs _ _ _ => exact hs

/-- The markers are those of the next piece. -/
lemma Ready.fragmentInfo {r : Recv} {S : Seen} {k : Kind} {begun : Bool} {d : List Byte}
    (h : Ready r S k begun d) : r.fragmentInfo = pieceInfo k begun := by
  cases h with
  | first _ hi _ _ => exact hi
  | next _ hi _ _ => exact hi

/-- The receive state matters only for its two markers. -/
lemma Ready.congr {r r' : Recv} {S : Seen} {k : Kind} {begun : Bool} {d : List Byte}
    (h : Ready r S k begun d) (hs : r'.streamType = r.streamType)
    (hi : r'.fragmentInfo = r.fragmentInfo) : Ready r' S k begun d := by
  cases h with
  | first hs' hi' hc hw => exact .first (hs.trans hs') (hi.trans hi') hc hw
  | next hs' hi' hc hm => exact .next (hs.trans hs') (hi.trans hi') hc hm

/-- A message that has payload has a beginning. -/
lemma Ready.start_mem {r : Recv} {S : Seen} {k : Kind} {begun : Bool} {d : List Byte}
    (h : Ready r S k begun d) : Item.start k ∈ S.items ++ startItem k begun := by
  cases h with
  | first => simp [startItem]
  | next _ _ _ hm => exact List.mem_append_left _ hm

/-- **A call of `on_fragment`** for a piece of a message. -/
theorem Seen.fragment_ready {r : Recv} {S : Seen} {k : Kind} {begun : Bool} {d : List Byte}
    (h : Ready r S k begun d) (p : List Byte) (last : Bool) (buf : List Byte) :
    ({ S with wire := S.wire ++ p } : Seen).fragment (finalInfo k begun last) buf
      = ({ S with items := S.items ++ startItem k begun, wire := S.wire ++ p } : Seen).extend k
          (d ++ buf) last := by
  have hlast : decide (cwsLast &&& finalInfo k begun last ≠ 0) = last := by
    have := last_finalInfo k begun last
    cases last <;> simp_all
  rw [Seen.fragment, hlast]
  cases h with
  | first _ _ hc hw => rw [if_pos ((first_finalInfo k false last).mpr rfl), flagKind_finalInfo]; rfl
  | next _ _ hc _ =>
      rw [if_neg (fun h => Bool.noConfusion ((first_finalInfo k true last).mp h))]
      simp only [hc, startItem, if_true, List.append_nil]

/-- A fragment without bytes in the middle of a message says nothing. -/
lemma Seen.fragment_nil {r : Recv} {S : Seen} {k : Kind} {d : List Byte}
    (h : Ready r S k true d) (p : List Byte) :
    ({ S with wire := S.wire ++ p } : Seen).fragment (finalInfo k true false) []
      = { S with wire := S.wire ++ p } := by
  rw [Seen.fragment_ready h]
  cases h with
  | next _ _ hc _ => simp [extend, startItem, hc]

end CurlWs
