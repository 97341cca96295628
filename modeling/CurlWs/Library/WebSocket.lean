import Mathlib

/-!
# The data framing of RFC 6455, as seen by a client

What a stream of bytes from a server means, read all at once: the frames in it, and what a client is
to make of them.  This is the reference the receive path of a client is compared with.

**Streams.**  `decode` reads a whole stream, of which no part is missing and none is to come.  It
gives a list of items, and the last of them says how it ends: with a close frame, with a status to
fail the connection with, inside a frame or a message, or between two messages.  A message is given
at its beginning and again, with its payload, when it is complete.  A connection that is still open
has seen a beginning of the stream, and what it has received is a beginning of the items.

**Order of judgement.**  A header is judged as early as it can be: the reserved bits and the opcode
with its first two bytes, the form of the length once it is there, and the rest when the header is
complete.  It matters for streams that end in the middle of a header.

**Frames.**  The same meaning is given to a sequence of frames as values, without bytes, and the
bytes of the frames are decoded to it.  A frame that is not allowed where it stands fails the
connection; `leaves` says of a sequence whether all are allowed, and whether a message is open at
its end.

* `parseHeader` — a frame header at the front of a byte string.
* `decode` — the whole stream: messages with their fragments joined, control frames in between, and
  the point where the connection is closed by the server or has to be failed.
* `Frame`, `items` — the same meaning given to a sequence of frames.
* **`decode_encode`** — decoding the bytes of a sequence of frames gives the meaning of the
  sequence.
* **`sound_items`** — frames in an order that is allowed are read to the end.
-/

namespace WebSocket

/-! ## What a client observes

Messages, control frames, and the end.  Text is not validated here: whether the payload of a text
message is well-formed is a question of its own. -/

/-- The two types of message. -/
inductive Kind where
  | text
  | binary
  deriving DecidableEq, Repr

/-- What happens as a stream is read.  Nothing follows `closeFrame`, `failed` and `unfinished`. -/
inductive Item where
  /-- The first frame of a message has begun. -/
  | start (k : Kind)
  /-- A message is complete; these are the payloads of its frames, joined. -/
  | message (k : Kind) (payload : List UInt8)
  | ping (payload : List UInt8)
  | pong (payload : List UInt8)
  /-- The server closes the connection. -/
  | closeFrame (payload : List UInt8)
  /-- The client has to fail the connection, with this status. -/
  | failed (status : ℤ)
  /-- The stream ends inside a frame or a message. -/
  | unfinished
  deriving DecidableEq, Repr

/-- The items that end a connection. -/
def Item.isClosing : Item → Bool
  | .closeFrame _ | .failed _ => true
  | _ => false

/-- The items nothing can follow. -/
def Item.isEnd : Item → Bool
  | .closeFrame _ | .failed _ | .unfinished => true
  | _ => false

/-- The status for a protocol error. -/
def protocolError : ℤ := 1002

/-- The message in progress: its type and the payload so far. -/
abbrev Open := Option (Kind × List UInt8)

/-! ## Headers

The two bytes, the extended length in zero, two or eight bytes, and the masking key. -/

/-- A frame header.  The masking key is left out, as a client never accepts a masked frame. -/
structure Header where
  fin : Bool
  opcode : ℕ
  masked : Bool
  len : ℕ
  deriving DecidableEq, Repr

namespace Header

/-- The opcodes of control frames. -/
def isControl (h : Header) : Bool := 8 ≤ h.opcode

/-- **What a client accepts**: no mask; for a control frame, at most 125 bytes and no fragmentation;
for a data frame, a continuation exactly when a message is open. -/
def admissible (h : Header) (isOpen : Bool) : Bool :=
  !h.masked && if h.isControl then h.fin && h.len ≤ 125 else (h.opcode == 0) == isOpen

end Header

/-- The opcodes that have a meaning. -/
def knownOpcode (n : ℕ) : Bool := n ≤ 2 || (8 ≤ n && n ≤ 10)

/-- The value of a big-endian byte string. -/
def bigEndian (bs : List UInt8) : ℕ := bs.foldl (fun n b => 256 * n + b.toNat) 0

/-- How many bytes of extended payload length follow the second byte. -/
def extendedLength (b1 : UInt8) : ℕ :=
  if b1.toNat % 128 = 126 then 2 else if b1.toNat % 128 = 127 then 8 else 0

/-- The length is in the shortest form, and below 2^63. -/
def minimalLength (ext len : ℕ) : Bool :=
  if ext = 2 then 126 ≤ len else if ext = 8 then 65536 ≤ len && len < 2 ^ 63 else true

/-- What is at the front of a byte string. -/
inductive HeaderParse where
  | incomplete
  | malformed
  | complete (h : Header) (rest : List UInt8)
  deriving DecidableEq, Repr

/-- The header at the front of a byte string.  Reserved bits and the opcode are judged once the
first two bytes are there, the length once it is there, the rest when the header is complete. -/
def parseHeader : List UInt8 → HeaderParse
  | b0 :: b1 :: rest =>
      let ext := extendedLength b1
      let len := if ext = 0 then b1.toNat % 128 else bigEndian (rest.take ext)
      let masked := decide (128 ≤ b1.toNat)
      let key := if masked then 4 else 0
      if b0.toNat / 16 % 8 ≠ 0 ∨ knownOpcode (b0.toNat % 16) = false then .malformed
      else if rest.length < ext then .incomplete
      else if minimalLength ext len = false then .malformed
      else if rest.length < ext + key then .incomplete
      else .complete ⟨128 ≤ b0.toNat, b0.toNat % 16, masked, len⟩ (rest.drop (ext + key))
  | _ => .incomplete

lemma parseHeader_lt {bs rest : List UInt8} {h : Header} (hp : parseHeader bs = .complete h rest) :
    rest.length < bs.length := by
  rcases bs with _ | ⟨b0, _ | ⟨b1, tail⟩⟩
  · simp [parseHeader] at hp
  · simp [parseHeader] at hp
  · simp only [parseHeader] at hp
    split_ifs at hp
    all_goals
      injection hp with _ hrest
      rw [← hrest, List.length_drop]
      simp only [List.length_cons]
      omega

/-- The value is bounded by the number of bytes. -/
lemma bigEndian_lt (bs : List UInt8) : bigEndian bs < 256 ^ bs.length := by
  induction bs using List.reverseRecOn with
  | nil => simp [bigEndian]
  | append_singleton bs b ih =>
      have hb : b.toNat < 256 := b.toNat_lt
      simp only [bigEndian, List.foldl_append, List.foldl_cons, List.foldl_nil] at ih ⊢
      rw [List.length_append, List.length_singleton, pow_succ]
      omega

/-- A minimal length is below 2^63. -/
lemma minimalLength_lt {b1 : UInt8} {bs : List UInt8} (hbs : extendedLength b1 ≤ bs.length)
    {n : ℕ} (hn : n = if extendedLength b1 = 0 then b1.toNat % 128
      else bigEndian (bs.take (extendedLength b1)))
    (hmin : minimalLength (extendedLength b1) n ≠ false) : n < 2 ^ 63 := by
  have hlt := bigEndian_lt (bs.take (extendedLength b1))
  rw [List.length_take, min_eq_left hbs] at hlt
  have hext : extendedLength b1 = 0 ∨ extendedLength b1 = 2 ∨ extendedLength b1 = 8 := by
    rw [extendedLength]
    split_ifs <;> simp
  rcases hext with h | h | h
  · rw [h, if_pos rfl] at hn
    omega
  · rw [h] at hn hlt
    simp only [OfNat.ofNat_ne_zero, if_false] at hn
    omega
  · rw [h] at hmin
    simp [minimalLength] at hmin
    omega

/-- What is known of a complete header. -/
lemma parseHeader_known {bs rest : List UInt8} {h : Header}
    (hp : parseHeader bs = .complete h rest) :
    knownOpcode h.opcode = true ∧ h.len < 2 ^ 63 := by
  rcases bs with _ | ⟨b0, _ | ⟨b1, tail⟩⟩
  · simp [parseHeader] at hp
  · simp [parseHeader] at hp
  · simp only [parseHeader] at hp
    generalize hn : (if extendedLength b1 = 0 then b1.toNat % 128
      else bigEndian (tail.take (extendedLength b1))) = n at hp
    split_ifs at hp with h1 h2 h3
    all_goals
      injection hp with hh hrest
      rw [← hh]
      exact ⟨by simpa using (not_or.mp h1).2, minimalLength_lt (not_lt.mp h2) hn.symm h3⟩

/-! ## Streams

The stream is read frame by frame.  What a frame contributes is written as a function of what
follows it, so that a payload that has come in part can be taken off its front
(`takePayload_append`). -/

/-- The message a data frame belongs to, once the frame has begun. -/
def Header.joins (h : Header) (o : Open) : Kind × List UInt8 :=
  if h.opcode = 1 then (.text, [])
  else if h.opcode = 2 then (.binary, [])
  else o.getD (.binary, [])

/-- The beginning of a message, as an item. -/
def Header.starts (h : Header) : List Item :=
  if h.opcode = 1 then [.start .text] else if h.opcode = 2 then [.start .binary] else []

/-- A complete control frame, and what follows it. -/
def Header.controlItems (h : Header) (payload : List UInt8) (after : List Item) : List Item :=
  if h.opcode = 9 then .ping payload :: after
  else if h.opcode = 10 then .pong payload :: after
  else [.closeFrame payload]

/-- A complete data frame of the message `m`, and what follows it with the message still open or
not. -/
def dataItems (fin : Bool) (m : Kind × List UInt8) (after : Open → List Item) : List Item :=
  if fin then .message m.1 m.2 :: after none else after (some m)

/-- The end of a stream, when no more frames begin. -/
def endOfStream (o : Open) (bs : List UInt8) : List Item :=
  if bs = [] ∧ o = none then [] else [.unfinished]

/-- `n` bytes of payload, handed on with what follows them. -/
def takePayload (n : ℕ) (bs : List UInt8) (k : List UInt8 → List UInt8 → List Item) : List Item :=
  if bs.length < n then [.unfinished] else k (bs.take n) (bs.drop n)

@[simp] lemma takePayload_zero (bs : List UInt8) (k : List UInt8 → List UInt8 → List Item) :
    takePayload 0 bs k = k [] bs := by
  simp [takePayload]

/-- The first part of a payload has come in. -/
lemma takePayload_append {n : ℕ} {x : List UInt8} (hx : x.length ≤ n) (bs : List UInt8)
    (k : List UInt8 → List UInt8 → List Item) :
    takePayload n (x ++ bs) k = takePayload (n - x.length) bs fun p after => k (x ++ p) after := by
  rw [takePayload, takePayload, List.length_append, List.take_append, List.take_of_length_le hx,
    List.drop_append, List.drop_eq_nil_of_le hx, List.nil_append]
  by_cases h : bs.length < n - x.length
  · rw [if_pos h, if_pos (by omega)]
  · rw [if_neg h, if_neg (by omega)]

/-- The stream `bs`, with the message `o` in progress.  Every frame takes up bytes, so the first
argument bounds the frames. -/
def decodeAux : ℕ → Open → List UInt8 → List Item
  | 0, o, bs => endOfStream o bs
  | fuel + 1, o, bs =>
      match parseHeader bs with
      | .incomplete => endOfStream o bs
      | .malformed => [.failed protocolError]
      | .complete h rest =>
          if h.admissible o.isSome = false then [.failed protocolError]
          else if h.isControl then
            takePayload h.len rest fun p after => h.controlItems p (decodeAux fuel o after)
          else
            h.starts ++ takePayload h.len rest fun p after =>
              dataItems h.fin ((h.joins o).1, (h.joins o).2 ++ p) fun o => decodeAux fuel o after

/-- **The meaning of a stream**, with the message `o` in progress. -/
def decode (o : Open) (bs : List UInt8) : List Item := decodeAux bs.length o bs

/-- More fuel than bytes changes nothing. -/
lemma decodeAux_eq (fuel : ℕ) : ∀ (o : Open) (bs : List UInt8), bs.length ≤ fuel →
    decodeAux fuel o bs = decode o bs := by
  induction fuel using Nat.strong_induction_on with
  | _ fuel ih =>
      intro o bs hlen
      cases fuel with
      | zero =>
          obtain rfl := List.length_eq_zero_iff.mp (Nat.le_zero.mp hlen)
          rfl
      | succ fuel =>
          rw [decode]
          cases bs with
          | nil => rfl
          | cons b bs =>
              rw [List.length_cons, decodeAux, decodeAux]
              cases hp : parseHeader (b :: bs) with
              | incomplete => rfl
              | malformed => rfl
              | complete h rest =>
                  have hlt := parseHeader_lt hp
                  simp only [List.length_cons] at hlt hlen
                  have key : ∀ o, decodeAux fuel o (rest.drop h.len)
                      = decodeAux bs.length o (rest.drop h.len) := by
                    intro o
                    rw [ih fuel (by omega) o _ (by simp; omega)]
                    by_cases hb : bs.length = fuel
                    · rw [hb, ih fuel (by omega) o _ (by simp; omega)]
                    · rw [ih bs.length (by omega) o _ (by simp; omega)]
                  simp only [takePayload, key]

/-- One frame at a time. -/
theorem decode_eq (o : Open) (bs : List UInt8) :
    decode o bs =
      match parseHeader bs with
      | .incomplete => endOfStream o bs
      | .malformed => [.failed protocolError]
      | .complete h rest =>
          if h.admissible o.isSome = false then [.failed protocolError]
          else if h.isControl then
            takePayload h.len rest fun p after => h.controlItems p (decode o after)
          else
            h.starts ++ takePayload h.len rest fun p after =>
              dataItems h.fin ((h.joins o).1, (h.joins o).2 ++ p) fun o => decode o after := by
  rw [← decodeAux_eq (bs.length + 1) o bs (by omega), decodeAux]
  cases hp : parseHeader bs with
  | incomplete => rfl
  | malformed => rfl
  | complete h rest =>
      have hlt := parseHeader_lt hp
      have key : ∀ o, decodeAux bs.length o (rest.drop h.len) = decode o (rest.drop h.len) :=
        fun o => decodeAux_eq _ o _ (by simp; omega)
      simp only [takePayload, key]

lemma decode_incomplete {bs : List UInt8} (hp : parseHeader bs = .incomplete) (o : Open) :
    decode o bs = endOfStream o bs := by
  rw [decode_eq, hp]

lemma decode_malformed {bs : List UInt8} (hp : parseHeader bs = .malformed) (o : Open) :
    decode o bs = [.failed protocolError] := by
  rw [decode_eq, hp]

/-- One frame, when its header is complete. -/
lemma decode_complete {bs rest : List UInt8} {h : Header} (hp : parseHeader bs = .complete h rest)
    (o : Open) :
    decode o bs =
      if h.admissible o.isSome = false then [.failed protocolError]
      else if h.isControl then
        takePayload h.len rest fun p after => h.controlItems p (decode o after)
      else
        h.starts ++ takePayload h.len rest fun p after =>
          dataItems h.fin ((h.joins o).1, (h.joins o).2 ++ p) fun o => decode o after := by
  rw [decode_eq, hp]

/-- The complete messages among the items. -/
def messages (its : List Item) : List (Kind × List UInt8) :=
  its.filterMap fun
    | .message k p => some (k, p)
    | _ => none

lemma messages_append (x y : List Item) : messages (x ++ y) = messages x ++ messages y :=
  List.filterMap_append

lemma messages_initial {x y : List Item} (h : x <+: y) : messages x <+: messages y := h.filterMap _

/-- The stream goes on: none of the items is an end. -/
def GoesOn (its : List Item) : Prop := ∀ it ∈ its, it.isEnd = false

instance (its : List Item) : Decidable (GoesOn its) :=
  inferInstanceAs (Decidable (∀ it ∈ its, it.isEnd = false))

lemma GoesOn.right {x y : List Item} (h : GoesOn (x ++ y)) : GoesOn y :=
  fun it hit => h it (List.mem_append_right x hit)

lemma not_goesOn {it : Item} (h : it.isEnd = true) (its : List Item) : ¬ GoesOn (it :: its) := by
  intro hg
  have := hg it List.mem_cons_self
  rw [h] at this
  exact Bool.noConfusion this

/-- A payload in a stream that goes on is there in full. -/
lemma takePayload_of_goesOn {n : ℕ} {bs : List UInt8} {k : List UInt8 → List UInt8 → List Item}
    (h : GoesOn (takePayload n bs k)) : takePayload n bs k = k (bs.take n) (bs.drop n) := by
  rw [takePayload] at h ⊢
  split_ifs at h ⊢
  · exact absurd h (not_goesOn rfl _)
  · rfl

/-- A stream that goes on completes the message in progress, whatever comes in between. -/
theorem exists_message (n : ℕ) : ∀ (k : Kind) (w bs : List UInt8), bs.length ≤ n →
    GoesOn (decode (some (k, w)) bs) →
      ∃ x, (k, w ++ x) ∈ messages (decode (some (k, w)) bs) := by
  induction n using Nat.strong_induction_on with
  | _ n ih =>
      intro k w bs hlen hgood
      cases hp : parseHeader bs with
      | incomplete =>
          rw [decode_incomplete hp, endOfStream, if_neg (by simp)] at hgood
          exact absurd hgood (not_goesOn rfl [])
      | malformed =>
          rw [decode_malformed hp] at hgood
          exact absurd hgood (not_goesOn rfl [])
      | complete h rest =>
          have hlt := parseHeader_lt hp
          have hafter : (rest.drop h.len).length < n := by
            rw [List.length_drop]
            omega
          rw [decode_complete hp] at hgood ⊢
          by_cases hadm : h.admissible (Option.isSome (some (k, w))) = false
          · rw [if_pos hadm] at hgood
            exact absurd hgood (not_goesOn rfl [])
          rw [if_neg hadm] at hgood ⊢
          by_cases hc : h.isControl = true
          · rw [if_pos hc] at hgood ⊢
            have htake := takePayload_of_goesOn hgood
            rw [htake, Header.controlItems] at hgood ⊢
            split_ifs at hgood ⊢
            · exact ih _ hafter k w _ le_rfl (GoesOn.right (x := [.ping _]) hgood)
            · exact ih _ hafter k w _ le_rfl (GoesOn.right (x := [.pong _]) hgood)
            · exact absurd hgood (not_goesOn rfl [])
          · rw [if_neg hc] at hgood ⊢
            have hop : h.opcode = 0 := by
              simp only [Header.admissible, if_neg hc, Bool.not_eq_false, Bool.and_eq_true] at hadm
              simpa using hadm.2
            have hstarts : h.starts = [] := by simp [Header.starts, hop]
            have hjoins : h.joins (some (k, w)) = (k, w) := by simp [Header.joins, hop]
            rw [hstarts, hjoins, List.nil_append] at hgood ⊢
            have htake := takePayload_of_goesOn hgood
            rw [htake, dataItems] at hgood ⊢
            split_ifs at hgood ⊢
            · exact ⟨rest.take h.len, List.mem_filterMap.mpr ⟨_, List.mem_cons_self, rfl⟩⟩
            · obtain ⟨x, hx⟩ := ih _ hafter k (w ++ rest.take h.len) _ le_rfl hgood
              exact ⟨rest.take h.len ++ x, by rwa [← List.append_assoc]⟩

/-- The same, in the middle of a data frame of the message. -/
theorem exists_message_of_payload {k : Kind} {w bs : List UInt8} {n : ℕ} {fin : Bool}
    (hgood : GoesOn (takePayload n bs fun p after => dataItems fin (k, w ++ p) (decode · after))) :
    ∃ x, (k, w ++ x) ∈ messages
        (takePayload n bs fun p after => dataItems fin (k, w ++ p) (decode · after)) ∧
      bs.take n <+: x ∧ (fin = true → x = bs.take n) := by
  have htake := takePayload_of_goesOn hgood
  rw [htake, dataItems] at hgood ⊢
  split_ifs at hgood ⊢ with hfin
  · exact ⟨bs.take n, List.mem_filterMap.mpr ⟨_, List.mem_cons_self, rfl⟩, List.prefix_rfl,
      fun _ => rfl⟩
  · obtain ⟨x, hx⟩ := exists_message _ k (w ++ bs.take n) _ le_rfl hgood
    refine ⟨bs.take n ++ x, ?_, List.prefix_append _ _, fun hf => absurd hf hfin⟩
    rwa [← List.append_assoc]

/-! ## Frames a server sends

As values, and as bytes.  A server does not mask its frames. -/

/-- A frame from a server. -/
structure Frame where
  fin : Bool
  opcode : ℕ
  payload : List UInt8
  deriving DecidableEq, Repr

namespace Frame

/-- Its header. -/
def header (f : Frame) : Header := ⟨f.fin, f.opcode, false, f.payload.length⟩

/-- What a frame has to be for its bytes to be a frame at all. -/
def Valid (f : Frame) : Prop := knownOpcode f.opcode = true ∧ f.payload.length < 2 ^ 63

instance (f : Frame) : Decidable f.Valid := inferInstanceAs (Decidable (_ ∧ _))

end Frame

/-- The last `k` base-256 digits of `n`, the highest first. -/
def bigEndianBytes : ℕ → ℕ → List UInt8
  | 0, _ => []
  | k + 1, n => bigEndianBytes k (n / 256) ++ [UInt8.ofNat n]

/-- There are as many digits as asked for. -/
@[simp] lemma length_bigEndianBytes (k n : ℕ) : (bigEndianBytes k n).length = k := by
  induction k generalizing n with
  | zero => rfl
  | succ k ih => simp [bigEndianBytes, ih]

lemma bigEndian_bigEndianBytes (k : ℕ) : ∀ n, n < 256 ^ k → bigEndian (bigEndianBytes k n) = n := by
  induction k with
  | zero => intro n hn; simp at hn; simp [bigEndianBytes, bigEndian, hn]
  | succ k ih =>
      intro n hn
      have hd : n / 256 < 256 ^ k := by
        rw [pow_succ] at hn
        exact Nat.div_lt_of_lt_mul (by rwa [mul_comm] at hn)
      have hih := ih _ hd
      simp only [bigEndian] at hih
      simp only [bigEndianBytes, bigEndian, List.foldl_append, List.foldl_cons, List.foldl_nil, hih,
        UInt8.toNat_ofNat']
      omega

lemma bigEndianBytes_bigEndian (bs : List UInt8) :
    bigEndianBytes bs.length (bigEndian bs) = bs := by
  induction bs using List.reverseRecOn with
  | nil => rfl
  | append_singleton bs b ih =>
      have hb : b.toNat < 256 := b.toNat_lt
      have hvalue : bigEndian (bs ++ [b]) = 256 * bigEndian bs + b.toNat := by
        simp [bigEndian]
      have hhigh : (256 * bigEndian bs + b.toNat) / 256 = bigEndian bs := by omega
      have hlow : UInt8.ofNat (256 * bigEndian bs + b.toNat) = b := by
        rw [← UInt8.toNat_inj, UInt8.toNat_ofNat']
        omega
      rw [List.length_append, List.length_singleton, bigEndianBytes, hvalue, hhigh, ih, hlow]

/-- The second byte of a frame and the extended length, in the shortest form. -/
def lengthBytes (n : ℕ) : List UInt8 :=
  if n ≤ 125 then [UInt8.ofNat n]
  else if n ≤ 65535 then 126 :: bigEndianBytes 2 n
  else 127 :: bigEndianBytes 8 n

/-- The bytes of a frame. -/
def Frame.encode (f : Frame) : List UInt8 :=
  UInt8.ofNat ((if f.fin then 128 else 0) + f.opcode) :: (lengthBytes f.payload.length ++ f.payload)

/-- **The header of an encoded frame is read back.** -/
theorem parseHeader_encode {f : Frame} (hf : f.Valid) (rest : List UInt8) :
    parseHeader (f.encode ++ rest) = .complete f.header (f.payload ++ rest) := by
  obtain ⟨hop, hlen⟩ := hf
  have hop' : f.opcode < 16 := by
    simp only [knownOpcode, Bool.or_eq_true, Bool.and_eq_true, decide_eq_true_eq] at hop
    omega
  have hb : (UInt8.ofNat ((if f.fin then 128 else 0) + f.opcode)).toNat
      = (if f.fin then 128 else 0) + f.opcode := by
    rw [UInt8.toNat_ofNat']
    split_ifs <;> omega
  have hrsv : (UInt8.ofNat ((if f.fin then 128 else 0) + f.opcode)).toNat / 16 % 8 = 0 := by
    rw [hb]; split_ifs <;> omega
  have hopcode : (UInt8.ofNat ((if f.fin then 128 else 0) + f.opcode)).toNat % 16 = f.opcode := by
    rw [hb]; split_ifs <;> omega
  have hfin :
      decide (128 ≤ (UInt8.ofNat ((if f.fin then 128 else 0) + f.opcode)).toNat) = f.fin := by
    rw [hb]
    cases f.fin with
    | true => simp
    | false => simp; omega
  simp only [Frame.encode, Frame.header, lengthBytes, List.cons_append]
  generalize UInt8.ofNat ((if f.fin then 128 else 0) + f.opcode) = b0 at hrsv hopcode hfin ⊢
  split_ifs with h1 h2
  · -- the short form
    have hn : (UInt8.ofNat f.payload.length).toNat = f.payload.length := by
      rw [UInt8.toNat_ofNat']; omega
    have hext : extendedLength (UInt8.ofNat f.payload.length) = 0 := by
      simp only [extendedLength, hn]; split_ifs <;> omega
    have hmod : f.payload.length % 128 = f.payload.length := by omega
    have hmask : ¬ 128 ≤ f.payload.length := by omega
    simp [parseHeader, hrsv, hopcode, hfin, hext, hn, hop, minimalLength, hmod, hmask]
  · -- two bytes of length
    have hbe := bigEndian_bigEndianBytes 2 f.payload.length (by omega)
    have hext : extendedLength 126 = 2 := by decide
    have hmin : minimalLength 2 f.payload.length = true := by simp [minimalLength]; omega
    have hlong : ¬ 2 + (f.payload.length + rest.length) ≤ 1 := by omega
    simp [parseHeader, hrsv, hopcode, hfin, hext, hop, hbe, hmin, hlong]
  · -- eight bytes of length
    have hbe := bigEndian_bigEndianBytes 8 f.payload.length (by omega)
    have hext : extendedLength 127 = 8 := by decide
    have hmin : minimalLength 8 f.payload.length = true := by simp [minimalLength]; omega
    simp [parseHeader, hrsv, hopcode, hfin, hext, hop, hbe, hmin]

/-- The meaning of a sequence of frames, with the message `o` in progress. -/
def items : Open → List Frame → List Item
  | o, [] => endOfStream o []
  | o, f :: fs =>
      if f.header.admissible o.isSome = false then [.failed protocolError]
      else if f.header.isControl then f.header.controlItems f.payload (items o fs)
      else
        f.header.starts ++
          dataItems f.fin ((f.header.joins o).1, (f.header.joins o).2 ++ f.payload) (items · fs)

/-- **Decoding the bytes of a sequence of frames gives the meaning of the sequence.** -/
theorem decode_encode (fs : List Frame) : ∀ o : Open, (∀ f ∈ fs, f.Valid) →
    decode o (fs.flatMap Frame.encode) = items o fs := by
  induction fs with
  | nil => intro o _; rfl
  | cons f fs ih =>
      intro o hv
      have htail := fun o => ih o fun g hg => hv g (List.mem_cons_of_mem f hg)
      rw [List.flatMap_cons, decode_complete (parseHeader_encode (hv f List.mem_cons_self) _)]
      have htake : (f.payload ++ fs.flatMap Frame.encode).take f.header.len = f.payload := by
        simp [Frame.header]
      have hdrop : (f.payload ++ fs.flatMap Frame.encode).drop f.header.len
          = fs.flatMap Frame.encode := by simp [Frame.header]
      have hlen : ¬ (f.payload ++ fs.flatMap Frame.encode).length < f.header.len := by
        simp [Frame.header]
      simp only [takePayload, htake, hdrop, if_neg hlen, htail]
      rfl

/-! ## Frames in an order that is allowed

A message is open or not between two frames; the frames that are allowed depend on it. -/

/-- Whether a message is open after the frame, `none` if the frame is not allowed. -/
def Frame.leaves (f : Frame) (isOpen : Bool) : Option Bool :=
  if f.header.admissible isOpen then some (if f.header.isControl then isOpen else !f.fin) else none

/-- Whether a message is open after the frames, `none` if one of them is not allowed. -/
def leaves (isOpen : Bool) (fs : List Frame) : Option Bool :=
  fs.foldlM (fun isOpen f => f.leaves isOpen) isOpen

lemma leaves_cons (isOpen : Bool) (f : Frame) (fs : List Frame) :
    leaves isOpen (f :: fs) = (f.leaves isOpen).bind (leaves · fs) := List.foldlM_cons

lemma leaves_append (isOpen : Bool) (fs gs : List Frame) :
    leaves isOpen (fs ++ gs) = (leaves isOpen fs).bind (leaves · gs) := List.foldlM_append

/-- An item of a stream that need not be failed, and that does not end too early if no message is
left open. -/
def Item.Sound (isOpen : Bool) (it : Item) : Prop :=
  (∀ status, it ≠ .failed status) ∧ (isOpen = false → it ≠ .unfinished)

/-- The beginning of a message is sound. -/
lemma sound_starts (h : Header) (isOpen : Bool) : ∀ it ∈ h.starts, it.Sound isOpen := by
  intro it hit
  rw [Header.starts] at hit
  split_ifs at hit
  · obtain rfl := List.mem_singleton.mp hit
    exact ⟨fun _ => Item.noConfusion, fun _ => Item.noConfusion⟩
  · obtain rfl := List.mem_singleton.mp hit
    exact ⟨fun _ => Item.noConfusion, fun _ => Item.noConfusion⟩
  · cases hit

/-- **Frames in an order that is allowed** are read to the end. -/
theorem sound_items {fs : List Frame} : ∀ {o : Open} {isOpen : Bool},
    leaves o.isSome fs = some isOpen → ∀ it ∈ items o fs, it.Sound isOpen := by
  induction fs with
  | nil =>
      intro o isOpen h it hit
      obtain rfl := Option.some.inj h
      rw [items, endOfStream] at hit
      split_ifs at hit with hnone
      · cases hit
      · obtain rfl := List.mem_singleton.mp hit
        refine ⟨fun _ => Item.noConfusion, fun hclosed => absurd ⟨rfl, ?_⟩ hnone⟩
        exact Option.not_isSome_iff_eq_none.mp (by simp [hclosed])
  | cons f fs ih =>
      intro o isOpen h it hit
      rw [leaves_cons, Frame.leaves] at h
      rw [items] at hit
      by_cases hadm : f.header.admissible o.isSome = true
      · rw [if_pos hadm, Option.bind_some] at h
        rw [if_neg (by simp [hadm])] at hit
        by_cases hcontrol : f.header.isControl = true
        · rw [if_pos hcontrol] at h hit
          rw [Header.controlItems] at hit
          split_ifs at hit
          · rcases List.mem_cons.mp hit with rfl | hit
            · exact ⟨fun _ => Item.noConfusion, fun _ => Item.noConfusion⟩
            · exact ih h it hit
          · rcases List.mem_cons.mp hit with rfl | hit
            · exact ⟨fun _ => Item.noConfusion, fun _ => Item.noConfusion⟩
            · exact ih h it hit
          · obtain rfl := List.mem_singleton.mp hit
            exact ⟨fun _ => Item.noConfusion, fun _ => Item.noConfusion⟩
        · rw [if_neg hcontrol] at h hit
          rcases List.mem_append.mp hit with hit | hit
          · exact sound_starts f.header isOpen it hit
          · rw [dataItems] at hit
            cases hfin : f.fin with
            | true =>
                rw [hfin] at h
                rw [hfin, if_pos rfl] at hit
                rcases List.mem_cons.mp hit with rfl | hit
                · exact ⟨fun _ => Item.noConfusion, fun _ => Item.noConfusion⟩
                · exact ih (o := none) h it hit
            | false =>
                rw [hfin] at h
                rw [hfin, if_neg (by decide)] at hit
                exact ih (o := some _) h it hit
      · rw [if_neg hadm] at h
        cases h

end WebSocket
