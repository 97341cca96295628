import CurlWs.Handshake.HashPadding

/-!
# Runs of the hash

A context as its callers see it: it takes bytes, then perhaps some bits, and gives the digest of
what it was given as often as it is asked.  `Hashing` says so without blocks, lengths and flags, and
any calls of `SHA1Input`, `SHA1FinalBits` and `SHA1Result` on a context that was reset have the
results that it says.

## What comes from where

The digests are the standard's: `Sha1.digest` of exactly the bits that were given.  The codes are
not, for FIPS 180 has none; those of `Hashing` are the code's own, stated by what was given and not
by the fields of a context:

* a call succeeds while less than `2 ^ 64` bits were given and no digest was asked for;
* a call that gives more afterwards is a state error, and so are eight final bits or more;
* a message that becomes too long is noticed, but the call that makes it too long returns success:
  only the calls after it return the 1 that was left in `Corrupted`, which is also `shaNull`;
* after a failure there is no digest any more.

## Main results

* **`Hashing.Holds.step`** — one call keeps the state and returns what it says.
* **`sha1_sound`** — every sequence of calls returns what the state says, and every octet of the
  block that is written on the way is inside the block.
* **`cwsSha1_eq`** — `cws_sha1` hashes as many bytes as the length says modulo `2 ^ 32`.
-/

namespace CurlWs

open Sha1 (bits State)
open BlockHash (Absorber)

/-- What a context has been given: bytes that may go on, a whole message, or something it could not
take. -/
inductive Hashing where
  | taking (message : List Byte)
  | done (message : List Bool)
  | failed (code : ℕ)
  deriving DecidableEq, Repr

namespace Hashing

/-- More bytes.  SHA-1 is for messages of less than `2 ^ 64` bits, and the call that brings one
above still returns success. -/
def take (octets : List Byte) : Hashing → ℕ × Hashing
  | taking m =>
      (shaSuccess, if 8 * (m ++ octets).length < 2 ^ 64 then taking (m ++ octets) else failed 1)
  | done _ => (shaStateError, failed shaStateError)
  | failed code => (code, failed code)

/-- The last bits. -/
def finish (tail : List Bool) : Hashing → ℕ × Hashing
  | taking m => (shaSuccess, done (bits m ++ tail))
  | done _ => (shaStateError, failed shaStateError)
  | failed code => (code, failed code)

/-- One call: the error code and the digest. -/
def step (s : Hashing) : Sha1Call → (ℕ × Option (List Bool)) × Hashing
  | .input messageArray length =>
      if length = 0 then ((shaSuccess, none), s)
      else
        match messageArray with
        | none => ((shaNull, none), s)
        | some octets =>
            let r := s.take (octets.take length)
            ((r.1, none), r.2)
  | .finalBits messageBits length =>
      if length = 0 then ((shaSuccess, none), s)
      else if 8 ≤ length then ((shaStateError, none), failed shaStateError)
      else
        let r := s.finish ((bits [messageBits]).take length)
        ((r.1, none), r.2)
  | .result =>
      match s with
      | taking m => ((shaSuccess, some (Sha1.digest (bits m))), done (bits m))
      | done M => ((shaSuccess, some (Sha1.digest M)), done M)
      | failed code => ((code, none), failed code)

lemma step_input (s : Hashing) (messageArray : Option (List Byte)) (length : ℕ) :
    (s.step (.input messageArray length)).1.2 = none := by
  simp only [step]
  split_ifs
  · rfl
  · cases messageArray with
    | none => rfl
    | some octets => rfl

lemma step_finalBits (s : Hashing) (messageBits : Byte) (length : ℕ) :
    (s.step (.finalBits messageBits length)).1.2 = none := by
  rw [step]
  split_ifs
  · rfl
  · rfl
  · rfl

/-- A sequence of calls. -/
def run (s : Hashing) : List Sha1Call → List (ℕ × Option (List Bool))
  | [] => []
  | call :: calls => (s.step call).1 :: (s.step call).2.run calls

end Hashing

/-! ## The contexts of a state

What the fields of a context say about what it has been given. -/

/-- The length in bits, from its two words. -/
def SHA1Context.bitLength (c : SHA1Context) : ℕ := c.lengthHigh.toNat * 2 ^ 32 + c.lengthLow.toNat

/-- A block changes no length.  The definition is unfolded before anything is compared: a context
with another value of the hash must not be. -/
lemma bitLength_processMessageBlock {c : SHA1Context} (hblock : c.messageBlock.length = 64) :
    (sha1ProcessMessageBlock c).bitLength = c.bitLength := by
  rw [sha1ProcessMessageBlock_eq c hblock, SHA1Context.bitLength, SHA1Context.bitLength]

/-- A context that has taken `m`. -/
structure Took (m : List Byte) (c : SHA1Context) : Prop where
  running : c.computed = false
  sound : c.corrupted = 0
  length : c.bitLength = 8 * m.length
  value : c.intermediateHash = (absorbed m).value
  kept : c.messageBlock = (absorbed m).kept

/-- A context that cannot be used any more.  An overflow may leave a block of all its octets. -/
structure Broken (code : ℕ) (c : SHA1Context) : Prop where
  corrupted : c.corrupted = code
  kind : (code = 1 ∧ c.computed = false) ∨ code = shaStateError
  block : c.messageBlock.length ≤ sha1MessageBlockSize

/-- The contexts that a state stands for.  After the digest the block and the length are cleared, so
that only the value is left. -/
def Hashing.Holds : Hashing → SHA1Context → Prop
  | taking m, c => Took m c
  | done M, c => c = { intermediateHash := Sha1.hash M, computed := true }
  | failed code, c => Broken code c

variable {m : List Byte} {c : SHA1Context}

/-- A context that was reset has taken nothing. -/
lemma took_reset : Took [] sha1Reset := ⟨rfl, rfl, rfl, rfl, rfl⟩

/-! ## Bytes

Octets that are taken one by one, and the length that goes on with each. -/

/-- **`SHA1AddLength`**: the length goes on, or over. -/
lemma sha1AddLength_spec (c : SHA1Context) {k : ℕ} (hk : k < 2 ^ 32) :
    let c' := sha1AddLength c (UInt32.ofNat k)
    c' = { c with lengthLow := c'.lengthLow, lengthHigh := c'.lengthHigh, corrupted := c'.corrupted } ∧
      (c.bitLength + k < 2 ^ 64 → c'.corrupted = 0 ∧ c'.bitLength = c.bitLength + k) ∧
      (2 ^ 64 ≤ c.bitLength + k → c'.corrupted = 1) := by
  have hlow : c.lengthLow.toNat < 2 ^ 32 := c.lengthLow.toNat_lt
  have hhigh : c.lengthHigh.toNat < 2 ^ 32 := c.lengthHigh.toNat_lt
  have hsum : (c.lengthLow + UInt32.ofNat k).toNat = (c.lengthLow.toNat + k) % 2 ^ 32 := by
    rw [UInt32.toNat_add, UInt32.toNat_ofNat_of_lt' hk]
  have hnext : (c.lengthHigh + 1).toNat = (c.lengthHigh.toNat + 1) % 2 ^ 32 := UInt32.toNat_add _ _
  have hzero : c.lengthHigh + 1 = 0 ↔ (c.lengthHigh.toNat + 1) % 2 ^ 32 = 0 := by
    rw [← UInt32.toNat_inj, hnext]
    rfl
  intro c'
  have hc' : c' = sha1AddLength c (UInt32.ofNat k) := rfl
  rw [sha1AddLength] at hc'
  simp only [UInt32.lt_iff_toNat_lt, hsum, hzero] at hc'
  split_ifs at hc' with hover hfull
  · -- both words overflow
    rw [hc', SHA1Context.bitLength]
    exact ⟨rfl, fun hfits => by omega, fun _ => rfl⟩
  · have hcarry : (c.lengthLow.toNat + k) % 2 ^ 32 = c.lengthLow.toNat + k - 2 ^ 32 := by omega
    have hone : (c.lengthHigh.toNat + 1) % 2 ^ 32 = c.lengthHigh.toNat + 1 := by omega
    rw [hc', SHA1Context.bitLength, SHA1Context.bitLength, hsum, hnext]
    refine ⟨rfl, fun _ => ⟨rfl, ?_⟩, fun hlong => ?_⟩
    · omega
    · omega
  · rw [hc', SHA1Context.bitLength, SHA1Context.bitLength, hsum]
    refine ⟨rfl, fun _ => ⟨rfl, ?_⟩, fun hlong => ?_⟩
    · simp only
      omega
    · omega

lemma Took.lt (h : Took m c) : 8 * m.length < 2 ^ 64 := by
  have hlow : c.lengthLow.toNat < 2 ^ 32 := c.lengthLow.toNat_lt
  have hhigh : c.lengthHigh.toNat < 2 ^ 32 := c.lengthHigh.toNat_lt
  rw [← h.length, SHA1Context.bitLength]
  omega

lemma Took.room (h : Took m c) : c.messageBlock.length < sha1MessageBlockSize := by
  rw [h.kept]
  exact (absorbed m).kept_lt

/-- **One octet.** -/
lemma Took.octet (h : Took m c) (octet : Byte) :
    (8 * (m ++ [octet]).length < 2 ^ 64 → Took (m ++ [octet]) (sha1InputOctet c octet)) ∧
      (2 ^ 64 ≤ 8 * (m ++ [octet]).length → Broken 1 (sha1InputOctet c octet)) := by
  obtain ⟨hframe, hfits, hover⟩ :=
    sha1AddLength_spec { c with messageBlock := c.messageBlock ++ [octet] } (show 8 < 2 ^ 32 by decide)
  generalize hc' : sha1AddLength _ _ = c' at hframe hfits hover
  have hlength : c.bitLength + 8 = 8 * (m ++ [octet]).length := by
    rw [h.length, List.length_append, List.length_singleton, Nat.mul_succ]
  have hoctet : sha1InputOctet c octet =
      if c'.corrupted = 0 ∧ c'.messageBlock.length = sha1MessageBlockSize then
        sha1ProcessMessageBlock c' else c' := by
    rw [← hc']
    rfl
  have hblock : c'.messageBlock = (absorbed m).kept ++ [octet] := by
    rw [hframe, h.kept]
  rw [hoctet]
  refine ⟨fun hlt => ?_, fun hge => ?_⟩
  · obtain ⟨hsound, hnew⟩ := hfits (hlength.trans_lt hlt)
    have hnew' : c'.bitLength = 8 * (m ++ [octet]).length := hnew.trans hlength
    have hvalue : c'.intermediateHash = (absorbed m).value := by
      rw [hframe]
      exact h.value
    have hrunning : c'.computed = false := by
      rw [hframe]
      exact h.running
    have hsplit : absorbed (m ++ [octet]) = (absorbed m).absorb compressOctets octet :=
      absorbed_append m [octet]
    by_cases hroom : (absorbed m).kept.length + 1 < 64
    · obtain ⟨hv, hk⟩ := (absorbed m).absorb_short compressOctets octet hroom
      rw [if_neg]
      · exact ⟨hrunning, hsound, hnew', by rw [hvalue, hsplit, hv], by rw [hblock, hsplit, hk]⟩
      · rw [hblock, List.length_append, List.length_singleton]
        exact fun hwhole => absurd hwhole.2 hroom.ne
    · -- the block is complete
      obtain ⟨hv, hk⟩ := (absorbed m).absorb_block compressOctets octet hroom
      have hlt := (absorbed m).kept_lt
      have hwhole : c'.messageBlock.length = 64 := by
        rw [hblock, List.length_append, List.length_singleton]
        omega
      have hnext : Sha1.compress c'.intermediateHash (bits c'.messageBlock)
          = (absorbed (m ++ [octet])).value := by
        rw [hvalue, hblock, hsplit, hv, compressOctets]
      have hprocess := sha1ProcessMessageBlock_eq c' hwhole
      rw [if_pos ⟨hsound, hwhole⟩]
      refine ⟨?_, ?_, (bitLength_processMessageBlock hwhole).trans hnew', ?_, ?_⟩
      · rw [hprocess]
        exact hrunning
      · rw [hprocess]
        exact hsound
      · rw [hprocess]
        exact hnext
      · rw [hprocess, hsplit, hk]
  · have hbroken : c'.corrupted = 1 := hover (hge.trans_eq hlength.symm)
    rw [if_neg fun hsound => absurd (hbroken.symm.trans hsound.1) (by decide)]
    refine ⟨hbroken, .inl ⟨rfl, ?_⟩, ?_⟩
    · rw [hframe]
      exact h.running
    · have hroom := h.room
      rw [h.kept] at hroom
      rw [hblock, List.length_append]
      exact hroom

/-- **The loop of `SHA1Input`** stops where the length overflows. -/
lemma Took.inputLoop (octets : List Byte) : ∀ {m : List Byte} {c : SHA1Context}, Took m c →
    (8 * (m ++ octets).length < 2 ^ 64 → Took (m ++ octets) (sha1InputLoop c octets)) ∧
      (2 ^ 64 ≤ 8 * (m ++ octets).length → Broken 1 (sha1InputLoop c octets)) := by
  induction octets with
  | nil =>
      intro m c h
      rw [List.append_nil]
      exact ⟨fun _ => h, fun hge => absurd h.lt hge.not_gt⟩
  | cons octet octets ih =>
      intro m c h
      obtain ⟨hgo, hstop⟩ := h.octet octet
      have hlength : (m ++ octet :: octets).length = (m ++ [octet]).length + octets.length := by
        simp only [List.length_append, List.length_cons, List.length_nil]
        omega
      rw [sha1InputLoop, if_pos h.sound]
      by_cases hlt : 8 * (m ++ [octet]).length < 2 ^ 64
      · rw [List.append_cons]
        exact ih (hgo hlt)
      · have hbroken := hstop (not_lt.mp hlt)
        have hsame : sha1InputLoop (sha1InputOctet c octet) octets = sha1InputOctet c octet := by
          cases octets with
          | nil => rfl
          | cons octet' octets =>
              rw [sha1InputLoop, if_neg]
              rw [hbroken.corrupted]
              decide
        rw [hsame]
        exact ⟨fun hfits => absurd hfits (by omega), fun _ => hbroken⟩

/-! ## The steps

Each of the three calls keeps the state of `Hashing` and returns its code. -/

/-- The results of a call, with the digest in bits. -/
def inBits (r : ℕ × Option (List Byte)) : ℕ × Option (List Bool) := (r.1, r.2.map bits)

/-- **The digest of a context** is what its value stands for. -/
lemma bits_digest (h : State) :
    bits ((List.range sha1HashSize).map fun i =>
      (h.words.getD (i / 4) 0 >>> UInt32.ofNat (8 * (3 - i % 4))).toUInt8) = h.bits := by
  have hword (w : UInt32) : ([0, 1, 2, 3].map fun i =>
      (w >>> UInt32.ofNat (8 * (3 - i % 4))).toUInt8) = wordOctets w := by
    have hlast : w >>> UInt32.ofNat (8 * (3 - 3 % 4)) = w := UInt32.shiftRight_zero
    simp only [List.map_cons, hlast]
    rfl
  have hoctets : (List.range sha1HashSize).map (fun i =>
      (h.words.getD (i / 4) 0 >>> UInt32.ofNat (8 * (3 - i % 4))).toUInt8)
        = h.words.flatMap wordOctets := by
    simp only [State.words, List.flatMap_cons, List.flatMap_nil, ← hword]
    rfl
  have hwords (ws : List UInt32) :
      bits (ws.flatMap wordOctets) = ws.flatMap fun w => Sha1.toBits 32 w.toNat := by
    induction ws with
    | nil => rfl
    | cons w ws ih => rw [List.flatMap_cons, Sha1.bits_append, ih, List.flatMap_cons, toBits_word]
  rw [hoctets, hwords, State.bits]

/-- A message of whole bytes ends with the byte `0x80`. -/
lemma Took.finalize (h : Took m c) : sha1Finalize c 0x80 =
    { intermediateHash := Sha1.hash (bits m), computed := true } := by
  have hfinal := finalize_eq h.value h.kept (show ([] : List Bool).length < 8 by decide)
    endsWith_whole h.length
  rw [List.append_nil, h.sound] at hfinal
  exact hfinal

/-- The octets of a block never exceed it. -/
lemma Hashing.Holds.block {s : Hashing} (h : s.Holds c) :
    c.messageBlock.length ≤ sha1MessageBlockSize := by
  cases s with
  | taking m => exact (show Took m c from h).room.le
  | done M =>
      obtain rfl : c = _ := h
      exact Nat.zero_le _
  | failed code => exact (show Broken code c from h).block

/-- The code in `Corrupted` is no zero. -/
lemma Broken.ne_zero {code : ℕ} (h : Broken code c) : c.corrupted ≠ 0 := by
  rw [h.corrupted]
  rcases h.kind with ⟨rfl, -⟩ | rfl
  · decide
  · decide

/-- Once the digest is computed, there is one code only. -/
lemma Broken.computed {code : ℕ} (h : Broken code c) (hc : c.computed = true) :
    code = shaStateError := by
  rcases h.kind with ⟨-, hopen⟩ | hcode
  · rw [hopen] at hc
    cases hc
  · exact hcode

/-- **What is not to be computed any more.** -/
lemma Hashing.Holds.misuse {s : Hashing} (h : s.Holds c) :
    Broken shaStateError { c with corrupted := shaStateError } :=
  ⟨rfl, .inr rfl, h.block⟩

/-- **`SHA1Input`** keeps the state. -/
lemma Hashing.Holds.input {s : Hashing} (h : s.Holds c) (messageArray : Option (List Byte))
    (length : ℕ) :
    (sha1Input c messageArray length).1 = (s.step (.input messageArray length)).1.1 ∧
      (s.step (.input messageArray length)).2.Holds (sha1Input c messageArray length).2 := by
  by_cases hlength : length = 0
  · simp only [sha1Input, Hashing.step, if_pos hlength]
    exact ⟨trivial, h⟩
  cases messageArray with
  | none =>
      simp only [sha1Input, Hashing.step, if_neg hlength]
      exact ⟨trivial, h⟩
  | some octets =>
      simp only [sha1Input, Hashing.step, if_neg hlength]
      cases s with
      | taking m =>
          have htook : Took m c := h
          obtain ⟨hgo, hstop⟩ := htook.inputLoop (octets.take length)
          simp only [Hashing.take, htook.running, htook.sound, Bool.false_eq_true, if_false, ne_eq,
            not_true]
          by_cases hlt : 8 * (m ++ octets.take length).length < 2 ^ 64
          · rw [if_pos hlt]
            exact ⟨trivial, hgo hlt⟩
          · rw [if_neg hlt]
            exact ⟨trivial, hstop (not_lt.mp hlt)⟩
      | done M =>
          have hmisuse := h.misuse
          obtain rfl : c = _ := h
          exact ⟨rfl, hmisuse⟩
      | failed code =>
          have hbroken : Broken code c := h
          by_cases hc : c.computed = true
          · obtain rfl := hbroken.computed hc
            rw [if_pos hc]
            exact ⟨rfl, h.misuse⟩
          · rw [if_neg hc, if_pos hbroken.ne_zero]
            exact ⟨hbroken.corrupted, hbroken⟩

/-- **`SHA1FinalBits`** keeps the state. -/
lemma Hashing.Holds.finalBits {s : Hashing} (h : s.Holds c) (messageBits : Byte) (length : ℕ) :
    (sha1FinalBits c messageBits length).1 = (s.step (.finalBits messageBits length)).1.1 ∧
      (s.step (.finalBits messageBits length)).2.Holds (sha1FinalBits c messageBits length).2 := by
  by_cases hlength : length = 0
  · simp only [sha1FinalBits, Hashing.step, if_pos hlength]
    exact ⟨trivial, h⟩
  by_cases hlong : 8 ≤ length
  · simp only [sha1FinalBits, Hashing.step, if_neg hlength, hlong, or_true, if_true]
    exact ⟨trivial, h.misuse⟩
  simp only [sha1FinalBits, Hashing.step, if_neg hlength, hlong, or_false, if_false]
  cases s with
  | taking m =>
      have htook : Took m c := h
      obtain ⟨hframe, hfits, -⟩ := sha1AddLength_spec c (k := length) (by omega)
      generalize sha1AddLength c (UInt32.ofNat length) = c' at hframe hfits ⊢
      have hlt := htook.lt
      obtain ⟨hsound, hlen⟩ := hfits (by rw [htook.length]; omega)
      have htail : ((bits [messageBits]).take length).length = length := by
        rw [List.length_take, Sha1.length_bits, List.length_singleton]
        omega
      have hfinal := finalize_eq (c := c') (m := m) (by rw [hframe]; exact htook.value)
        (by rw [hframe]; exact htook.kept) (htail.trans_lt (by omega))
        (endsWith_finalBits (by omega) (by omega) messageBits)
        (by rw [htail, ← htook.length, ← hlen, SHA1Context.bitLength])
      simp only [htook.running, htook.sound, Bool.false_eq_true, if_false, ne_eq, not_true,
        Hashing.finish]
      refine ⟨trivial, ?_⟩
      rw [hsound] at hfinal
      exact hfinal
  | done M =>
      have hmisuse := h.misuse
      obtain rfl : c = _ := h
      exact ⟨rfl, hmisuse⟩
  | failed code =>
      have hbroken : Broken code c := h
      by_cases hc : c.computed = true
      · obtain rfl := hbroken.computed hc
        rw [if_pos hc]
        exact ⟨rfl, h.misuse⟩
      · rw [if_neg hc, if_pos hbroken.ne_zero]
        exact ⟨hbroken.corrupted, hbroken⟩

/-- **`SHA1Result`** keeps the state and gives the digest. -/
lemma Hashing.Holds.result {s : Hashing} (h : s.Holds c) :
    inBits (sha1Result c).1 = (s.step .result).1 ∧ (s.step .result).2.Holds (sha1Result c).2 := by
  cases s with
  | taking m =>
      have htook : Took m c := h
      have hsound : ¬ c.corrupted ≠ 0 := not_not.mpr htook.sound
      have hrunning : ¬ c.computed = true := by
        rw [htook.running]
        decide
      simp only [sha1Result, if_neg hsound, if_neg hrunning, htook.finalize]
      refine ⟨?_, rfl⟩
      rw [inBits, Option.map_some, bits_digest]
      rfl
  | done M =>
      obtain rfl : c = _ := h
      simp only [sha1Result, ne_eq, not_true, if_false, if_true]
      refine ⟨?_, rfl⟩
      rw [inBits, Option.map_some, bits_digest]
      rfl
  | failed code =>
      have hbroken : Broken code c := h
      simp only [sha1Result, if_pos hbroken.ne_zero]
      refine ⟨?_, hbroken⟩
      rw [hbroken.corrupted]
      rfl

/-- **Every call keeps the state, and returns what it says.** -/
theorem Hashing.Holds.step {s : Hashing} (h : s.Holds c) (call : Sha1Call) :
    inBits (sha1Step c call).1 = (s.step call).1 ∧ (s.step call).2.Holds (sha1Step c call).2 := by
  cases call with
  | input messageArray length =>
      obtain ⟨hcode, hnext⟩ := h.input messageArray length
      exact ⟨Prod.ext hcode (s.step_input messageArray length).symm, hnext⟩
  | finalBits messageBits length =>
      obtain ⟨hcode, hnext⟩ := h.finalBits messageBits length
      exact ⟨Prod.ext hcode (s.step_finalBits messageBits length).symm, hnext⟩
  | result => exact h.result

/-! ## The octets that are written

Every assignment to `Message_Block` is recorded with its index.  The index is below 64 because there
is room for one octet more between the calls. -/

lemma lt_of_mem_fillWrites {i n j : ℕ} (h : j ∈ fillWrites i n) : j < n := by
  rw [fillWrites, List.mem_range'_1] at h
  omega

/-- **`SHA1Finalize`** stays inside the block, if one more octet fits. -/
lemma sha1FinalizeWrites_lt {c : SHA1Context}
    (hroom : c.messageBlock.length < sha1MessageBlockSize) :
    ∀ i ∈ sha1FinalizeWrites c, i < sha1MessageBlockSize := by
  have hsize : sha1MessageBlockSize = 64 := rfl
  intro i hi
  rcases List.mem_append.mp hi with hpad | hclear
  · simp only [sha1PadMessageWrites, List.cons_append, List.mem_cons, List.mem_append] at hpad
    rcases hpad with rfl | hzero | hlength
    · exact hroom
    · split_ifs at hzero with hlong
      · rcases List.mem_append.mp hzero with hfirst | hsecond
        · exact lt_of_mem_fillWrites hfirst
        · have hlt := lt_of_mem_fillWrites hsecond
          omega
      · have hlt := lt_of_mem_fillWrites hzero
        omega
    · have hlt : ∀ j ∈ [56, 57, 58, 59, 60, 61, 62, 63], j < 64 := by decide
      exact hlt i (by simpa using hlength)
  · exact List.mem_range.mp hclear

/-- **The loop of `SHA1Input`** stays inside the block. -/
lemma Took.inputWrites (octets : List Byte) : ∀ {m : List Byte} {c : SHA1Context}, Took m c →
    ∀ i ∈ sha1InputWrites c octets, i < sha1MessageBlockSize := by
  induction octets with
  | nil => exact fun _ i hi => absurd hi List.not_mem_nil
  | cons octet octets ih =>
      intro m c h i hi
      rw [sha1InputWrites, if_pos h.sound] at hi
      rcases List.mem_cons.mp hi with rfl | hrest
      · exact h.room
      · by_cases hlt : 8 * (m ++ [octet]).length < 2 ^ 64
        · exact ih ((h.octet octet).1 hlt) i hrest
        · -- nothing is written any more
          have hbroken := (h.octet octet).2 (not_lt.mp hlt)
          cases octets with
          | nil => exact absurd hrest List.not_mem_nil
          | cons octet' octets =>
              rw [sha1InputWrites, if_neg hbroken.ne_zero] at hrest
              exact absurd hrest List.not_mem_nil

/-- A context without a digest and without an error has taken some message. -/
lemma Hashing.Holds.took {s : Hashing} (h : s.Holds c) (hrunning : ¬ c.computed = true)
    (hsound : ¬ c.corrupted ≠ 0) : ∃ m, Took m c := by
  cases s with
  | taking m => exact ⟨m, h⟩
  | done M =>
      obtain rfl : c = _ := h
      exact absurd rfl hrunning
  | failed code => exact absurd (show Broken code c from h).ne_zero hsound

/-- **Every call stays inside the block.** -/
lemma Hashing.Holds.writes {s : Hashing} (h : s.Holds c) (call : Sha1Call) :
    ∀ i ∈ sha1StepWrites c call, i < sha1MessageBlockSize := by
  intro i hi
  cases call with
  | input messageArray length =>
      rw [sha1StepWrites] at hi
      split_ifs at hi with hidle
      · exact absurd hi List.not_mem_nil
      · obtain ⟨-, -, hrunning, hsound⟩ := by simpa only [not_or] using hidle
        obtain ⟨m, htook⟩ := h.took hrunning hsound
        exact htook.inputWrites _ i hi
  | finalBits messageBits length =>
      rw [sha1StepWrites] at hi
      split_ifs at hi with hidle
      · exact absurd hi List.not_mem_nil
      · obtain ⟨-, hrunning, -, hsound⟩ := by simpa only [not_or] using hidle
        obtain ⟨m, htook⟩ := h.took hrunning hsound
        exact sha1FinalizeWrites_lt htook.room i hi
  | result =>
      rw [sha1StepWrites] at hi
      split_ifs at hi with hidle
      · exact absurd hi List.not_mem_nil
      · obtain ⟨hsound, hrunning⟩ := by simpa only [not_or] using hidle
        obtain ⟨m, htook⟩ := h.took hrunning hsound
        exact sha1FinalizeWrites_lt htook.room i hi

/-! ## Runs

A sequence of calls on one context. -/

/-- A run returns what the state says. -/
theorem Hashing.Holds.run (calls : List Sha1Call) : ∀ {s : Hashing} {c : SHA1Context}, s.Holds c →
    (sha1Run c calls).1.map inBits = s.run calls ∧
      (sha1Run c calls).2.messageBlock.length ≤ sha1MessageBlockSize := by
  induction calls with
  | nil =>
      intro s c h
      exact ⟨rfl, h.block⟩
  | cons call calls ih =>
      intro s c h
      obtain ⟨hresult, hnext⟩ := h.step call
      obtain ⟨hresults, hblock⟩ := ih hnext
      refine ⟨?_, hblock⟩
      rw [sha1Run, Hashing.run, List.map_cons, hresult, hresults]

/-- A run stays inside the block, from one assignment to the next. -/
theorem Hashing.Holds.runWrites (calls : List Sha1Call) :
    ∀ {s : Hashing} {c : SHA1Context}, s.Holds c →
      ∀ i ∈ sha1RunWrites c calls, i < sha1MessageBlockSize := by
  induction calls with
  | nil => exact fun _ i hi => absurd hi List.not_mem_nil
  | cons call calls ih =>
      intro s c h i hi
      rcases List.mem_append.mp hi with hcall | hrest
      · exact h.writes call i hcall
      · exact ih (h.step call).2 i hrest

/-- The first bytes of a message: `cws_sha1` can give no more than `2 ^ 32 - 1` of them. -/
lemma sha1Input_reset (data : List Byte) {n : ℕ} (hn : n < 2 ^ 32) :
    (sha1Input sha1Reset (some data) n).1 = shaSuccess ∧
      Took (data.take n) (sha1Input sha1Reset (some data) n).2 := by
  have hshort : (data.take n).length < 2 ^ 32 := (List.length_take_le n data).trans_lt hn
  by_cases hzero : n = 0
  · rw [hzero, List.take_zero]
    exact ⟨rfl, took_reset⟩
  · have hloop := (took_reset.inputLoop (data.take n)).1 (by rw [List.nil_append]; omega)
    rw [sha1Input, if_neg hzero]
    exact ⟨rfl, hloop⟩

/-- **`cws_sha1`** hashes as many bytes as the length says modulo `2 ^ 32`. -/
theorem cwsSha1_eq (data : List Byte) (len : ℕ) :
    ∃ md, cwsSha1 (some data) len = (0, some md) ∧
      bits md = Sha1.digest (bits (data.take (len % 2 ^ 32))) := by
  obtain ⟨hcode, htook⟩ := sha1Input_reset data (Nat.mod_lt len (show 0 < 2 ^ 32 by decide))
  rw [cwsSha1]
  generalize sha1Input sha1Reset (some data) (len % 2 ^ 32) = r at hcode htook
  obtain ⟨hresult, -⟩ := Hashing.Holds.result (s := .taking (data.take (len % 2 ^ 32))) htook
  obtain ⟨hsuccess, hdigest⟩ := Prod.ext_iff.mp hresult
  obtain ⟨md, hmd, hbits⟩ := Option.map_eq_some_iff.mp hdigest
  have hsuccess' : (sha1Result r.2).1.1 = shaSuccess := hsuccess
  exact ⟨md, by simp only [if_pos hcode, if_pos hsuccess', hmd], hbits⟩

end CurlWs
