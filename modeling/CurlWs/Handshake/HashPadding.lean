import CurlWs.Handshake.HashBlocks
import CurlWs.Receive.Utf8Validate

/-!
# The end of a message

`SHA1PadMessage` fills up the last block, and a second one if the length does not fit behind the
first; the standard speaks of as few zeros as lead to a whole block.  The last bits of a message and
the one behind them come in a byte of their own.

**The octets so far.**  `absorbed m` is what the octets of a message come to, in the words of
`BlockHash`: the value after the whole blocks and the octets that are kept.  A context that has
taken `m` holds just this, and a message whose padding is whole octets is hashed by absorbing them
(`hash_eq`).

**The padding in octets.**  The byte that ends the message stands for its last bits, the one behind
them and the first zeros (`EndsWith`): `0x80` if there are none, and otherwise what the two tables
`masks` and `markbit` make of them (`endsWith_finalBits`).  Then come as many zero octets as lead to
eight octets below a whole block, and the length in bits (`pad_eq`).

**The padding in the block.**  The code takes one branch if the length fits behind the byte and
another if it does not.  Both absorb the same octets (`sha1PadMessage_eq`).

* **`finalize_eq`** — `SHA1Finalize` leaves the hash of the message.
-/

namespace CurlWs

open Sha1 (bits State)
open BlockHash (Absorber)

/-- The value after a block of octets. -/
def compressOctets (s : State) (block : List Byte) : State := Sha1.compress s (bits block)

/-- The octets taken so far, block by block. -/
def absorbed (m : List Byte) : Absorber 64 State Byte :=
  (⟨Sha1.initial, [], by decide⟩ : Absorber 64 State Byte).absorbAll compressOctets m

/-- Octets are taken one part after the other. -/
lemma absorbed_append (x y : List Byte) :
    absorbed (x ++ y) = (absorbed x).absorbAll compressOctets y :=
  Absorber.absorb_append _ _ _ _

/-- What is kept is the last block, as far as it goes. -/
lemma length_kept (m : List Byte) : (absorbed m).kept.length = m.length % 64 := by
  rw [absorbed, (Absorber.absorb_eq _ (by decide) _ m).2, List.length_drop]
  omega

/-- **A padded message of bytes**: its hash is what the octets come to. -/
lemma hash_eq {M : List Bool} {y : List Byte} (h : Sha1.pad M = bits y) :
    Sha1.hash M = (absorbed y).value := by
  have hfold := BlockHash.foldBlocks_flatMap (n := 64)
    (fun b : Byte => Sha1.length_toBits 8 b.toNat) Sha1.compress (y.length / 64) Sha1.initial y
  have hcount : (Sha1.pad M).length / 512 = y.length / 64 := by
    rw [h, Sha1.length_bits]
    omega
  rw [Sha1.hash, hcount, h, absorbed, (Absorber.absorb_eq _ (by decide) _ y).1]
  exact hfold

/-! ## The padding as bytes

The padded message of the standard is a sequence of bits; octet by octet it is what the code writes.
-/

/-- The octets of a word. -/
def wordOctets (w : UInt32) : List Byte :=
  [(w >>> 24).toUInt8, (w >>> 16).toUInt8, (w >>> 8).toUInt8, w.toUInt8]

/-- The bits of a word are those of its four octets. -/
lemma toBits_word (w : UInt32) : Sha1.toBits 32 w.toNat = bits (wordOctets w) := by
  have hoctet (i : ℕ) (hi : i < 32) :
      Sha1.toBits 8 (w >>> UInt32.ofNat i).toUInt8.toNat = Sha1.toBits 8 (w.toNat / 2 ^ i) := by
    have hi' : (UInt32.ofNat i).toNat % 32 = i := by
      rw [UInt32.toNat_ofNat_of_lt' (by rw [UInt32.size]; omega), Nat.mod_eq_of_lt hi]
    rw [UInt32.toNat_toUInt8, UInt32.toNat_shiftRight, hi', Nat.shiftRight_eq_div_pow,
      Sha1.toBits_mod]
  have hlast : Sha1.toBits 8 w.toUInt8.toNat = Sha1.toBits 8 w.toNat := by
    rw [UInt32.toNat_toUInt8, Sha1.toBits_mod]
  have hbits : bits (wordOctets w) = Sha1.toBits 8 (w.toNat / 2 ^ 24) ++
      (Sha1.toBits 8 (w.toNat / 2 ^ 16) ++
        (Sha1.toBits 8 (w.toNat / 2 ^ 8) ++ Sha1.toBits 8 w.toNat)) := by
    rw [← hoctet 24 (by decide), ← hoctet 16 (by decide), ← hoctet 8 (by decide), ← hlast]
    exact congrArg _ (congrArg _ (congrArg _ (List.append_nil _)))
  rw [hbits, ← Sha1.toBits_add 8 8, ← Sha1.toBits_add 8 16, ← Sha1.toBits_add 8 24]

/-- The byte that ends the message stands for the last bits, the one and the first zeros. -/
def EndsWith (padByte : Byte) (tail : List Bool) : Prop :=
  Sha1.toBits 8 padByte.toNat = tail ++ true :: List.replicate (7 - tail.length) false

instance (padByte : Byte) (tail : List Bool) : Decidable (EndsWith padByte tail) :=
  inferInstanceAs (Decidable (_ = _))

/-- A message of whole octets is followed by the one and seven zeros. -/
lemma endsWith_whole : EndsWith 0x80 [] := by decide +kernel

/-- The tables `masks` and `markbit` keep the last bits and set the one behind them. -/
lemma endsWith_finalBits {length : ℕ} (hpos : 0 < length) (hlt : length < 8) : ∀ b : Byte,
    EndsWith ((b &&& sha1Masks.getD length 0) ||| sha1Markbit.getD length 0)
      ((bits [b]).take length) := by
  interval_cases length
  all_goals exact Utf8.forall_byte (by decide +kernel)

/-- The zero octets behind the byte. -/
def zeroOctets (len : ℕ) : ℕ := (119 - len % 64) % 64

/-- **The padded message, octet by octet.** -/
lemma pad_eq (m : List Byte) {tail : List Bool} (htail : tail.length < 8) {padByte : Byte}
    (hpad : EndsWith padByte tail) {low high : UInt32}
    (hlength : high.toNat * 2 ^ 32 + low.toNat = 8 * m.length + tail.length) :
    Sha1.pad (bits m ++ tail) = bits (m ++ padByte :: (List.replicate (zeroOctets m.length) 0 ++
      (wordOctets high ++ wordOctets low))) := by
  have hlow : low.toNat < 2 ^ 32 := low.toNat_lt
  have hlen : (bits m ++ tail).length = high.toNat * 2 ^ 32 + low.toNat := by
    rw [List.length_append, Sha1.length_bits, hlength]
  have hzeros : Sha1.zeros (bits m ++ tail).length = 7 - tail.length + 8 * zeroOctets m.length := by
    rw [List.length_append, Sha1.length_bits, Sha1.zeros, zeroOctets]
    omega
  have hnumber : Sha1.toBits 64 (bits m ++ tail).length
      = bits (wordOctets high) ++ bits (wordOctets low) := by
    rw [hlen, Sha1.toBits_add 32 32, ← toBits_word, ← toBits_word]
    congr 1
    · rw [show (high.toNat * 2 ^ 32 + low.toNat) / 2 ^ 32 = high.toNat by omega]
    · rw [← Sha1.toBits_mod,
        show (high.toNat * 2 ^ 32 + low.toNat) % 2 ^ 32 = low.toNat by omega]
  have hbyte : bits [padByte] = tail ++ true :: List.replicate (7 - tail.length) false := by
    rw [bits, List.flatMap_singleton, hpad]
  rw [Sha1.pad, hnumber, hzeros, List.replicate_add, Sha1.bits_append, Sha1.bits_cons, hbyte,
    Sha1.bits_append, Sha1.bits_append, Sha1.bits_zero]
  simp only [List.append_assoc, List.cons_append]

/-! ## The octets of the padding in the block

Both branches of `SHA1PadMessage` absorb the octets of the padding, one block or two. -/

/-- **`SHA1PadMessage`** absorbs the byte, the zeros and the length, whichever branch is taken. -/
lemma sha1PadMessage_eq (c : SHA1Context) (a : Absorber 64 State Byte) (padByte : Byte)
    (hvalue : c.intermediateHash = a.value) (hkept : c.messageBlock = a.kept) :
    sha1PadMessage c padByte = { c with
      intermediateHash := (a.absorbAll compressOctets
        (padByte :: (List.replicate (zeroOctets a.kept.length) 0 ++
          (wordOctets c.lengthHigh ++ wordOctets c.lengthLow)))).value
      messageBlock := [] } := by
  have hlt := a.kept_lt
  set octets := wordOctets c.lengthHigh ++ wordOctets c.lengthLow
  have hlength : octets.length = 8 := rfl
  by_cases hroom : a.kept.length < 56
  · -- the length fits behind the byte
    have hzeros : zeroOctets a.kept.length = 55 - a.kept.length := by
      rw [zeroOctets]
      omega
    have hfill : (zeroFill 56 (c.messageBlock ++ [padByte])).take 56 ++ octets
        = a.kept ++ padByte :: (List.replicate (zeroOctets a.kept.length) 0 ++ octets) := by
      have hcount : 56 - (a.kept.length + 1) = 55 - a.kept.length := by omega
      rw [zeroFill, hkept, hzeros, List.length_append, List.length_singleton, hcount,
        List.take_of_length_le, List.append_assoc, List.append_assoc]
      · rfl
      · simp only [List.length_append, List.length_replicate, List.length_singleton]
        omega
    have hlen : a.kept.length +
        (padByte :: (List.replicate (zeroOctets a.kept.length) 0 ++ octets)).length = 64 := by
      rw [List.length_cons, List.length_append, List.length_replicate, hlength, hzeros]
      omega
    rw [(a.absorbAll_block compressOctets hlen).1, ← hfill, ← hvalue]
    have hblock : ((zeroFill 56 (c.messageBlock ++ [padByte])).take 56 ++ octets).length = 64 := by
      rw [hfill, List.length_append, hlen]
    have hshort : ¬ sha1MessageBlockSize - 8 ≤ c.messageBlock.length := by
      rw [hkept]
      exact not_le.mpr hroom
    rw [sha1PadMessage, if_neg hshort]
    exact sha1ProcessMessageBlock_eq _ hblock
  · -- a second block takes the length
    have hzeros : zeroOctets a.kept.length = 63 - a.kept.length + 56 := by
      rw [zeroOctets]
      omega
    have hfill : zeroFill 64 (c.messageBlock ++ [padByte])
        = a.kept ++ padByte :: List.replicate (63 - a.kept.length) 0 := by
      have hcount : 64 - (a.kept.length + 1) = 63 - a.kept.length := by omega
      rw [zeroFill, hkept, List.length_append, List.length_singleton, hcount, List.append_assoc]
      rfl
    have hlen : a.kept.length + (padByte :: List.replicate (63 - a.kept.length) 0).length = 64 := by
      rw [List.length_cons, List.length_replicate]
      omega
    obtain ⟨hfirst, hempty⟩ := a.absorbAll_block compressOctets hlen
    have hlen' : (a.absorbAll compressOctets (padByte :: List.replicate (63 - a.kept.length) 0)).kept.length
        + (List.replicate 56 0 ++ octets).length = 64 := by
      rw [hempty, List.length_append, List.length_replicate, hlength]
      rfl
    have hwhole : padByte :: (List.replicate (zeroOctets a.kept.length) 0 ++ octets)
        = padByte :: List.replicate (63 - a.kept.length) 0 ++ (List.replicate 56 0 ++ octets) := by
      rw [hzeros, List.replicate_add, List.append_assoc]
      rfl
    rw [hwhole, Absorber.absorb_append, (Absorber.absorbAll_block compressOctets _ hlen').1, hempty,
      hfirst, ← hfill, ← hvalue]
    have hblock : (zeroFill 64 (c.messageBlock ++ [padByte])).length = 64 := by
      rw [hfill, List.length_append, hlen]
    have hlong : sha1MessageBlockSize - 8 ≤ c.messageBlock.length := by
      rw [hkept]
      exact not_lt.mp hroom
    have hfull := sha1ProcessMessageBlock_eq
      { c with messageBlock := zeroFill sha1MessageBlockSize (c.messageBlock ++ [padByte]) } hblock
    rw [sha1PadMessage, if_pos hlong, hfull]
    exact sha1ProcessMessageBlock_eq _ (by rfl)

/-- **`SHA1Finalize`** leaves the hash of the message. -/
theorem finalize_eq {c : SHA1Context} {m : List Byte} (hvalue : c.intermediateHash = (absorbed m).value)
    (hkept : c.messageBlock = (absorbed m).kept) {tail : List Bool} (htail : tail.length < 8)
    {padByte : Byte} (hpad : EndsWith padByte tail)
    (hlength : c.lengthHigh.toNat * 2 ^ 32 + c.lengthLow.toNat = 8 * m.length + tail.length) :
    sha1Finalize c padByte =
      { intermediateHash := Sha1.hash (bits m ++ tail), computed := true, corrupted := c.corrupted } := by
  have hzeros : zeroOctets (absorbed m).kept.length = zeroOctets m.length := by
    rw [length_kept, zeroOctets, zeroOctets, Nat.mod_mod]
  rw [sha1Finalize, sha1PadMessage_eq c (absorbed m) padByte hvalue hkept, hzeros,
    hash_eq (pad_eq m htail hpad hlength)]
  rw [absorbed_append]

end CurlWs
