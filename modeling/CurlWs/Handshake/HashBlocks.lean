import CurlWs.Model.Sha1
import CurlWs.Receive.HeaderDecode

/-!
# A block of the hash

`SHA1ProcessMessageBlock` against the standard.  The array `W` is the message schedule, and the four
loops are the eighty rounds.

**Words.**  The code puts four octets together with shifts and `|`; the standard speaks of the bits
of the block in their order.  Both are the big-endian value of the octets (`word_eq`), and the
rotation of the code is that of the standard for the shifts that occur (`sha1Rotl_eq`).

**The schedule.**  The first sixteen words come from the block, the others from the four words
before them that the standard names.  Entry by entry this is an induction over the length of the
array (`wordSequence_eq`).

**The rounds.**  Each of the four loops has its own function and constant, those of the standard for
its twenty rounds (`rounds`, `sha1Loop_eq`).

* **`sha1ProcessMessageBlock_eq`** — the intermediate value is that of the standard.
-/

namespace CurlWs

open Sha1 (Word bits State)

/-! ## Words

A word of 32 bits is four octets, the most significant one first. -/

/-- The two shifts of the code rotate, as they are never by more than the width of a word. -/
lemma sha1Rotl_eq {n : ℕ} (hn : n ≤ 32) (x : Word) : sha1Rotl (UInt32.ofNat n) x = Sha1.rotl n x := by
  rw [sha1Rotl, Sha1.rotl, UInt32.ofNat_sub hn]
  rfl

/-- The bits of octets, read as a number, are their big-endian value. -/
lemma ofBits_bits (x : List Byte) : Sha1.ofBits (bits x) = WebSocket.bigEndian x := by
  induction x using List.reverseRecOn with
  | nil => rfl
  | append_singleton x b ih =>
      have hb : b.toNat < 2 ^ 8 := b.toNat_lt
      have hlast : Sha1.ofBits (bits [b]) = b.toNat := by
        rw [bits, List.flatMap_singleton, Sha1.ofBits_toBits, Nat.mod_eq_of_lt hb]
      rw [Sha1.bits_append, Sha1.ofBits_append, ih, hlast, Sha1.length_bits, WebSocket.bigEndian,
        WebSocket.bigEndian, List.foldl_append]
      rfl

/-- Four octets do not overlap once they are shifted to their places. -/
lemma four_bytes (b0 b1 b2 b3 : Byte) :
    b0.toNat <<< 24 ||| b1.toNat <<< 16 ||| b2.toNat <<< 8 ||| b3.toNat
      = WebSocket.bigEndian [b0, b1, b2, b3] := by
  have h0 (x : ℕ) : x <<< 8 ||| b3.toNat = 256 * x + b3.toNat := by simpa using shift_or x 0 b3
  rw [shift_or _ 16, shift_or _ 8, h0]
  simp [WebSocket.bigEndian]

/-- The four octets of a word. -/
lemma word_eq (b0 b1 b2 b3 : Byte) :
    b0.toUInt32 <<< 24 ||| b1.toUInt32 <<< 16 ||| b2.toUInt32 <<< 8 ||| b3.toUInt32
      = UInt32.ofNat (WebSocket.bigEndian [b0, b1, b2, b3]) := by
  rw [← four_bytes, UInt32.ofNat_or, UInt32.ofNat_or, UInt32.ofNat_or,
    UInt32.ofNat_shiftLeft _ 24 (by decide), UInt32.ofNat_shiftLeft _ 16 (by decide),
    UInt32.ofNat_shiftLeft _ 8 (by decide)]
  simp only [UInt32.ofNat_uInt8ToNat]
  rfl

/-- **The first words are those of the block.** -/
lemma firstWord_eq {block : List Byte} (hblock : block.length = 64) {t : ℕ} (ht : t < 16) :
    firstWord block t = Sha1.blockWord (bits block) t := by
  have hword : ((bits block).drop (32 * t)).take 32 = bits ((block.drop (t * 4)).take 4) := by
    rw [show 32 * t = 8 * (t * 4) by ring, (Sha1.take_drop_bits block _).2,
      show 32 = 8 * 4 by rfl, (Sha1.take_drop_bits _ 4).1]
  have hfour : (block.drop (t * 4)).take 4 = [block.getD (t * 4) 0, block.getD (t * 4 + 1) 0,
      block.getD (t * 4 + 2) 0, block.getD (t * 4 + 3) 0] := by
    have h0 : t * 4 < block.length := by omega
    have h1 : t * 4 + 1 < block.length := by omega
    have h2 : t * 4 + 2 < block.length := by omega
    have h3 : t * 4 + 3 < block.length := by omega
    rw [List.drop_eq_getElem_cons h0, List.drop_eq_getElem_cons h1, List.drop_eq_getElem_cons h2,
      List.drop_eq_getElem_cons h3, List.getD_eq_getElem _ _ h0, List.getD_eq_getElem _ _ h1,
      List.getD_eq_getElem _ _ h2, List.getD_eq_getElem _ _ h3]
    rfl
  rw [Sha1.blockWord, hword, hfour, ofBits_bits, ← word_eq]
  rfl

/-! ## The schedule

The eighty words of the schedule, in the order in which the code fills the array. -/

/-- **The array `W` is the message schedule.** -/
lemma wordSequence_eq {block : List Byte} (hblock : block.length = 64) :
    wordSequence block = (List.range 80).map (Sha1.W (Sha1.blockWord (bits block))) := by
  set M := Sha1.blockWord (bits block)
  have hfirst : (List.range 16).map (firstWord block) = (List.range 16).map (Sha1.W M) := by
    refine List.map_congr_left fun t ht => ?_
    have hlt := List.mem_range.mp ht
    rw [firstWord_eq hblock hlt, Sha1.W, if_pos hlt]
  have hloop (n : ℕ) : (List.range' 16 n).foldl (fun W t => W ++ [nextWord W t])
      ((List.range 16).map (Sha1.W M)) = (List.range (16 + n)).map (Sha1.W M) := by
    induction n with
    | zero => rfl
    | succ n ih =>
        have hget (i : ℕ) (hi : i < 16 + n) :
            ((List.range (16 + n)).map (Sha1.W M)).getD i 0 = Sha1.W M i := by
          rw [List.getD_eq_getElem _ _ (by simpa using hi), List.getElem_map, List.getElem_range]
        have hnext : nextWord ((List.range (16 + n)).map (Sha1.W M)) (16 + n)
            = Sha1.W M (16 + n) := by
          rw [nextWord, hget _ (by omega), hget _ (by omega), hget _ (by omega), hget _ (by omega)]
          conv_rhs => rw [Sha1.W, if_neg (by omega)]
          exact sha1Rotl_eq (by decide) _
        rw [List.range'_1_concat, List.foldl_append, ih, List.foldl_cons, List.foldl_nil, hnext,
          ← Nat.add_assoc, List.range_succ, List.map_append, List.map_singleton]
  rw [wordSequence, hfirst]
  exact hloop 64

/-! ## The rounds

Four loops of twenty rounds, one after the other on the same five words. -/

/-- The function and the constant of each loop. -/
lemma rounds :
    (∀ t, 0 ≤ t → t < 0 + 20 → Sha1.f t = shaCh ∧ Sha1.K t = 0x5A827999) ∧
      (∀ t, 20 ≤ t → t < 20 + 20 → Sha1.f t = shaParity ∧ Sha1.K t = 0x6ED9EBA1) ∧
      (∀ t, 40 ≤ t → t < 40 + 20 → Sha1.f t = shaMaj ∧ Sha1.K t = 0x8F1BBCDC) ∧
      ∀ t, 60 ≤ t → t < 60 + 20 → Sha1.f t = shaParity ∧ Sha1.K t = 0xCA62C1D6 := by
  refine ⟨fun t h h' => ?_, fun t h h' => ?_, fun t h h' => ?_, fun t h h' => ?_⟩
  · have h20 : t < 20 := h'
    simp only [Sha1.f, Sha1.K, if_pos h20]
    exact ⟨rfl, trivial⟩
  · have h20 : ¬ t < 20 := by omega
    have h40 : t < 40 := h'
    simp only [Sha1.f, Sha1.K, if_neg h20, if_pos h40]
    exact ⟨rfl, trivial⟩
  · have h20 : ¬ t < 20 := by omega
    have h40 : ¬ t < 40 := by omega
    have h60 : t < 60 := h'
    simp only [Sha1.f, Sha1.K, if_neg h20, if_neg h40, if_pos h60]
    exact ⟨rfl, trivial⟩
  · have h20 : ¬ t < 20 := by omega
    have h40 : ¬ t < 40 := by omega
    have h60 : ¬ t < 60 := by omega
    simp only [Sha1.f, Sha1.K, if_neg h20, if_neg h40, if_neg h60]
    exact ⟨rfl, trivial⟩

/-- **One of the four loops** is twenty rounds. -/
lemma sha1Loop_eq (M : ℕ → Word) {F : Word → Word → Word → Word} {K : Word} {start : ℕ}
    (hstart : start ≤ 60) (hround : ∀ t, start ≤ t → t < start + 20 → Sha1.f t = F ∧ Sha1.K t = K)
    (v : State) : sha1Loop F K ((List.range 80).map (Sha1.W M)) start v
      = (List.range' start 20).foldl (fun v t => Sha1.round t (Sha1.W M t) v) v := by
  rw [sha1Loop]
  refine List.foldl_ext _ _ _ fun v t ht => ?_
  obtain ⟨hle, hlt⟩ := List.mem_range'_1.mp ht
  have hget : ((List.range 80).map (Sha1.W M)).getD t 0 = Sha1.W M t := by
    rw [List.getD_eq_getElem _ _ (by rw [List.length_map, List.length_range]; omega),
      List.getElem_map, List.getElem_range]
  obtain ⟨hF, hK⟩ := hround t hle hlt
  have h5 := sha1Rotl_eq (show 5 ≤ 32 by decide) v.a
  have h30 := sha1Rotl_eq (show 30 ≤ 32 by decide) v.b
  rw [hget, sha1Round, Sha1.round, hF, hK, ← h5, ← h30, add_right_comm _ K]
  rfl

/-- **`SHA1ProcessMessageBlock`** computes the intermediate value after the block. -/
theorem sha1ProcessMessageBlock_eq (c : SHA1Context) (hblock : c.messageBlock.length = 64) :
    sha1ProcessMessageBlock c = { c with
      intermediateHash := Sha1.compress c.intermediateHash (bits c.messageBlock)
      messageBlock := [] } := by
  set M := Sha1.blockWord (bits c.messageBlock) with hM
  have hrounds : (List.range 80).foldl (fun v t => Sha1.round t (Sha1.W M t) v) c.intermediateHash
      = sha1Loop shaParity 0xCA62C1D6 (wordSequence c.messageBlock) 60
        (sha1Loop shaMaj 0x8F1BBCDC (wordSequence c.messageBlock) 40
          (sha1Loop shaParity 0x6ED9EBA1 (wordSequence c.messageBlock) 20
            (sha1Loop shaCh 0x5A827999 (wordSequence c.messageBlock) 0 c.intermediateHash))) := by
    have hsplit : List.range 80 = List.range' 0 20 ++ List.range' 20 20 ++ List.range' 40 20 ++
        List.range' 60 20 := by rfl
    rw [hsplit, List.foldl_append, List.foldl_append, List.foldl_append, wordSequence_eq hblock,
      sha1Loop_eq M (by decide) rounds.1, sha1Loop_eq M (by decide) rounds.2.1,
      sha1Loop_eq M (by decide) rounds.2.2.1, sha1Loop_eq M (by decide) rounds.2.2.2]
  rw [sha1ProcessMessageBlock, Sha1.compress, ← hM, hrounds]
  simp only [State.add, add_comm]

end CurlWs
