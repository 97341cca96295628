import CurlWs.Library.BlockHash

/-!
# SHA-1

The secure hash of FIPS 180, for messages of any number of bits, in the standard's own terms: the
padding, the blocks of sixteen words, the schedule `W`, eighty rounds, and the sums of the
intermediate values.

**Bits.**  A message is a list of bits, the highest of a byte first, as in the standard; lengths and
words are numbers that bits stand for.  Bytes are the special case that programs work with, and
`bits` says which bits they are.

**The algorithm** is written down as the standard has it, function by function and in its names.  It
is a definition and has no theorems of its own: it is what an implementation is compared with.
`compress` is irreducible, so that nothing unfolds eighty rounds by accident.

* `ofBits`, `toBits` — numbers as bits, the highest first.
* `pad`, `blockWord` — the message in blocks of sixteen words.
* `digest` — the message digest, 160 bits.
* **`bits_injective`** — bytes are determined by their bits, so a digest given in bits is one.
-/

namespace Sha1

open BlockHash

/-- The words of the algorithm. -/
abbrev Word := UInt32

/-- The number that bits stand for, the highest first. -/
def ofBits (bs : List Bool) : ℕ := bs.foldl (fun n b => 2 * n + b.toNat) 0

/-- The lowest `k` bits of a number, the highest first. -/
def toBits (k n : ℕ) : List Bool := (List.range k).map fun i => n.testBit (k - 1 - i)

/-- There are as many bits as asked for. -/
@[simp] lemma length_toBits (k n : ℕ) : (toBits k n).length = k := by
  simp [toBits]

lemma ofBits_append (x y : List Bool) : ofBits (x ++ y) = 2 ^ y.length * ofBits x + ofBits y := by
  induction y using List.reverseRecOn with
  | nil => simp [ofBits]
  | append_singleton y b ih =>
      rw [ofBits, ← List.append_assoc, List.foldl_append, ← ofBits, ih]
      have hlast : ofBits (y ++ [b]) = 2 * ofBits y + b.toNat := by
        rw [ofBits, List.foldl_append]
        rfl
      rw [hlast, List.length_append, List.length_singleton, pow_succ]
      show 2 * (2 ^ y.length * ofBits x + ofBits y) + b.toNat = _
      ring

lemma toBits_succ (k n : ℕ) : toBits (k + 1) n = toBits k (n / 2) ++ [n.testBit 0] := by
  rw [toBits, List.range_succ, List.map_append, toBits]
  congr 1
  · refine List.map_congr_left fun i hi => ?_
    have hlt := List.mem_range.mp hi
    rw [show k + 1 - 1 - i = k - 1 - i + 1 by omega, Nat.testBit_succ]
  · rw [List.map_singleton, show k + 1 - 1 - k = 0 by omega]

/-- Higher bits do not matter. -/
lemma toBits_mod (k n : ℕ) : toBits k (n % 2 ^ k) = toBits k n := by
  refine List.map_congr_left fun i hi => ?_
  have hlt := List.mem_range.mp hi
  rw [Nat.testBit_mod_two_pow, decide_eq_true (by omega), Bool.true_and]

lemma toBits_add (j k : ℕ) : ∀ n, toBits (j + k) n = toBits j (n / 2 ^ k) ++ toBits k n := by
  induction k with
  | zero =>
      intro n
      rw [pow_zero, Nat.div_one]
      exact (List.append_nil _).symm
  | succ k ih =>
      intro n
      rw [← Nat.add_assoc, toBits_succ, ih, toBits_succ, Nat.div_div_eq_div_mul, ← Nat.pow_succ',
        List.append_assoc]

lemma toBits_zero (k : ℕ) : toBits k 0 = List.replicate k false := by
  simp [toBits]

/-- **A number is what its bits stand for**, as far as they reach. -/
theorem ofBits_toBits (k : ℕ) : ∀ n, ofBits (toBits k n) = n % 2 ^ k := by
  induction k with
  | zero =>
      intro n
      rw [pow_zero, Nat.mod_one]
      rfl
  | succ k ih =>
      intro n
      rw [toBits_succ, ofBits_append, ih]
      have hlow : ofBits [n.testBit 0] = n % 2 := by
        rw [Nat.testBit_zero]
        rcases Nat.mod_two_eq_zero_or_one n with h | h <;> rw [h] <;> rfl
      rw [hlow, List.length_singleton, pow_one, pow_succ, mul_comm (2 ^ k) 2, Nat.mod_mul]
      ring

/-- The bits of bytes. -/
def bits (x : List UInt8) : List Bool := x.flatMap fun b => toBits 8 b.toNat

@[simp] lemma bits_nil : bits [] = [] := rfl

@[simp] lemma bits_append (x y : List UInt8) : bits (x ++ y) = bits x ++ bits y :=
  List.flatMap_append

lemma bits_cons (b : UInt8) (x : List UInt8) : bits (b :: x) = bits [b] ++ bits x :=
  bits_append [b] x

@[simp] lemma length_bits (x : List UInt8) : (bits x).length = 8 * x.length := by
  induction x with
  | nil => rfl
  | cons b x ih =>
      rw [bits, List.flatMap_cons, List.length_append, length_toBits, ← bits, ih, List.length_cons]
      ring

lemma bits_zero (z : ℕ) : bits (List.replicate z 0) = List.replicate (8 * z) false := by
  induction z with
  | zero => rfl
  | succ z ih =>
      rw [List.replicate_succ, bits, List.flatMap_cons, ← bits, ih, Nat.mul_succ, Nat.add_comm,
        List.replicate_add]
      exact congrArg (· ++ _) (toBits_zero 8)

/-- The cuts between bytes. -/
lemma take_drop_bits (x : List UInt8) (m : ℕ) :
    (bits x).take (8 * m) = bits (x.take m) ∧ (bits x).drop (8 * m) = bits (x.drop m) := by
  by_cases hm : m ≤ x.length
  · have hlen : (bits (x.take m)).length = 8 * m := by
      rw [length_bits, List.length_take, min_eq_left hm]
    have hx : bits x = bits (x.take m) ++ bits (x.drop m) := by
      rw [← bits_append, List.take_append_drop]
    rw [hx, ← hlen, List.take_left, List.drop_left]
    exact ⟨rfl, rfl⟩
  · have hlen : (bits x).length ≤ 8 * m := by
      rw [length_bits]
      omega
    rw [List.take_of_length_le hlen, List.drop_of_length_le hlen,
      List.take_of_length_le (by omega), List.drop_of_length_le (by omega)]
    exact ⟨rfl, rfl⟩

/-- Bytes that have the same bits are the same. -/
theorem bits_injective : Function.Injective bits := by
  intro x
  induction x with
  | nil =>
      intro y h
      have hlen := congrArg List.length h
      rw [length_bits, length_bits] at hlen
      exact (List.length_eq_zero_iff.mp (by simpa using hlen.symm)).symm
  | cons a x ih =>
      intro y h
      cases y with
      | nil =>
          have hlen := congrArg List.length h
          rw [length_bits, length_bits, List.length_cons, List.length_nil] at hlen
          omega
      | cons b y =>
          rw [bits_cons, bits_cons b] at h
          obtain ⟨hfirst, hrest⟩ := List.append_inj h (by rw [length_bits, length_bits]; rfl)
          have hvalue := congrArg ofBits hfirst
          simp only [bits, List.flatMap_cons, List.flatMap_nil, List.append_nil, ofBits_toBits,
            Nat.mod_eq_of_lt (UInt8.toNat_lt _)] at hvalue
          rw [UInt8.toNat_inj.mp hvalue, ih hrest]

/-! ## Functions and constants

One function and one constant for each twenty rounds. -/

/-- `ROTL^n(x)`. -/
def rotl (n : ℕ) (x : Word) : Word := x <<< UInt32.ofNat n ||| x >>> UInt32.ofNat (32 - n)

/-- `Ch(x, y, z)`: `x` chooses between `y` and `z`, bit by bit. -/
def ch (x y z : Word) : Word := x &&& y ^^^ ~~~x &&& z

/-- `Parity(x, y, z)`. -/
def parity (x y z : Word) : Word := x ^^^ y ^^^ z

/-- `Maj(x, y, z)`: the bits that two of the three have. -/
def maj (x y z : Word) : Word := x &&& y ^^^ x &&& z ^^^ y &&& z

/-- The function of a round. -/
def f (t : ℕ) : Word → Word → Word → Word :=
  if t < 20 then ch else if t < 40 then parity else if t < 60 then maj else parity

/-- The constant of a round. -/
def K (t : ℕ) : Word :=
  if t < 20 then 0x5a827999 else if t < 40 then 0x6ed9eba1
  else if t < 60 then 0x8f1bbcdc else 0xca62c1d6

/-! ## Preprocessing

A one, as few zeros as are needed, and the length in 64 bits. -/

/-- The zeros behind a message of `len` bits and the one that ends it: as few as lead to 448 bits of
the last block, which leaves 64 for the length. -/
def zeros (len : ℕ) : ℕ := (959 - len % 512) % 512

/-- The padded message. -/
def pad (m : List Bool) : List Bool :=
  m ++ true :: (List.replicate (zeros m.length) false ++ toBits 64 m.length)

/-! ## Computation

The schedule of a block, its eighty rounds, and the value from one block to the next. -/

/-- The five words of an intermediate value, and the working variables of a block. -/
structure State where
  a : Word
  b : Word
  c : Word
  d : Word
  e : Word
  deriving DecidableEq, Repr

/-- The words of a value, in their order. -/
def State.words (s : State) : List Word := [s.a, s.b, s.c, s.d, s.e]

/-- The initial value. -/
def initial : State := ⟨0x67452301, 0xefcdab89, 0x98badcfe, 0x10325476, 0xc3d2e1f0⟩

/-- The `t`-th word of a block. -/
def blockWord (block : List Bool) (t : ℕ) : Word :=
  UInt32.ofNat (ofBits ((block.drop (32 * t)).take 32))

/-- The message schedule of a block. -/
def W (M : ℕ → Word) (t : ℕ) : Word :=
  if t < 16 then M t
  else rotl 1 (W M (t - 3) ^^^ W M (t - 8) ^^^ W M (t - 14) ^^^ W M (t - 16))

/-- A round, with the word `w` of the schedule. -/
def round (t : ℕ) (w : Word) (s : State) : State :=
  ⟨rotl 5 s.a + f t s.b s.c s.d + s.e + K t + w, s.a, rotl 30 s.b, s.c, s.d⟩

/-- The sum of two values, word by word. -/
def State.add (s t : State) : State := ⟨t.a + s.a, t.b + s.b, t.c + s.c, t.d + s.d, t.e + s.e⟩

/-- The intermediate value after a block. -/
@[irreducible] def compress (s : State) (block : List Bool) : State :=
  s.add ((List.range 80).foldl (fun v t => round t (W (blockWord block) t) v) s)

/-- The value after the last block. -/
def hash (m : List Bool) : State := foldBlocks 512 compress ((pad m).length / 512) initial (pad m)

/-- The bits of a value. -/
def State.bits (s : State) : List Bool :=
  s.words.flatMap fun w => toBits 32 w.toNat

/-- **The message digest.** -/
def digest (m : List Bool) : List Bool := (hash m).bits

end Sha1
