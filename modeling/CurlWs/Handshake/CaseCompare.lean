import CurlWs.Handshake.Accept
import CurlWs.Library.Comparing

/-!
# `cws_strncasecmp` and `strncasecmp`

`strncasecmp` is no function of the C standard, so the library has its own.  Its loop ends at a
difference or at the limit.  Unlike that of `strncasecmp` it does not end at the NUL that both
strings have in the same place.

**In memory.**  Whether the NUL matters can only be seen in memory, where something is stored behind
it.  `cwsStrncasecmpAt` is the loop on two memories, functions from the index to the byte, with the
number of bytes it has read; a `CString` is a memory that holds an ASCII string and its NUL.  What
comes behind is any bytes.

**Where it stops.**  The loop is an instance of `Comparing`: it stops at the first difference of the
letters or at the last byte within the limit (`cwsStrncasecmpAt_stops`).  The sign of the result is
that of the lexicographic order of the strings, cut at the limit, as long as it stops inside both.

**On lists.**  The rest of the model compares lists of bytes.  This is the comparison of what is
stored, with zeros behind it (`cwsStrncasecmp_eq`), and it is the lists that the prefixes of headers
are about.

* **`comparesAsStandard_iff`** — it does what the standard function does unless the strings are
  equal, but for the case of their letters, and the limit leads past their NULs.
* `cwsStrncasecmp_eq_zero_iff` — when two lists of bytes compare equal.
-/

namespace CurlWs

open Comparing

/-! ## Letters

`tolower` in the C locale changes the upper-case letters of ASCII and nothing else.  Only the byte
that it takes for `EOF` has a value of its own. -/

/-- The code of a byte, of a letter the one it has in lower case. -/
def lowerCase (b : Byte) : ℕ := if 0x41 ≤ b ∧ b ≤ 0x5a then b.toNat + 32 else b.toNat

/-- The bytes are the same but for the case of letters. -/
def SameLetters (a b : List Byte) : Prop := a.map lowerCase = b.map lowerCase

instance (a b : List Byte) : Decidable (SameLetters a b) := inferInstanceAs (Decidable (_ = _))

/-- The last byte is the one that `tolower` takes for `EOF`; the others keep their value, or that of
the letter in lower case. -/
lemma toLower_eq (b : Byte) : toLower b = if b = 0xff then -1 else (lowerCase b : ℤ) := by
  rw [toLower, lowerCase]
  by_cases hupper : 0x41 ≤ b ∧ b ≤ 0x5a
  · have hne : b ≠ 0xff := by
      rintro rfl
      exact absurd hupper.2 (by decide)
    rw [if_pos hupper, if_pos hupper, if_neg hne, Nat.cast_add]
    rfl
  · rw [if_neg hupper, if_neg hupper]

/-- On ASCII, `tolower` is the lower-case letter. -/
lemma toLower_ascii {b : Byte} (hb : b < 0x80) : toLower b = lowerCase b := by
  have hne : b ≠ 0xff := by
    rintro rfl
    exact absurd hb (by decide)
  rw [toLower_eq, if_neg hne]

/-- No other byte has the code of the last one. -/
lemma lowerCase_eq_last {b : Byte} (h : lowerCase b = lowerCase 0xff) : b = 0xff := by
  rw [show lowerCase 0xff = 255 from rfl, lowerCase] at h
  split_ifs at h with hupper
  · have hle : b.toNat ≤ 90 := hupper.2
    omega
  · exact UInt8.toNat_inj.mp h

/-- The value for `EOF` is told apart from every other one. -/
lemma toLower_eq_iff (a b : Byte) : toLower a = toLower b ↔ lowerCase a = lowerCase b := by
  have hnegative (c : ℕ) : (c : ℤ) ≠ -1 := by omega
  rw [toLower_eq, toLower_eq]
  by_cases ha : a = 0xff <;> by_cases hb : b = 0xff
  · rw [ha, hb]
    exact iff_of_true rfl rfl
  · rw [if_pos ha, if_neg hb, ha]
    exact iff_of_false (hnegative _).symm fun h => hb (lowerCase_eq_last h.symm)
  · rw [if_neg ha, if_pos hb, hb]
    exact iff_of_false (hnegative _) fun h => ha (lowerCase_eq_last h)
  · rw [if_neg ha, if_neg hb, Nat.cast_inj]

/-! ## The loop

One run of the loop, from any index on, and then from the first. -/

variable {s1 s2 : ℕ → Byte} {n : ℕ}

/-- The loop stops at some byte, and all before it are the same but for their case. -/
lemma strncasecmpLoopAt_spec (s1 s2 : ℕ → Byte) (n i : ℕ) :
    ∃ j, i ≤ j ∧ j ≤ i + n ∧ (∀ k, i ≤ k → k < j → lowerCase (s1 k) = lowerCase (s2 k)) ∧
      (lowerCase (s1 j) = lowerCase (s2 j) → j = i + n) ∧
      strncasecmpLoopAt s1 s2 n i = ⟨toLower (s1 j) - toLower (s2 j), j + 1⟩ := by
  induction n generalizing i with
  | zero =>
      refine ⟨i, le_rfl, le_rfl, ?_, ?_, rfl⟩
      · intro k hik hki
        omega
      · intro _
        rfl
  | succ n ih =>
      rw [strncasecmpLoopAt]
      by_cases hc : toLower (s1 i) - toLower (s2 i) = 0
      · have hsame := (toLower_eq_iff _ _).mp (sub_eq_zero.mp hc)
        obtain ⟨j, hij, hjn, hagree, hlast, hloop⟩ := ih (i + 1)
        refine ⟨j, by omega, by omega, ?_, ?_, ?_⟩
        · intro k hik hkj
          rcases eq_or_lt_of_le hik with heq | hlt
          · rw [← heq, hsame]
          · exact hagree k hlt hkj
        · intro heq
          have := hlast heq
          omega
        · rw [if_pos hc, hloop]
      · refine ⟨i, le_rfl, by omega, ?_, ?_, if_neg hc⟩
        · intro k hik hki
          omega
        · intro heq
          exact absurd (sub_eq_zero.mpr ((toLower_eq_iff _ _).mpr heq)) hc

/-- **Where `cws_strncasecmp` stops.** -/
theorem cwsStrncasecmpAt_stops (s1 s2 : ℕ → Byte) (hn : 0 < n) :
    ∃ j, Stops (fun i => lowerCase (s1 i)) (fun i => lowerCase (s2 i)) n j ∧
      cwsStrncasecmpAt s1 s2 n = ⟨toLower (s1 j) - toLower (s2 j), j + 1⟩ := by
  obtain ⟨j, -, hjn, hagree, hlast, hloop⟩ := strncasecmpLoopAt_spec s1 s2 (n - 1) 0
  refine ⟨j, ⟨by omega, ?_, ?_⟩, ?_⟩
  · intro k hk
    exact hagree k (Nat.zero_le k) hk
  · intro heq
    have := hlast heq
    omega
  · rw [cwsStrncasecmpAt, if_neg hn.ne', hloop]

/-! ## Bytes in memory

A list of bytes is stored with zeros behind it, so its NUL is there without being in the list. -/

/-- Memory that holds these bytes, and then zeros. -/
def stored (l : List Byte) : ℕ → Byte := fun i => l.getD i 0

/-- Inside the first part, what comes behind it does not matter. -/
lemma stored_append {l : List Byte} {i : ℕ} (hi : i < l.length) (r : List Byte) :
    stored (l ++ r) i = stored l i := by
  rw [stored, stored, List.getD_append _ _ _ _ hi]

/-- Before the cut, nothing is changed by it. -/
lemma stored_take {l : List Byte} {n i : ℕ} (hi : i < n) : stored (l.take n) i = stored l i := by
  rw [stored, stored, List.getD_eq_getElem?_getD, List.getElem?_take_of_lt hi,
    List.getD_eq_getElem?_getD]

/-- A NUL is stored behind the bytes anyway. -/
lemma stored_nul (l : List Byte) : stored (l ++ [0]) = stored l := by
  funext i
  rcases lt_or_ge i l.length with hlt | hge
  · exact stored_append hlt _
  · rw [stored, stored, List.getD_append_right _ _ _ _ hge, List.getD_eq_default _ _ hge]
    cases i - l.length <;> rfl

/-- The byte that the loop on lists looks at is the one stored at its index. -/
lemma headD_drop (l : List Byte) (i : ℕ) : (l.drop i).headD 0 = stored l i := by
  rw [stored, List.headD_eq_head?_getD, List.head?_drop, List.getD_eq_getElem?_getD]

/-- The loop on lists is the loop on what is stored, from every index on. -/
lemma strncasecmpLoop_eq (n : ℕ) (l1 l2 : List Byte) (i : ℕ) :
    strncasecmpLoop n (l1.drop i) (l2.drop i) =
      (strncasecmpLoopAt (stored l1) (stored l2) n i).c := by
  induction n generalizing i with
  | zero => rw [strncasecmpLoop, strncasecmpLoopAt, headD_drop, headD_drop]
  | succ n ih =>
      rw [strncasecmpLoop, strncasecmpLoopAt]
      simp only [headD_drop]
      split_ifs with hc
      · rw [List.tail_drop, List.tail_drop]
        exact ih (i + 1)
      · rfl

/-- **The comparison of lists of bytes** is the one of what is stored. -/
theorem cwsStrncasecmp_eq (l1 l2 : List Byte) (n : ℕ) :
    cwsStrncasecmp l1 l2 n = (cwsStrncasecmpAt (stored l1) (stored l2) n).c := by
  rw [cwsStrncasecmp, cwsStrncasecmpAt]
  split_ifs with hn
  · rfl
  · exact strncasecmpLoop_eq (n - 1) l1 l2 0

/-- **Bytes compare equal** if they are the same but for their case. -/
theorem cwsStrncasecmp_eq_zero_iff (l1 l2 : List Byte) (n : ℕ) :
    cwsStrncasecmp l1 l2 n = 0 ↔ ∀ i < n, lowerCase (stored l1 i) = lowerCase (stored l2 i) := by
  rw [cwsStrncasecmp_eq]
  rcases Nat.eq_zero_or_pos n with rfl | hn
  · refine iff_of_true rfl ?_
    intro i hi
    exact absurd hi (Nat.not_lt_zero i)
  · obtain ⟨j, hstops, hresult⟩ := cwsStrncasecmpAt_stops (stored l1) (stored l2) hn
    rw [hresult, sub_eq_zero, toLower_eq_iff]
    constructor
    · intro heq i hi
      rcases lt_or_eq_of_le (Nat.le_of_lt_succ (hstops.last heq ▸ hi)) with hlt | hend
      · exact hstops.agree i hlt
      · rw [hend, heq]
    · intro hall
      exact hall j hstops.below

/-! ## Strings

The standard function reads no byte behind a NUL, and its sign is that of the strings. -/

/-- An ASCII string in memory, with its NUL. -/
structure CString (m : ℕ → Byte) (a : List Byte) : Prop where
  bytes : ∀ i (h : i < a.length), m i = a[i]
  nul : m a.length = 0
  ascii : ∀ b ∈ a, 0 < b ∧ b < 0x80

/-- A string as `Comparing` sees it: its letters, and the first zero behind them. -/
lemma CString.terminated {m : ℕ → Byte} {a : List Byte} (h : CString m a) :
    Terminated 0 (fun i => lowerCase (m i)) (a.map lowerCase) := by
  refine ⟨?_, ?_, ?_⟩
  · intro i hi
    rw [List.length_map] at hi
    rw [List.getElem_map, h.bytes i hi]
  · rw [List.length_map, h.nul]
    rfl
  · intro x hx
    obtain ⟨b, hb, rfl⟩ := List.mem_map.mp hx
    have hpos : 0 < b.toNat := (h.ascii b hb).1
    rw [lowerCase]
    split_ifs <;> omega

/-- Whatever follows its NUL, a string is one. -/
lemma CString.of_stored {a : List Byte} (rest : List Byte) (h : ∀ b ∈ a, 0 < b ∧ b < 0x80) :
    CString (stored (a ++ 0 :: rest)) a := by
  refine ⟨?_, ?_, h⟩
  · intro i hi
    rw [stored_append hi, stored, List.getD_eq_getElem _ _ hi]
  · rw [stored, List.getD_append_right _ _ _ _ le_rfl, Nat.sub_self]
    rfl

/-- Every byte up to the NUL is in ASCII. -/
lemma CString.toLower {m : ℕ → Byte} {a : List Byte} (h : CString m a) {i : ℕ}
    (hi : i ≤ a.length) : CurlWs.toLower (m i) = lowerCase (m i) := by
  refine toLower_ascii ?_
  rcases lt_or_eq_of_le hi with hlt | hend
  · rw [h.bytes i hlt]
    exact (h.ascii _ (List.getElem_mem hlt)).2
  · rw [hend, h.nul]
    decide

/-- What `strncasecmp` is to return for these strings and this limit, and what it may read. -/
structure ComparesAsStandard (a b : List Byte) (n : ℕ) (r : Compared) : Prop where
  less : r.c < 0 ↔ (a.map lowerCase).take n < (b.map lowerCase).take n
  equal : r.c = 0 ↔ (a.map lowerCase).take n = (b.map lowerCase).take n
  greater : 0 < r.c ↔ (b.map lowerCase).take n < (a.map lowerCase).take n
  readsFirst : r.reads ≤ a.length + 1
  readsSecond : r.reads ≤ b.length + 1

variable {a b : List Byte}

/-- The signs of the result and of the strings agree in all three cases if they do one way. -/
lemma ComparesAsStandard.of_imp {r : Compared}
    (hless : r.c < 0 → (a.map lowerCase).take n < (b.map lowerCase).take n)
    (hequal : r.c = 0 → (a.map lowerCase).take n = (b.map lowerCase).take n)
    (hgreater : 0 < r.c → (b.map lowerCase).take n < (a.map lowerCase).take n)
    (hfirst : r.reads ≤ a.length + 1) (hsecond : r.reads ≤ b.length + 1) :
    ComparesAsStandard a b n r := by
  refine ⟨⟨hless, ?_⟩, ⟨hequal, ?_⟩, ⟨hgreater, ?_⟩, hfirst, hsecond⟩
  · intro hlt
    rcases lt_trichotomy r.c 0 with hc | hc | hc
    · exact hc
    · exact absurd (hequal hc) hlt.ne
    · exact absurd (hgreater hc) hlt.asymm
  · intro heq
    rcases lt_trichotomy r.c 0 with hc | hc | hc
    · exact absurd heq (hless hc).ne
    · exact hc
    · exact absurd heq (hgreater hc).ne'
  · intro hlt
    rcases lt_trichotomy r.c 0 with hc | hc | hc
    · exact absurd (hless hc) hlt.asymm
    · exact absurd (hequal hc) hlt.ne'
    · exact hc

/-- **When `cws_strncasecmp` does what `strncasecmp` does.** -/
theorem comparesAsStandard_iff (n : ℕ) (h1 : CString s1 a) (h2 : CString s2 b) :
    ComparesAsStandard a b n (cwsStrncasecmpAt s1 s2 n) ↔
      (SameLetters a b → n ≤ a.length + 1) := by
  rcases Nat.eq_zero_or_pos n with rfl | hn
  · refine iff_of_true ?_ ?_
    · refine .of_imp ?_ ?_ ?_ ?_ ?_ <;> simp [cwsStrncasecmpAt]
    · intro _
      exact Nat.zero_le _
  · obtain ⟨j, hstops, hresult⟩ := cwsStrncasecmpAt_stops s1 s2 hn
    have hinside := hstops.inside_iff h1.terminated h2.terminated
    rw [List.length_map, List.length_map] at hinside
    rw [hresult, SameLetters, ← hinside]
    constructor
    · intro h
      exact ⟨Nat.le_of_succ_le_succ h.readsFirst, Nat.le_of_succ_le_succ h.readsSecond⟩
    · rintro ⟨hja, hjb⟩
      have hja' : j ≤ (a.map lowerCase).length := by rwa [List.length_map]
      have hjb' : j ≤ (b.map lowerCase).length := by rwa [List.length_map]
      have hc : toLower (s1 j) - toLower (s2 j) = (lowerCase (s1 j) : ℤ) - lowerCase (s2 j) := by
        rw [h1.toLower hja, h2.toLower hjb]
      rw [hc]
      refine .of_imp ?_ ?_ ?_ (Nat.succ_le_succ hja) (Nat.succ_le_succ hjb)
      · intro (hneg : (lowerCase (s1 j) : ℤ) - lowerCase (s2 j) < 0)
        refine hstops.lt h1.terminated h2.terminated hja' hjb' ?_
        show lowerCase (s1 j) < lowerCase (s2 j)
        omega
      · intro (hzero : (lowerCase (s1 j) : ℤ) - lowerCase (s2 j) = 0)
        refine hstops.take_eq h1.terminated h2.terminated hja' hjb' ?_
        show lowerCase (s1 j) = lowerCase (s2 j)
        omega
      · intro (hpos : 0 < (lowerCase (s1 j) : ℤ) - lowerCase (s2 j))
        refine hstops.symm.lt h2.terminated h1.terminated hjb' hja' ?_
        show lowerCase (s2 j) < lowerCase (s1 j)
        omega

/-- "foo" and "FOO", compared as far as the NUL. -/
theorem comparesAsStandard_foo :
    ComparesAsStandard (ascii ['f', 'o', 'o']) (ascii ['F', 'O', 'O']) 4
        (cwsStrncasecmpAt (stored (ascii ['f', 'o', 'o'] ++ 0 :: ascii ['x']))
          (stored (ascii ['F', 'O', 'O'] ++ 0 :: ascii ['y'])) 4) ↔
      (SameLetters (ascii ['f', 'o', 'o']) (ascii ['F', 'O', 'O']) →
        4 ≤ (ascii ['f', 'o', 'o']).length + 1) :=
  comparesAsStandard_iff 4 (.of_stored _ (by decide +kernel)) (.of_stored _ (by decide +kernel))

/-- With one byte more, what is stored behind the strings is compared: they are not equal. -/
theorem strncasecmp_past_nul :
    let s1 := stored (ascii ['f', 'o', 'o'] ++ 0 :: ascii ['x'])
    let s2 := stored (ascii ['F', 'O', 'O'] ++ 0 :: ascii ['y'])
    CString s1 (ascii ['f', 'o', 'o']) ∧ CString s2 (ascii ['F', 'O', 'O']) ∧
      cwsStrncasecmpAt s1 s2 5 = ⟨-1, 5⟩ ∧
        ¬ ComparesAsStandard (ascii ['f', 'o', 'o']) (ascii ['F', 'O', 'O']) 5
          (cwsStrncasecmpAt s1 s2 5) := by
  intro s1 s2
  have hresult : cwsStrncasecmpAt s1 s2 5 = ⟨-1, 5⟩ := by decide
  refine ⟨.of_stored _ (by decide +kernel), .of_stored _ (by decide +kernel), hresult, ?_⟩
  intro h
  rw [hresult] at h
  exact absurd h.readsFirst (by decide)

end CurlWs
