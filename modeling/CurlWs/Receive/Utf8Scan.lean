import CurlWs.Receive.Utf8Validate

/-!
# `utf8_validate` on memory

The function is given a pointer and a length, and the table of lengths tells it how many bytes to
look at.  What it reads is therefore a question of its own: a lead byte near the end of a string
calls for bytes that may lie behind it.

**Memory.**  A string in memory is a list and whatever is behind it (`inMemory`).  `utf8ScanLoop` is
the loop of the source on it, with the indices that it reads.

**The same result.**  The loop checks how many bytes are left before it looks at any but the first,
so it does what the loop on a list does and stays within the list (`Scans`).  The proof follows the
loop, one character at a time.

**What is accepted.**  In terms of the grammar of `Utf8`: a string is accepted if it is well-formed
up to a character that has begun.  The part that is accepted is the well-formed one.

## Main results

* **`utf8ScanLoop_spec`** — the loop on memory does what the loop on a list does.
* **`utf8Validate_exact`** — which strings are accepted, and how much of them.
-/

namespace CurlWs

open Utf8

/-! ## Pieces of memory

The bytes from one index on, as a list. -/

section
variable (text : ℕ → Byte)

@[simp] lemma length_bytesFrom (i n : ℕ) : (bytesFrom text i n).length = n := by
  rw [bytesFrom, List.length_map, List.length_range]

lemma bytesFrom_add (i m n : ℕ) :
    bytesFrom text i (m + n) = bytesFrom text i m ++ bytesFrom text (i + m) n := by
  simp only [bytesFrom, List.range_add, List.map_append, List.map_map]
  congr 1
  refine List.map_congr_left fun j _ => ?_
  simp only [Function.comp_apply, Nat.add_assoc]

lemma bytesFrom_succ (i n : ℕ) : bytesFrom text i (n + 1) = text i :: bytesFrom text (i + 1) n := by
  rw [Nat.add_comm n 1, bytesFrom_add]
  rfl

lemma bytesFrom_split (i : ℕ) {m n : ℕ} (h : m ≤ n) :
    bytesFrom text i n = bytesFrom text i m ++ bytesFrom text (i + m) (n - m) := by
  rw [← bytesFrom_add, Nat.add_sub_cancel' h]

end

/-- A string in memory, whatever is behind it. -/
def inMemory (s : List Byte) (behind : ℕ → Byte) (i : ℕ) : Byte := s.getD i (behind i)

lemma bytesFrom_inMemory (s : List Byte) (behind : ℕ → Byte) :
    bytesFrom (inMemory s behind) 0 s.length = s := by
  refine List.ext_getElem (length_bytesFrom ..) fun i hi hs => ?_
  simp [bytesFrom, inMemory, List.getElem?_eq_getElem hs]

/-! ## The loop

One character after the other, and the indices that are read for it. -/

/-- A character has four bytes at most. -/
lemma utf8GetSize_le (b : Byte) : utf8GetSize b ≤ 4 := by
  rw [utf8GetSize_eq, seqLength]
  split_ifs <;> omega

/-- The bytes of the character decide. -/
lemma validChar_append {n : ℕ} {x : List Byte} (hx : x.length = n) (hn : n ≤ 4) (y : List Byte) :
    validChar n (x ++ y) = validChar n x := by
  subst hx
  rcases x with _ | ⟨b0, _ | ⟨b1, _ | ⟨b2, _ | ⟨b3, _ | ⟨b4, x⟩⟩⟩⟩⟩
  · rcases y with _ | ⟨b0, y⟩ <;> rfl
  iterate 4
    · rfl
  · simp only [List.length_cons] at hn
    omega

/-- The bytes that are read belong to the character. -/
lemma mem_charReads {n i j : ℕ} (h : j ∈ charReads n i) : j < i + n := by
  rw [charReads.eq_def] at h
  split at h
  iterate 3
    · simp at h
      omega
  · exact absurd h List.not_mem_nil

/-- A scan of `len` bytes of memory that ends as the loop on a list does, `o`, and stays within the
bytes. -/
structure Scans (len : ℕ) (r : Utf8Scan) (o : Option ℕ) : Prop where
  accepts : ∀ left, o = some left → r.rv = 0 ∧ r.len = len - left
  rejects : o = none → r.rv = -1 ∧ r.len = len
  reads : ∀ i ∈ r.reads, i < len

/-- The scan ends, with some bytes left. -/
lemma scans_accept {len left : ℕ} {reads : List ℕ} (h : ∀ i ∈ reads, i < len) :
    Scans len ⟨0, len - left, reads⟩ (some left) := by
  refine ⟨?_, ?_, h⟩
  · rintro n hn
    cases hn
    exact ⟨rfl, rfl⟩
  · intro hn
    cases hn

lemma scans_reject {len : ℕ} {reads : List ℕ} (h : ∀ i ∈ reads, i < len) :
    Scans len ⟨-1, len, reads⟩ none := by
  refine ⟨?_, fun _ => ⟨rfl, rfl⟩, h⟩
  intro n hn
  cases hn

/-- **The loop on memory** does what the loop on a list does, within the list. -/
theorem utf8ScanLoop_spec (text : ℕ → Byte) (len : ℕ) (fuel : ℕ) : ∀ bytes left : ℕ,
    bytes + left = len → Scans len (utf8ScanLoop text len fuel bytes left)
      (utf8ValidateLoop fuel (bytesFrom text bytes left)) := by
  induction fuel with
  | zero =>
      intro bytes left _
      rw [utf8ValidateLoop, length_bytesFrom, utf8ScanLoop]
      exact scans_accept (List.forall_mem_nil _)
  | succ fuel ih =>
      intro bytes left hlen
      rw [utf8ScanLoop]
      cases left with
      | zero => exact scans_accept (List.forall_mem_nil _)
      | succ k =>
          have hlead : ∀ i ∈ [bytes], i < len := List.forall_mem_singleton.mpr (by omega)
          rw [if_neg (Nat.succ_ne_zero k), bytesFrom_succ, utf8ValidateLoop_cons, ← bytesFrom_succ,
            length_bytesFrom]
          simp only
          generalize hn : utf8GetSize (text bytes) = n
          have hmax : n ≤ 4 := hn ▸ utf8GetSize_le (text bytes)
          by_cases hshort : k + 1 < n
          · rw [if_pos hshort, if_pos hshort]
            exact scans_accept hlead
          · have hsplit := bytesFrom_split text bytes (not_lt.mp hshort)
            have hreads : ∀ i ∈ bytes :: charReads n bytes, i < len := by
              rw [List.forall_mem_cons]
              refine ⟨by omega, fun i hi => ?_⟩
              have := mem_charReads hi
              omega
            rw [if_neg hshort, if_neg hshort, hsplit, List.drop_left' (length_bytesFrom ..),
              validChar_append (length_bytesFrom ..) hmax]
            by_cases h0 : n = 0
            · subst h0
              exact scans_reject hlead
            · rw [if_neg h0]
              by_cases hvalid : validChar n (bytesFrom text bytes n) = true
              · rw [if_pos hvalid, if_pos hvalid]
                obtain ⟨haccepts, hrejects, hrest⟩ := ih (bytes + n) (k + 1 - n) (by omega)
                refine ⟨haccepts, hrejects, ?_⟩
                exact List.forall_mem_append.mpr ⟨hreads, hrest⟩
              · rw [if_neg hvalid, if_neg hvalid]
                exact scans_reject hreads

/-- What is in memory from `len` on makes no difference. -/
lemma utf8ScanLoop_congr {text text' : ℕ → Byte} {len : ℕ} (h : ∀ i < len, text' i = text i)
    (fuel : ℕ) : ∀ bytes left : ℕ, bytes + left = len →
      utf8ScanLoop text' len fuel bytes left = utf8ScanLoop text len fuel bytes left := by
  induction fuel with
  | zero =>
      intro bytes left _
      rfl
  | succ fuel ih =>
      intro bytes left hlen
      rw [utf8ScanLoop, utf8ScanLoop]
      by_cases h0 : left = 0
      · rw [if_pos h0, if_pos h0]
      · have hpiece (hle : utf8GetSize (text bytes) ≤ left) :
            bytesFrom text' bytes (utf8GetSize (text bytes))
              = bytesFrom text bytes (utf8GetSize (text bytes)) := by
          refine List.map_congr_left fun j hj => h _ ?_
          have := List.mem_range.mp hj
          omega
        rw [if_neg h0, if_neg h0, h bytes (by omega)]
        simp only
        by_cases hshort : left < utf8GetSize (text bytes)
        · rw [if_pos hshort, if_pos hshort]
        · rw [if_neg hshort, if_neg hshort, hpiece (not_lt.mp hshort), ih _ _ (by omega)]

/-! ## What is accepted

From the loop on lists to strings and what is behind them. -/

/-- A beginning of a character: a lead byte, and fewer bytes than it calls for. -/
def Begun (r : List Byte) : Prop :=
  ∃ a t, r = a :: t ∧ 0xc2 ≤ a.toNat ∧ a.toNat ≤ 0xf4 ∧ r.length < seqLength a

/-- What may be left is nothing, or a character that has begun. -/
lemma truncated_iff {r : List Byte} : Truncated r ↔ r = [] ∨ Begun r := by
  refine or_congr_right' fun hne => ?_
  obtain ⟨a, t, rfl⟩ := List.exists_cons_of_ne_nil hne
  rw [List.headD_cons, utf8GetSize_eq]
  constructor
  · intro hlt
    refine ⟨a, t, rfl, ?_, ?_, hlt⟩
    all_goals
      simp only [List.length_cons, seqLength] at hlt
      split_ifs at hlt <;> omega
  · rintro ⟨b, t', heq, -, -, hlt⟩
    cases heq
    exact hlt

/-- **`utf8_validate` accepts exactly the strings that are well-formed up to a character that has
begun**, and leaves the length of the well-formed part; otherwise it leaves `*len` alone.  It reads
nothing behind the string, so what is there makes no difference. -/
theorem utf8Validate_exact (s : List Byte) (behind : ℕ → Byte) :
    let r := utf8ValidateAt (inMemory s behind) s.length
    (r.rv = 0 ↔ ∃ w t, s = w ++ t ∧ WellFormed w ∧ (t = [] ∨ Begun t)) ∧
      (∀ w t, s = w ++ t → WellFormed w → t = [] ∨ Begun t → r.len = w.length) ∧
      (r.rv ≠ 0 → r.rv = -1 ∧ r.len = s.length) ∧
      (∀ i ∈ r.reads, i < s.length) ∧
      ∀ behind', utf8ValidateAt (inMemory s behind') s.length = r := by
  intro r
  have hscan := utf8ScanLoop_spec (inMemory s behind) s.length s.length 0 s.length (Nat.zero_add _)
  rw [bytesFrom_inMemory] at hscan
  have hvalidate : utf8Validate s = (utf8ValidateLoop s.length s).map (s.length - ·) := rfl
  have haccepts {n : ℕ} (hn : utf8Validate s = some n) : r.rv = 0 ∧ r.len = n := by
    rw [hvalidate, Option.map_eq_some_iff] at hn
    obtain ⟨left, hleft, rfl⟩ := hn
    exact hscan.accepts left hleft
  have hrejects (hn : utf8Validate s = none) : r.rv = -1 ∧ r.len = s.length := by
    rw [hvalidate, Option.map_eq_none_iff] at hn
    exact hscan.rejects hn
  have hsplit {w t : List Byte} (hs : s = w ++ t) (hw : WellFormed w) (ht : t = [] ∨ Begun t) :
      utf8Validate s = some w.length :=
    utf8Validate_eq_some_iff.mpr ⟨w, t, hs, hw, truncated_iff.mpr ht, rfl⟩
  refine ⟨⟨fun hrv => ?_, ?_⟩, fun w t hs hw ht => (haccepts (hsplit hs hw ht)).2, fun hrv => ?_,
    hscan.reads, fun behind' => ?_⟩
  · cases hn : utf8Validate s with
    | none => exact absurd ((hrejects hn).1.symm.trans hrv) (by decide)
    | some n =>
        obtain ⟨w, t, hs, hw, ht, -⟩ := utf8Validate_eq_some_iff.mp hn
        exact ⟨w, t, hs, hw, truncated_iff.mp ht⟩
  · rintro ⟨w, t, hs, hw, ht⟩
    exact (haccepts (hsplit hs hw ht)).1
  · cases hn : utf8Validate s with
    | none => exact hrejects hn
    | some n => exact absurd (haccepts hn).1 hrv
  · refine utf8ScanLoop_congr (fun i hi => ?_) _ 0 s.length (Nat.zero_add _)
    rw [inMemory, inMemory, List.getD_eq_getElem _ _ hi, List.getD_eq_getElem _ _ hi]

end CurlWs
