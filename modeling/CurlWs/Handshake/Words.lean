import CurlWs.Handshake.CaseCompare

/-!
# Headers that state one word

"Upgrade:" is to have the value "websocket" and "Connection:" the value "upgrade".  The value is
compared with the word as far as the value goes, which a part of the word passes, and a value that
goes on behind the NUL of the word is compared with what is stored there.

**The line.**  Any value may stand behind the name, with blanks of its own.  Trimming leaves the
name in front (`cwsTrim_append`), so the line is found by the table and is no status line, and the
flag becomes the result of the comparison (`flag_headerCb`).

**The comparison.**  With the length of the value as its limit, it succeeds when the value and the
word agree to that length (`AgreeTo`).  This is the word itself, a part of it from its start on, the
empty value among them, or the word and a NUL with more behind it, where what is read is no longer
the word's (`reads_inside_iff`).

## Main results

* **`flag_headerCb`** — the flag after the header is the result of that comparison.
* **`recognizesWord_iff`** — it is right unless the value is a part of the word from its start on,
  or the word and then a NUL.
-/

namespace CurlWs

/-- The headers whose value is to be one word. -/
inductive WordHeader where
  | connection
  | upgrade
  deriving DecidableEq, Repr

namespace WordHeader

/-- What the header states. -/
def fact : WordHeader → Fact
  | .connection => .upgraded
  | .upgrade => .connectionWebsocket

/-- The word it is to have as its value. -/
def word : WordHeader → List Byte
  | .connection => ascii ['u', 'p', 'g', 'r', 'a', 'd', 'e']
  | .upgrade => ascii ['w', 'e', 'b', 's', 'o', 'c', 'k', 'e', 't']

end WordHeader

/-- The flag is set for the word and for nothing else, and it does not depend on what is stored
behind the word. -/
structure RecognizesWord (env : Env) (s : Cws) (hdr : WordHeader) (v : List Byte) : Prop where
  flag : hdr.fact.flag
      (headerCb env s (hdr.fact.header ++ v) 101 curlHttpVersion11).2.headerState = true ↔
    SameLetters (cwsTrim v) hdr.word
  inside : (cwsStrncasecmpAt (stored (cwsTrim v)) (stored hdr.word) (cwsTrim v).length).reads ≤
    hdr.word.length + 1

/-! ## The line

A header of the name, with any value behind it. -/

/-- Trimming a line leaves its name. -/
lemma cwsTrim_append {p : List Byte} (hne : p ≠ []) (hfront : p.dropWhile isSpace = p)
    (hback : p.rdropWhile isSpace = p) (v : List Byte) : ∃ u, cwsTrim (p ++ v) = p ++ u := by
  rw [cwsTrim_eq, List.dropWhile_append, hfront, List.isEmpty_eq_false_iff.mpr hne,
    if_neg Bool.false_ne_true, List.rdropWhile, List.reverse_append, List.dropWhile_append]
  split_ifs with hall
  · refine ⟨[], ?_⟩
    rw [List.append_nil]
    exact hback
  · refine ⟨v.rdropWhile isSpace, ?_⟩
    rw [List.reverse_append, List.reverse_reverse]
    rfl

/-- Trimming leaves the name of either header. -/
lemma cwsTrim_header (hdr : WordHeader) (v : List Byte) :
    ∃ u, cwsTrim (hdr.fact.header ++ v) = hdr.fact.header ++ u := by
  cases hdr with
  | connection => exact cwsTrim_append (List.cons_ne_nil _ _) rfl rfl v
  | upgrade => exact cwsTrim_append (List.cons_ne_nil _ _) rfl rfl v

/-- The line has the name in front. -/
lemma hasPrefix_header (hdr : WordHeader) (v : List Byte) :
    cwsHasPrefix (hdr.fact.header ++ v) hdr.fact.header = true := by
  obtain ⟨u, htrim⟩ := cwsTrim_header hdr v
  simp only [cwsHasPrefix, htrim]
  rw [if_neg (by rw [List.length_append]; omega), decide_eq_true_eq, cwsStrncasecmp_eq_zero_iff]
  intro i hi
  rw [stored_append hi]

/-- It is no status line. -/
lemma not_hasPrefix_http (hdr : WordHeader) (v : List Byte) :
    cwsHasPrefix (hdr.fact.header ++ v) httpPrefix = false := by
  obtain ⟨u, htrim⟩ := cwsTrim_header hdr v
  simp only [cwsHasPrefix, htrim]
  split_ifs with hlen
  · rfl
  · rw [decide_eq_false_iff_not, cwsStrncasecmp_eq_zero_iff]
    intro hsame
    have hfirst := hsame 0 (by decide)
    rw [stored_append (by cases hdr <;> decide)] at hfirst
    -- `U` or `C` against `H`
    cases hdr <;> exact absurd hfirst (by decide)

/-- **The flag after the header.** -/
theorem flag_headerCb (env : Env) (s : Cws) (hdr : WordHeader) (v : List Byte) :
    hdr.fact.flag (headerCb env s (hdr.fact.header ++ v) 101 curlHttpVersion11).2.headerState
        = true ↔
      cwsStrncasecmp (cwsTrim v) hdr.word (cwsTrim v).length = 0 := by
  have hprocessed : Processed s.cfg 101 curlHttpVersion11 := by
    refine ⟨?_, rfl, rfl⟩
    rintro ⟨-, hlow, -⟩
    omega
  have hvalue : headerValue (hdr.fact.header ++ v) hdr.fact.header = cwsTrim v := by
    rw [headerValue, List.drop_left]
  rw [(read_headerCb hprocessed env _).flag, Fact.next, not_hasPrefix_http, hasPrefix_header,
    if_neg Bool.false_ne_true, if_pos rfl, hvalue]
  cases hdr <;> exact decide_eq_true_iff

/-! ## The comparison

How far the value and the word agree, with what is stored behind both. -/

variable {a w : List Byte}

/-- The first bytes are the same but for their case. -/
def AgreeTo (a w : List Byte) (n : ℕ) : Prop :=
  ∀ i < n, lowerCase (stored a i) = lowerCase (stored w i)

lemma AgreeTo.mono {n m : ℕ} (h : AgreeTo a w n) (hm : m ≤ n) : AgreeTo a w m := by
  intro i hi
  exact h i (by omega)

lemma sameLetters_iff : SameLetters a w ↔ a.length = w.length ∧ AgreeTo a w a.length := by
  constructor
  · intro h
    have hlen : a.length = w.length := by
      rw [← List.length_map lowerCase, h, List.length_map]
    refine ⟨hlen, ?_⟩
    intro i hi
    have hget := congrArg (fun l => l[i]?) h
    simpa [stored, hi, hlen ▸ hi] using hget
  · rintro ⟨hlen, hagree⟩
    refine List.ext_getElem ?_ ?_
    · rw [List.length_map, List.length_map, hlen]
    · intro i hia hiw
      rw [List.length_map] at hia hiw
      have hget := hagree i hia
      rw [stored, stored, List.getD_eq_getElem _ _ hia, List.getD_eq_getElem _ _ hiw] at hget
      rw [List.getElem_map, List.getElem_map, hget]

/-- A part of the word, from its start on. -/
lemma sameLetters_take_iff :
    (∃ k < w.length, SameLetters a (w.take k)) ↔ a.length < w.length ∧ AgreeTo a w a.length := by
  constructor
  · rintro ⟨k, hk, hsame⟩
    obtain ⟨hlen, hagree⟩ := sameLetters_iff.mp hsame
    rw [List.length_take, min_eq_left hk.le] at hlen
    refine ⟨by omega, ?_⟩
    intro i hi
    rw [hagree i hi, stored_take (hlen ▸ hi)]
  · rintro ⟨hlt, hagree⟩
    refine ⟨a.length, hlt, sameLetters_iff.mpr ⟨?_, ?_⟩⟩
    · rw [List.length_take, min_eq_left hlt.le]
    · intro i hi
      rw [hagree i hi, stored_take hi]

/-- The word, and then a NUL. -/
lemma sameLetters_nul_iff :
    SameLetters (a.take (w.length + 1)) (w ++ [0]) ↔
      w.length < a.length ∧ AgreeTo a w (w.length + 1) := by
  have htake {i : ℕ} (hi : i < w.length + 1) : stored (a.take (w.length + 1)) i = stored a i :=
    stored_take hi
  rw [sameLetters_iff, List.length_take, List.length_append, List.length_singleton]
  constructor
  · rintro ⟨hlen, hagree⟩
    refine ⟨by omega, ?_⟩
    intro i hi
    rw [← htake hi, hagree i (by omega), stored_nul]
  · rintro ⟨hlt, hagree⟩
    refine ⟨by omega, ?_⟩
    intro i hi
    rw [htake (by omega), hagree i (by omega), stored_nul]

/-- The comparison leads past the NUL of the word if the value does and is the same so far. -/
lemma reads_inside_iff :
    (cwsStrncasecmpAt (stored a) (stored w) a.length).reads ≤ w.length + 1 ↔
      a.length ≤ w.length + 1 ∨ ¬ AgreeTo a w (w.length + 1) := by
  rcases Nat.eq_zero_or_pos a.length with hzero | hpos
  · rw [hzero]
    exact iff_of_true (Nat.zero_le _) (.inl (Nat.zero_le _))
  · obtain ⟨j, hstops, hresult⟩ := cwsStrncasecmpAt_stops (stored a) (stored w) hpos
    rw [hresult]
    have hj := hstops.below
    constructor
    · intro (hreads : j + 1 ≤ w.length + 1)
      refine or_iff_not_imp_right.mpr ?_
      intro hagree
      have := hstops.last (not_not.mp hagree j (by omega))
      omega
    · rintro (hshort | hdiff)
      · show j + 1 ≤ w.length + 1
        omega
      · show j + 1 ≤ w.length + 1
        by_contra hlong
        refine hdiff ?_
        intro i hi
        exact hstops.agree i (by omega)

/-- **When the flag is right.** -/
theorem recognizesWord_iff (env : Env) (s : Cws) (hdr : WordHeader) (v : List Byte) :
    RecognizesWord env s hdr v ↔
      (¬ ∃ k < hdr.word.length, SameLetters (cwsTrim v) (hdr.word.take k)) ∧
        ¬ SameLetters ((cwsTrim v).take (hdr.word.length + 1)) (hdr.word ++ [0]) := by
  have hflag := flag_headerCb env s hdr v
  rw [cwsStrncasecmp_eq_zero_iff, ← AgreeTo] at hflag
  rw [sameLetters_take_iff, sameLetters_nul_iff]
  constructor
  · rintro ⟨hright, hinside⟩
    rw [hflag, sameLetters_iff] at hright
    rw [reads_inside_iff] at hinside
    refine ⟨?_, ?_⟩
    · rintro ⟨hlt, hagree⟩
      have := (hright.mp hagree).1
      omega
    · rintro ⟨hlt, hagree⟩
      rcases hinside with hshort | hdiff
      · have := (hright.mp (hagree.mono hshort)).1
        omega
      · exact hdiff hagree
  · rintro ⟨hpart, hnul⟩
    refine ⟨?_, ?_⟩
    · rw [hflag, sameLetters_iff]
      refine ⟨?_, And.right⟩
      intro hagree
      refine ⟨?_, hagree⟩
      rcases lt_trichotomy (cwsTrim v).length hdr.word.length with hlt | heq | hgt
      · exact absurd ⟨hlt, hagree⟩ hpart
      · exact heq
      · exact absurd ⟨hgt, hagree.mono hgt⟩ hnul
    · rw [reads_inside_iff]
      refine or_iff_not_imp_left.mpr ?_
      intro hlong hagree
      exact hnul ⟨by omega, hagree⟩

/-- "Upgrade: web": the flag is set. -/
theorem upgrade_by_part :
    let hdr := WordHeader.upgrade
    let v := ascii [' ', 'w', 'e', 'b'] ++ [0x0d, 0x0a]
    (headerCb .quiet (Cws.fresh {}) (upgradePrefix ++ v) 101
        curlHttpVersion11).2.headerState.connectionWebsocket = true ∧
      ¬ SameLetters (cwsTrim v) hdr.word ∧ ¬ RecognizesWord .quiet (Cws.fresh {}) hdr v := by
  intro hdr v
  have hset : (headerCb .quiet (Cws.fresh {}) (upgradePrefix ++ v) 101
      curlHttpVersion11).2.headerState.connectionWebsocket = true := by decide +kernel
  have hword : ¬ SameLetters (cwsTrim v) hdr.word := by decide +kernel
  refine ⟨hset, hword, ?_⟩
  intro h
  have hflag := h.flag
  rw [show hdr.fact = .connectionWebsocket from rfl, Fact.flag, Fact.header] at hflag
  exact hword (hflag.mp hset)

end CurlWs
