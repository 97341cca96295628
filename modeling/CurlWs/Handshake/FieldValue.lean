import CurlWs.Handshake.Accept

/-!
# The value a header's function is given

`_header_cb` has a table of names with a function for each.  A line that has a name as its prefix is
handed to the function of that name, which is to see the value: what follows the name and the colon,
without the blanks around it.

**Two ways of counting.**  `cws_has_prefix` finds the name on the trimmed line, but `_header_cb`
cuts the line as it came.  The two agree when the line begins with the name, and only then: a blank
in front of the name leaves the colon in what is cut off, so there is one colon more in it than in
the value (`count_cwsTrim`).

**One table.**  Nothing here depends on which name it is.  `HandsValue` says of any line and any
name that its function is given the value, and the theorem is about every entry of `headerCheckers`.

* **`handsValue_iff`** — the function of a header is given the text behind the name and the colon
  exactly when nothing is in front of the name.
-/

namespace CurlWs

/-- Whatever function the table has for a name, it is given the value of the line. -/
def HandsValue (line pre : List Byte) : Prop :=
  ∀ (check : Cws → List Byte → Cws) (s : Cws),
    runChecker line s (pre, check) = check s (fieldValue line pre)

/-- A line with the name as its prefix hands over what `headerValue` cuts off. -/
lemma handsValue_eq {line pre : List Byte} (h : cwsHasPrefix line pre = true) :
    HandsValue line pre ↔ headerValue line pre = fieldValue line pre := by
  have hrun (check : Cws → List Byte → Cws) (s : Cws) :
      runChecker line s (pre, check) = check s (headerValue line pre) := if_pos h
  constructor
  · intro hvalue
    have hgiven := hvalue (fun s value => { s with streamBuffer := value }) (Cws.fresh {})
    rw [hrun] at hgiven
    exact congrArg Cws.streamBuffer hgiven
  · intro heq check s
    rw [hrun, heq]

/-- Trimming leaves as many of a byte that is no blank. -/
lemma count_cwsTrim (l : List Byte) {b : Byte} (hb : isSpace b = false) :
    (cwsTrim l).count b = l.count b := by
  have hdrop (l : List Byte) : (l.dropWhile isSpace).count b = l.count b := by
    induction l with
    | nil => rfl
    | cons x l ih =>
        by_cases hx : isSpace x = true
        · have hne : x ≠ b := by
            rintro rfl
            rw [hx] at hb
            cases hb
          rw [List.dropWhile_cons_of_pos hx, ih, List.count_cons_of_ne hne]
        · rw [List.dropWhile_cons_of_neg hx]
  rw [cwsTrim, List.count_reverse, hdrop, List.count_reverse, hdrop]

/-- Every name in the table ends with a colon. -/
lemma headerCheckers_colon {c : List Byte × (Cws → List Byte → Cws)} (hc : c ∈ headerCheckers) :
    ∃ name, c.1 = name ++ [0x3a] := by
  simp only [headerCheckers, List.mem_cons, List.not_mem_nil, or_false] at hc
  rcases hc with rfl | rfl | rfl | rfl
  · exact ⟨acceptPrefix.dropLast, rfl⟩
  · exact ⟨protocolPrefix.dropLast, rfl⟩
  · exact ⟨connectionPrefix.dropLast, rfl⟩
  · exact ⟨upgradePrefix.dropLast, rfl⟩

/-- Nothing is in front of the first byte. -/
lemma takeWhile_isSpace_eq_nil (line : List Byte) :
    line.takeWhile isSpace = [] ↔ ∀ b ∈ line.head?, isSpace b = false := by
  cases line with
  | nil => simp
  | cons b line => simp [List.takeWhile_cons]

/-- **The function of a header is given its value exactly when the line begins with the name.** -/
theorem handsValue_iff {line : List Byte} {c : List Byte × (Cws → List Byte → Cws)}
    (hc : c ∈ headerCheckers) (h : cwsHasPrefix line c.1 = true) :
    HandsValue line c.1 ↔ ∀ b ∈ line.head?, isSpace b = false := by
  obtain ⟨name, hname⟩ := headerCheckers_colon hc
  rw [handsValue_eq h, ← takeWhile_isSpace_eq_nil]
  rw [hname] at h ⊢
  constructor
  · intro heq
    by_contra hblank
    obtain ⟨l, r, hdrop⟩ := drop_of_blank h hblank
    -- there is one colon more in the value than there is behind the name
    have hcolon := congrArg (List.count 0x3a) heq
    rw [headerValue, fieldValue, count_cwsTrim _ rfl, count_cwsTrim _ rfl, hdrop,
      List.count_append, List.count_cons_self, List.count_append] at hcolon
    omega
  · intro hfront
    exact headerValue_of_front h hfront

/-- A name in other letters, and blanks around the value. -/
theorem handsValue_upgrade :
    HandsValue (ascii ['u', 'p', 'g', 'r', 'a', 'd', 'e', ':', ' ', 'x', ' '] ++ [0x0d, 0x0a])
        upgradePrefix ↔
      ∀ b ∈ (ascii ['u', 'p', 'g', 'r', 'a', 'd', 'e', ':', ' ', 'x', ' '] ++
        [0x0d, 0x0a]).head?, isSpace b = false :=
  @handsValue_iff _ (upgradePrefix, checkUpgrade) (by simp [headerCheckers]) (by decide +kernel)

/-- A blank in front of the name: the value begins with the colon. -/
theorem value_with_colon :
    let line := ascii [' ', 'U', 'p', 'g', 'r', 'a', 'd', 'e', ':', ' ', 'w', 'e', 'b', 's', 'o',
      'c', 'k', 'e', 't'] ++ [0x0d, 0x0a]
    cwsHasPrefix line upgradePrefix = true ∧
      headerValue line upgradePrefix = ascii [':', ' ', 'w', 'e', 'b', 's', 'o', 'c', 'k', 'e',
        't'] ∧
      fieldValue line upgradePrefix = ascii ['w', 'e', 'b', 's', 'o', 'c', 'k', 'e', 't'] ∧
        ¬ HandsValue line upgradePrefix := by
  intro line
  have hfront : cwsHasPrefix line upgradePrefix = true := by decide +kernel
  refine ⟨hfront, by decide +kernel, by decide +kernel, ?_⟩
  rw [handsValue_eq hfront]
  decide +kernel

end CurlWs
