import CurlWs.Handshake.Headers

/-!
# The server's key

When `on_connect` may be called depends on one header, `Sec-WebSocket-Accept`, whose value has to be
the one computed from the key that was sent.  Everything about that header goes through three
functions of the source, which do not look at the same bytes.

**Finding the name.**  `cws_has_prefix` trims the line and compares its first bytes with the name
and the colon, whatever the case of their letters.  No other byte compares equal to the colon
(`toLower_colon`), so a line with the prefix has its colon in the same place of the trimmed line
(`colon_of_hasPrefix`).

**Cutting the value.**  `_header_cb` drops as many bytes as the name has from the line as it came.
With nothing in front of the name this is the value (`headerValue_of_front`).  A line with blanks in
front of it gives a value with the colon in it (`drop_of_blank`), since the colon moves back by as
many bytes as there are blanks.

**Comparing it.**  `_check_accept` asks for equality with `expected_key_header`.  A value with a
colon in it is never equal to a key without one, and base64 has no colon; hence the odd lines can
only be refused (`headerValue_or_colon`).

* **`connects_only_accepted`** — `on_connect` is called only after the expected key, in the last
  header for it since the last status line.

The theorem is about whole runs: the responses that curl follows to another place, the status lines
in between and the headers of other names are all part of the run, which counts up to where its
object is freed (`Run`).
-/

namespace CurlWs

/-- The value of a header, without the blanks around it. -/
def fieldValue (line pre : List Byte) : List Byte := cwsTrim ((cwsTrim line).drop pre.length)

/-! ## `cws_trim`

Trimming takes blanks off at both ends and touches no other byte. -/

/-- `cws_trim` in the words of `Mathlib`: blanks dropped at the front, then at the back. -/
lemma cwsTrim_eq (s : List Byte) : cwsTrim s = (s.dropWhile isSpace).rdropWhile isSpace := rfl

/-- Blanks at the end are dropped. -/
lemma cwsTrim_append_spaces (s : List Byte) {ws : List Byte} (hws : ∀ b ∈ ws, isSpace b = true) :
    cwsTrim (s ++ ws) = cwsTrim s := by
  have hdrop : ws.reverse.dropWhile isSpace = [] := by
    rw [List.dropWhile_eq_nil_iff]
    intro b hb
    exact hws b (List.mem_reverse.mp hb)
  rw [cwsTrim, cwsTrim, List.dropWhile_append]
  split_ifs with hall
  · rw [List.dropWhile_eq_nil_iff.mpr hws, List.isEmpty_iff.mp hall]
  · rw [List.reverse_append, List.dropWhile_append, hdrop]
    rfl

/-- Other bytes stay. -/
lemma mem_cwsTrim {s : List Byte} {b : Byte} (hb : b ∈ s) (hspace : isSpace b = false) :
    b ∈ cwsTrim s := by
  have hmem {l : List Byte} (h : b ∈ l) : b ∈ l.dropWhile isSpace := by
    rw [← List.takeWhile_append_dropWhile (p := isSpace) (l := l), List.mem_append] at h
    rcases h with h | h
    · exact absurd (hspace.symm.trans (List.mem_takeWhile_imp h)) Bool.false_ne_true
    · exact h
  rw [cwsTrim, List.mem_reverse]
  exact hmem (List.mem_reverse.mpr (hmem hb))

/-- What follows a prefix of the trimmed line, with nothing in front. -/
lemma headerValue_eq {line : List Byte} (hfront : line.dropWhile isSpace = line) {pre : List Byte}
    (hlen : pre.length ≤ (cwsTrim line).length) : headerValue line pre = fieldValue line pre := by
  have hsplit : line = cwsTrim line ++ line.rtakeWhile isSpace := by
    rw [cwsTrim_eq, hfront]
    exact List.rdropWhile_append_rtakeWhile.symm
  rw [headerValue, fieldValue]
  conv_lhs => rw [hsplit]
  rw [List.drop_append_of_le_length hlen]
  exact cwsTrim_append_spaces _ fun b hb => List.mem_rtakeWhile_imp hb

/-! ## `cws_strncasecmp`

What a comparison that succeeds says about the bytes, and so about the colon. -/

/-- Strings that compare equal have the same letters. -/
lemma toLower_of_strncasecmpLoop {n : ℕ} : ∀ {s1 s2 : List Byte}, strncasecmpLoop n s1 s2 = 0 →
    ∀ i ≤ n, toLower (s1.getD i 0) = toLower (s2.getD i 0) := by
  induction n with
  | zero =>
      intro s1 s2 h i hi
      obtain rfl := Nat.le_zero.mp hi
      rw [strncasecmpLoop] at h
      cases s1 <;> cases s2 <;> exact sub_eq_zero.mp h
  | succ n ih =>
      intro s1 s2 h i hi
      simp only [strncasecmpLoop] at h
      split_ifs at h with hc
      · cases i with
        | zero => cases s1 <;> cases s2 <;> exact sub_eq_zero.mp hc
        | succ i =>
            have hi' := ih h i (Nat.le_of_succ_le_succ hi)
            cases s1 <;> cases s2 <;> exact hi'
      · exact absurd h hc

/-- No other byte compares equal to the colon. -/
lemma toLower_colon {b : Byte} (h : toLower b = toLower 0x3a) : b = 0x3a := by
  rw [show toLower 0x3a = 58 from rfl, toLower] at h
  refine UInt8.toNat_inj.mp ?_
  show b.toNat = 58
  split_ifs at h with hupper hlast
  · have hlow : 65 ≤ b.toNat := hupper.1
    omega
  · omega

/-- A line with the prefix has its colon, in the same place. -/
lemma colon_of_hasPrefix {line name : List Byte} (h : cwsHasPrefix line (name ++ [0x3a]) = true) :
    ∃ pre, cwsTrim line = pre ++ 0x3a :: (cwsTrim line).drop (name.length + 1) ∧
      pre.length = name.length := by
  have hlast : (name ++ [0x3a]).length - 1 = name.length := by
    rw [List.length_append, List.length_singleton, Nat.add_sub_cancel]
  simp only [cwsHasPrefix, cwsStrncasecmp] at h
  split_ifs at h with hlen hzero
  · rw [List.length_append] at hzero
    cases hzero
  · have hsame := toLower_of_strncasecmpLoop (of_decide_eq_true h) _ le_rfl
    rw [hlast, List.getD_append_right _ _ _ _ le_rfl, Nat.sub_self] at hsame
    have hlt : name.length < (cwsTrim line).length := by
      rw [List.length_append, List.length_singleton] at hlen
      omega
    refine ⟨(cwsTrim line).take name.length, ?_, ?_⟩
    · have hcolon := toLower_colon hsame
      rw [List.getD_eq_getElem _ _ hlt] at hcolon
      rw [← hcolon, List.getElem_cons_drop, List.take_append_drop]
    · rw [List.length_take, min_eq_left hlt.le]

/-- **With nothing in front of the name, the value is what follows it.** -/
theorem headerValue_of_front {line name : List Byte}
    (h : cwsHasPrefix line (name ++ [0x3a]) = true) (hfront : line.takeWhile isSpace = []) :
    headerValue line (name ++ [0x3a]) = fieldValue line (name ++ [0x3a]) := by
  obtain ⟨pre, htrim, hlen⟩ := colon_of_hasPrefix h
  have hsplit := List.takeWhile_append_dropWhile (p := isSpace) (l := line)
  rw [hfront, List.nil_append] at hsplit
  refine headerValue_eq hsplit ?_
  rw [htrim, List.length_append, List.length_append, hlen]
  exact Nat.add_le_add_left (Nat.succ_pos _) _

/-- **Blanks in front of the name leave the colon in the value.** -/
theorem drop_of_blank {line name : List Byte} (h : cwsHasPrefix line (name ++ [0x3a]) = true)
    (hblank : line.takeWhile isSpace ≠ []) :
    ∃ l r, line.drop (name ++ [0x3a]).length
      = l ++ 0x3a :: ((cwsTrim line).drop (name ++ [0x3a]).length ++ r) := by
  obtain ⟨pre, htrim, hlen⟩ := colon_of_hasPrefix h
  obtain ⟨r, hr⟩ := List.rdropWhile_prefix isSpace (line.dropWhile isSpace)
  rw [← cwsTrim_eq] at hr
  have hpos := List.length_pos_iff.mpr hblank
  have hline : line = line.takeWhile isSpace ++ pre ++
      0x3a :: ((cwsTrim line).drop (name.length + 1) ++ r) := by
    conv_lhs => rw [← List.takeWhile_append_dropWhile (p := isSpace) (l := line), ← hr, htrim]
    rw [List.append_assoc, List.append_assoc, List.cons_append]
  rw [List.length_append, List.length_singleton]
  refine ⟨(line.takeWhile isSpace ++ pre).drop (name.length + 1), r, ?_⟩
  conv_lhs => rw [hline]
  -- the blanks move the colon behind the bytes that are cut off
  refine List.drop_append_of_le_length ?_
  rw [List.length_append, hlen]
  omega

/-- A value that is cut off in the wrong place has the colon in it. -/
lemma colon_mem_headerValue {line : List Byte} (h : cwsHasPrefix line acceptPrefix = true)
    (hblank : line.takeWhile isSpace ≠ []) : 0x3a ∈ headerValue line acceptPrefix := by
  have hname : acceptPrefix = acceptPrefix.dropLast ++ [0x3a] := rfl
  rw [hname] at h ⊢
  obtain ⟨l, r, hdrop⟩ := drop_of_blank h hblank
  refine mem_cwsTrim ?_ rfl
  rw [hdrop]
  exact List.mem_append_right _ List.mem_cons_self

/-- **The value is what follows the prefix, or it has a colon in it.** -/
theorem headerValue_or_colon {line : List Byte} (h : cwsHasPrefix line acceptPrefix = true) :
    headerValue line acceptPrefix = fieldValue line acceptPrefix ∨
      0x3a ∈ headerValue line acceptPrefix := by
  have hname : acceptPrefix = acceptPrefix.dropLast ++ [0x3a] := rfl
  by_cases hblank : line.takeWhile isSpace = []
  · rw [hname] at h ⊢
    exact .inl (headerValue_of_front h hblank)
  · exact .inr (colon_mem_headerValue h hblank)

variable {env : Env} {cfg : Cfg}

/-- **`on_connect` is called only for the expected key.**  The line is the end of the headers of an
`HTTP/1.1 101`, and among the lines processed since the last status line, the last header for the
key has the expected value. -/
theorem connects_only_accepted (hkey : 0x3a ∉ cfg.expectedKeyHeader) (acts : List Action)
    (a : Action) (h : Connects env (run env (Cws.fresh cfg) acts) a) :
    a = .header crlf 101 curlHttpVersion11 ∧
      ∃ line, lastHeader acceptPrefix (processedLines cfg acts) = some line ∧
        fieldValue line acceptPrefix = cfg.expectedKeyHeader := by
  obtain ⟨hline, haccepted, -⟩ := connects_iff.mp h
  obtain ⟨line, hlast, hsuits⟩ := ((flag_run env cfg acts).flag .accepted).mp haccepted
  have hvalue : headerValue line acceptPrefix = cfg.expectedKeyHeader := of_decide_eq_true hsuits
  refine ⟨hline, line, hlast, ?_⟩
  rcases headerValue_or_colon (hasPrefix_of_lastHeader hlast) with hfield | hcolon
  · rw [← hfield, hvalue]
  · rw [hvalue] at hcolon
    exact absurd hcolon hkey

/-- A response to be followed elsewhere, and then one with the key in a header with odd blanks. -/
theorem connects_only_accepted_redirected :
    let cfg : Cfg := { followRedirects := true, expectedKeyHeader := [0x78, 0x79] }
    let acts := [Action.header (httpPrefix ++ [0x31]) 302 curlHttpVersion11,
      .header (acceptPrefix ++ [0x7a]) 302 curlHttpVersion11, .header crlf 302 curlHttpVersion11,
      .header (httpPrefix ++ [0x31]) 101 curlHttpVersion11,
      .header (acceptPrefix ++ [0x20, 0x09, 0x78, 0x79, 0x20] ++ crlf) 101 curlHttpVersion11]
    Action.header crlf 101 curlHttpVersion11 = .header crlf 101 curlHttpVersion11 ∧
      ∃ line, lastHeader acceptPrefix (processedLines cfg acts) = some line ∧
        fieldValue line acceptPrefix = [0x78, 0x79] :=
  @connects_only_accepted .quiet
    { followRedirects := true, expectedKeyHeader := [0x78, 0x79] } (by decide)
    [.header (httpPrefix ++ [0x31]) 302 curlHttpVersion11,
      .header (acceptPrefix ++ [0x7a]) 302 curlHttpVersion11, .header crlf 302 curlHttpVersion11,
      .header (httpPrefix ++ [0x31]) 101 curlHttpVersion11,
      .header (acceptPrefix ++ [0x20, 0x09, 0x78, 0x79, 0x20] ++ crlf) 101 curlHttpVersion11]
    (.header crlf 101 curlHttpVersion11) (by rw [Connects]; decide +kernel)

end CurlWs
