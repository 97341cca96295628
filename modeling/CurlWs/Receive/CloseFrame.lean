import CurlWs.Receive.Effect
import CurlWs.Receive.HeaderDecode
import CurlWs.Receive.Utf8Validate

/-!
# Close frames

`_handle_close` against the protocol's rules for the payload of a close frame: what `on_close` is
told, if anything, and with which code the connection is closed in return.

**The payload.**  It is empty, or a code in two bytes and then a reason in UTF-8.  `closeReport` is
what such a payload tells the user, with 1005 for an empty one; it is `none` for a single byte, a
code that `_is_close_code_valid` turns down and a reason that is not UTF-8.  `closeAnswer` is the
code of the answer: that of the payload, 1002 for the first two mistakes and 1007 for the third.

**The view.**  These are facts about the view, which has what the user's functions cannot change:
the events, in their order, and that `CLOSE_RECEIVED` is set.  The output belongs to `CloseAnswer`.

* **`handleClose_writes`** — what `_handle_close` does with a payload, including the NUL that it
  writes behind it.
-/

namespace CurlWs

open Utf8 WebSocket

instance (bs : List Byte) : Decidable (WellFormed bs) :=
  decidable_of_iff _ (@utf8Validate_length_iff bs)

/-- The code in a close frame. -/
def closeCode (p : List Byte) : ℤ := (bigEndian (p.take 2) : ℕ)

/-- What `on_close` is told of a close frame, if the frame is accepted. -/
def closeReport (p : List Byte) : Option (ℤ × Option (List Byte)) :=
  if p.length = 0 then some (1005, none)
  else if p.length = 1 ∨ isCloseCodeValid (closeCode p) = false ∨ ¬ WellFormed (p.drop 2) then none
  else some (closeCode p, closeReason (some (p.drop 2)) (p.drop 2).length)

/-- The code a close frame is answered with, zero for an answer without a code. -/
def closeAnswer (p : List Byte) : ℤ :=
  if p.length = 0 then 0
  else if p.length = 1 ∨ isCloseCodeValid (closeCode p) = false then 1002
  else if ¬ WellFormed (p.drop 2) then 1007
  else closeCode p

/-- The call of `on_close` for a close frame. -/
def closeCall (v : View) (p : List Byte) : List Event :=
  match closeReport p with
  | none => []
  | some (code, reason) =>
      if v.cfg.cb.onClose then [.callback (.onClose code reason) v.dispatching] else []

/-- The only event among them is the report. -/
lemma mem_closeCall {v : View} {p : List Byte} {e : Event} (h : e ∈ closeCall v p) :
    ∃ code reason, e = .callback (.onClose code reason) v.dispatching := by
  rw [closeCall] at h
  split at h
  · exact absurd h List.not_mem_nil
  · split_ifs at h
    · exact ⟨_, _, List.mem_singleton.mp h⟩
    · exact absurd h List.not_mem_nil

/-- If there is a call, `on_close` is installed and the frame is reported. -/
lemma reported_of_mem_closeCall {v : View} {p : List Byte} {e : Event} (h : e ∈ closeCall v p) :
    v.cfg.cb.onClose = true ∧ closeReport p ≠ none := by
  rw [closeCall] at h
  split at h
  · exact absurd h List.not_mem_nil
  · rename_i hreport
    split_ifs at h with hcb
    · exact ⟨hcb, by rw [hreport]; exact Option.some_ne_none _⟩
    · exact absurd h List.not_mem_nil

/-- If `on_close` is installed and the frame is reported, there is a call. -/
lemma closeCall_of_reported {v : View} {p : List Byte} (hcb : v.cfg.cb.onClose = true)
    (hreport : closeReport p ≠ none) : ∃ c, .callback c v.dispatching ∈ closeCall v p := by
  obtain ⟨⟨code, reason⟩, h⟩ := Option.ne_none_iff_exists'.mp hreport
  rw [closeCall, h]
  simp only [hcb, if_true]
  exact ⟨.onClose code reason, List.mem_singleton_self _⟩

/-- The end of `_handle_close`, as long as no close has been received. -/
lemma acceptClose_eq {v : View} (ho : v.received = false) (status : ℤ)
    (reason : Option (List Byte)) :
    v.acceptClose status reason = { v with
      received := true
      trace := v.trace ++
        (if v.cfg.cb.onClose then [.callback (.onClose status reason) v.dispatching] else []) ++
          [.closing (if status = 1005 then 0 else status)] } := by
  rw [View.acceptClose, View.call_eq, View.close_eq (by exact ho)]

/-- The write of the NUL that ends the reason. -/
def closeWrites (p : List Byte) : List Event :=
  if isCloseCodeValid (closeCode p) = true then [.controlWrite p.length (p.length + 1)] else []

/-- The NUL is written behind the payload, if its code is accepted. -/
lemma mem_closeWrites {p : List Byte} {e : Event} (h : e ∈ closeWrites p) :
    isCloseCodeValid (closeCode p) = true ∧ e = .controlWrite p.length (p.length + 1) := by
  rw [closeWrites] at h
  split_ifs at h with hvalid
  · exact ⟨hvalid, List.mem_singleton.mp h⟩
  · exact absurd h List.not_mem_nil

/-- Fewer than two bytes are not a code. -/
lemma closeWrites_short {p : List Byte} (h : p.length < 2) : closeWrites p = [] := by
  rcases p with _ | ⟨b, _ | ⟨_, _⟩⟩
  · rfl
  · have hlt := b.toNat_lt
    refine if_neg ?_
    simp only [isCloseCodeValid, closeCode, bigEndian, List.take_succ_cons, List.take_nil,
      List.foldl_cons, List.foldl_nil, Bool.or_eq_true, Bool.and_eq_true, decide_eq_true_eq]
    omega
  · simp only [List.length_cons] at h
    omega

/-- **`_handle_close`**. -/
theorem handleClose_writes {v : View} (ho : v.received = false) (p : List Byte) : v.handleClose p
    = { v with
        received := true
        trace := v.trace ++ (closeWrites p ++ closeCall v p) ++ [.closing (closeAnswer p)] } := by
  have hclose (code : ℤ) (hw : closeWrites p = []) (hr : closeReport p = none)
      (ha : closeAnswer p = code) : v.close code
        = { v with
            received := true
            trace := v.trace ++ (closeWrites p ++ closeCall v p)
              ++ [.closing (closeAnswer p)] } := by
    rw [View.close_eq ho, closeCall, hw, hr, ha, List.append_nil, List.append_nil]
  rcases p with _ | ⟨b0, _ | ⟨b1, text⟩⟩
  · exact acceptClose_eq ho 1005 none
  · exact hclose 1002 (closeWrites_short (by simp)) rfl rfl
  · have hcode : ((((b0 :: b1 :: text).getD 0 0).toNat <<< 8
        ||| ((b0 :: b1 :: text).getD 1 0).toNat : ℕ) : ℤ) = closeCode (b0 :: b1 :: text) :=
      congrArg Nat.cast (two_bytes b0 b1)
    have hwrites : closeWrites (b0 :: b1 :: text)
        = if isCloseCodeValid (closeCode (b0 :: b1 :: text)) = true then
          [.controlWrite (b0 :: b1 :: text).length ((b0 :: b1 :: text).length + 1)] else [] := rfl
    have hreport : closeReport (b0 :: b1 :: text)
        = if isCloseCodeValid (closeCode (b0 :: b1 :: text)) = false ∨ ¬ WellFormed text then none
          else some (closeCode (b0 :: b1 :: text), closeReason (some text) text.length) := by
      simp [closeReport]
    have hanswer : closeAnswer (b0 :: b1 :: text)
        = if isCloseCodeValid (closeCode (b0 :: b1 :: text)) = false then 1002
          else if ¬ WellFormed text then 1007 else closeCode (b0 :: b1 :: text) := by
      simp [closeAnswer]
    simp only [View.handleClose, hcode, List.drop_succ_cons, List.drop_zero]
    rw [if_neg (by simp), if_pos (by simp)]
    generalize closeCode (b0 :: b1 :: text) = code at hwrites hreport hanswer
    cases hvalid : isCloseCodeValid code with
    | false =>
        rw [if_pos (show (!false) = true from rfl)]
        exact hclose 1002 (hwrites.trans (if_neg (by simp [hvalid])))
          (hreport.trans (if_pos (.inl hvalid))) (hanswer.trans (if_pos hvalid))
    | true =>
        have hv : ¬ isCloseCodeValid code = false := by simp [hvalid]
        rw [if_neg (show ¬ (!true) = true by simp)]
        rw [if_pos hvalid] at hwrites
        rw [if_neg hv] at hanswer
        generalize (b0 :: b1 :: text).length = m at hwrites ⊢
        have ho' : (v.log (.controlWrite m (m + 1))).received = false := ho
        by_cases hw : WellFormed text
        · rw [if_neg (not_or.mpr ⟨hv, not_not.mpr hw⟩)] at hreport
          rw [if_neg (not_not.mpr hw)] at hanswer
          have hne : code ≠ 1005 := by
            rintro rfl
            exact absurd hvalid (by decide)
          rw [if_neg (not_not.mpr (utf8Validate_length_iff.mpr hw)), acceptClose_eq ho',
            if_neg hne, closeCall, hwrites, hreport, hanswer]
          simp only [View.log, List.append_assoc]
          rfl
        · rw [if_pos (.inr hw)] at hreport
          rw [if_pos hw] at hanswer
          rw [if_pos (mt utf8Validate_length_iff.mp hw), View.close_eq ho', closeCall, hwrites,
            hreport, hanswer]
          simp [View.log]

/-- The same, for what does not depend on the write. -/
theorem handleClose_eq {v : View} (ho : v.received = false) (p : List Byte) :
    ∃ ws, (∀ e ∈ ws, ∃ i j, e = .controlWrite i j) ∧ v.handleClose p
      = { v with
          received := true
          trace := v.trace ++ (ws ++ closeCall v p) ++ [.closing (closeAnswer p)] } :=
  ⟨closeWrites p, fun _ he => ⟨_, _, (mem_closeWrites he).2⟩, handleClose_writes ho p⟩

end CurlWs
