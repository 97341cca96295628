import CurlWs.Model.Create

/-!
# What a connection holds

`cws_create` asks for memory in a dozen places, and any of the requests may be refused.  The blocks
that are live are at any moment those the object refers to, apart from the strings a function is
working with.

**The invariant.**  `Holding t s` says that nothing has been freed that was not live, and that the
live blocks are those of the object and those in `t`.  The blocks are counted without an order and
with repetitions, so that a block that is kept in two places would be held twice, and freed twice in
the end.  A function that works with strings of its own takes them into `t` and puts them back.

**Four pointers** of the object are assigned without being freed before: the address, the key, the
protocols and the pool.  This loses nothing because each is assigned once; so the functions are
shown to leave the pointers of the others alone (`Retains`), and each of the four to find its own at
NULL.

**The end.**  `cws_destroy` frees what the object refers to.  It is called by `cws_create` itself
when something has failed, with the object as far as it has come.

* **`held_configurators`** — the functions one after another.
* **`create_settled`** — nothing is freed twice; without an object nothing is left, and an object
  holds what is left, which `cws_destroy` frees.
-/

namespace CurlWs

open Ledger

/-- The block of a pointer, if it is not NULL. -/
def held {σ : Type*} (b : Option (HeapBlock σ)) : Multiset ℕ := ↑(b.map (·.name)).toList

@[simp] lemma held_none {σ : Type*} : held (none : Option (HeapBlock σ)) = 0 := rfl

@[simp] lemma held_some {σ : Type*} (b : HeapBlock σ) : held (some b) = {b.name} := rfl

/-- The blocks of the object, without an order. -/
lemma coe_blocks (priv : CwsObject) : (↑priv.blocks : Multiset ℕ) =
    held priv.url + held priv.easy + ↑(priv.headers.map (·.name)) + held priv.wsProtocolsRequested +
      held priv.wsProtocolsReceived + held priv.expectedKeyHeader + held priv.mem +
      held priv.streamBuffer + {priv.name} := by
  simp only [CwsObject.blocks, held, ← Multiset.coe_add, Multiset.coe_singleton]

/-- The live blocks are those of the object, and `t`. -/
def Holding (t : Multiset ℕ) (s : Creation) : Prop := Settled s.log (t + ↑s.priv.blocks)

variable (env : CreateEnv) (config : CwsConfig) {s s' : Creation} {t : Multiset ℕ}

/-- Blocks come to the object, or leave it. -/
lemma Holding.move (h : Holding t s) {t' : Multiset ℕ} {priv : CwsObject}
    (hblocks : t' + ↑priv.blocks = t + ↑s.priv.blocks) : Holding t' { s with priv := priv } := by
  rw [Holding, hblocks]
  exact h

/-! ## Pointers

A block that was in nobody's hands comes to the object. -/

section

variable {b : Option (HeapBlock (List Byte))} (h : Holding (held b + t) s)
include h

lemma Holding.setUrl (hurl : s.priv.url = none) :
    Holding t { s with priv := { s.priv with url := b } } := by
  refine h.move ?_
  rw [coe_blocks, coe_blocks, hurl, held_none]
  abel

lemma Holding.setKey (hkey : s.priv.expectedKeyHeader = none) (cfg : Cfg) :
    Holding t { s with priv := { s.priv with expectedKeyHeader := b, cfg := cfg } } := by
  refine h.move ?_
  rw [coe_blocks, coe_blocks, hkey, held_none]
  abel

lemma Holding.setProtocols (hprotocols : s.priv.wsProtocolsRequested = none) :
    Holding t { s with priv := { s.priv with wsProtocolsRequested := b } } := by
  refine h.move ?_
  rw [coe_blocks, coe_blocks, hprotocols, held_none]
  abel

end

lemma Holding.setMem {b : Option (HeapBlock (MemPool ℕ))} (h : Holding (held b + t) s)
    (hmem : s.priv.mem = none) (cfg : Cfg) :
    Holding t { s with priv := { s.priv with cfg := cfg, mem := b } } := by
  refine h.move ?_
  rw [coe_blocks, coe_blocks, hmem, held_none]
  abel

/-- One header more. -/
lemma Holding.addHeader {b : HeapBlock (List Byte)} (h : Holding (held (some b) + t) s) :
    Holding t { s with priv := { s.priv with headers := s.priv.headers ++ [b] } } := by
  refine h.move ?_
  rw [coe_blocks, coe_blocks, List.map_append, ← Multiset.coe_add, held_some, List.map_singleton,
    Multiset.coe_singleton]
  abel

/-! ## Requests

One request adds a block to those held, or none, and one `free` takes it away. -/

/-- A request changes no pointer of the object. -/
lemma priv_malloc (s : Creation) : (s.malloc env).2.priv = s.priv := by
  rw [Creation.malloc]
  split_ifs <;> rfl

lemma priv_mallocString (s : Creation) (x : List Byte) : (s.mallocString env x).2.priv = s.priv :=
  priv_malloc env s

lemma priv_free {σ : Type*} (s : Creation) (b : Option (HeapBlock σ)) :
    (s.free b).priv = s.priv := by
  cases b <;> rfl

/-- **A request** brings a block, or none. -/
lemma Holding.malloc {σ : Type*} (h : Holding t s) (x : σ) :
    Holding (held ((s.malloc env).1.map fun p => (⟨p, x⟩ : HeapBlock σ)) + t) (s.malloc env).2 := by
  rw [Creation.malloc]
  split_ifs with hgranted
  · have hnew := Settled.obtained h s.log.length
    rw [← Multiset.singleton_add, ← add_assoc] at hnew
    exact hnew
  · have hnew := Settled.refused h
    rw [← zero_add t] at hnew
    exact hnew

lemma Holding.mallocString (h : Holding t s) (x : List Byte) :
    Holding (held (s.mallocString env x).1 + t) (s.mallocString env x).2 := h.malloc env x

/-- **A block is freed**, if there is one. -/
lemma Holding.free {σ : Type*} {b : Option (HeapBlock σ)} (h : Holding (held b + t) s) :
    Holding t (s.free b) := by
  cases b with
  | none =>
      rw [held_none, zero_add] at h
      exact h
  | some b =>
      rw [Holding, held_some, add_assoc, Multiset.singleton_add] at h
      exact h.freed

/-! ## What is left alone

Most functions ask for strings of their own, set options, and add headers. -/

/-- Memory is held as before, and the four pointers that are set once are as before. -/
structure Retains (s s' : Creation) : Prop where
  held : ∀ {t}, Holding t s → Holding t s'
  mem : s'.priv.mem = s.priv.mem
  url : s'.priv.url = s.priv.url
  key : s'.priv.expectedKeyHeader = s.priv.expectedKeyHeader
  protocols : s'.priv.wsProtocolsRequested = s.priv.wsProtocolsRequested

namespace Retains

lemma refl (s : Creation) : Retains s s := ⟨id, rfl, rfl, rfl, rfl⟩

lemma trans {s'' : Creation} (h : Retains s s') (h' : Retains s' s'') : Retains s s'' :=
  ⟨fun ht => h'.held (h.held ht), h'.mem.trans h.mem, h'.url.trans h.url, h'.key.trans h.key,
    h'.protocols.trans h.protocols⟩

end Retains

lemma retains_setopt (s : Creation) (o : CurlOption) : Retains s (s.setopt env o).2 := by
  rw [Creation.setopt]
  split_ifs with hok
  · refine ⟨fun h => h.move ?_, rfl, rfl, rfl, rfl⟩
    rw [coe_blocks, coe_blocks]
    cases s.priv.easy with
    | none => rfl
    | some easy => rfl
  · exact Retains.refl s

lemma retains_combine {r : CURLcode × Creation} {f : Creation → CURLcode × Creation}
    (h : Retains s r.2) (hf : ∀ s, Retains s (f s).2) : Retains s (Creation.combine r f).2 :=
  h.trans (hf r.2)

lemma retains_slistAppend (s : Creation) (line : List Byte) :
    Retains s (s.slistAppend env line).2 := by
  have hmalloc {t : Multiset ℕ} (h : Holding t s) := h.mallocString env line
  have hpriv := priv_mallocString env s line
  rw [Creation.slistAppend]
  generalize s.mallocString env line = r at hmalloc hpriv
  obtain ⟨_ | b, s'⟩ := r
  · refine ⟨fun h => ?_, ?_, ?_, ?_, ?_⟩
    · have hsame := hmalloc h
      rw [held_none, zero_add] at hsame
      exact hsame
    all_goals rw [← hpriv]
  · refine ⟨fun h => (hmalloc h).addHeader, ?_, ?_, ?_, ?_⟩
    all_goals rw [← hpriv]

/-- A function that gives up without memory. -/
lemma retains_appendLine {r : CURLcode × Creation} (line : List Byte)
    {next : CURLcode × Creation → CURLcode × Creation} (hnext : ∀ r, Retains r.2 (next r).2) :
    Retains r.2 (appendLine env line r next).2 := by
  have happend := retains_slistAppend env r.2 line
  rw [appendLine]
  split_ifs
  · exact happend.trans (hnext (r.1, _))
  · exact happend

/-! ## The functions

Those that leave the four pointers alone first, and then the four that do not. -/

lemma retains_configRedirects (s : Creation) : Retains s (configRedirects env config s).2 := by
  rw [configRedirects]
  split_ifs
  · exact Retains.refl s
  · have hset := retains_combine (retains_setopt env s .followLocation)
      fun s => retains_setopt env s (.maxRedirs config.maxRedirects)
    exact hset.trans ⟨fun h => h.move rfl, rfl, rfl, rfl, rfl⟩
  · exact Retains.refl s

lemma retains_configVerbosity (s : Creation) : Retains s (configVerbosity env config s).2 := by
  have hassign {s' : Creation} (h : Retains s s') (verbose : ℤ) :
      Retains s { s' with priv := { s'.priv with verbose := verbose } } :=
    h.trans ⟨fun h => h.move rfl, rfl, rfl, rfl, rfl⟩
  by_cases hneg : config.verbose < 0
  · rw [configVerbosity, if_pos hneg]
    exact Retains.refl s
  by_cases hloud : 1 < config.verbose
  · cases hstream : config.verboseStream with
    | none =>
        simp only [configVerbosity, if_neg hneg, if_pos hloud, hstream]
        exact hassign (retains_setopt env s _) _
    | some stream =>
        simp only [configVerbosity, if_neg hneg, if_pos hloud, hstream]
        exact hassign (retains_combine (retains_setopt env s _) fun s => retains_setopt env s _) _
  · simp only [configVerbosity, if_neg hneg, if_neg hloud]
    exact hassign (Retains.refl s) _

lemma retains_configWsWorkarounds (s : Creation) :
    Retains s (configWsWorkarounds env config s).2 := by
  have hset : Retains s (Creation.combine (Creation.combine (Creation.combine (Creation.combine
      (s.setopt env .httpVersion11) fun s => s.setopt env .upload)
      fun s => s.setopt env (.customRequest (ascii ['G', 'E', 'T'])))
      fun s => s.setopt env .forbidReuse) fun s => s.setopt env .freshConnect).2 :=
    retains_combine (retains_combine (retains_combine (retains_combine (retains_setopt env s _)
      fun s => retains_setopt env s _) fun s => retains_setopt env s _)
      fun s => retains_setopt env s _) fun s => retains_setopt env s _
  have hlast (r : CURLcode × Creation) : Retains r.2 (appendLine env transferEncodingLine r id).2 :=
    retains_appendLine env _ fun r => Retains.refl r.2
  rw [configWsWorkarounds]
  split_ifs
  · exact hset.trans (retains_appendLine env _ hlast)
  · exact hset
  · exact hset.trans (hlast _)

/-- Headers, as far as they are allowed. -/
lemma retains_appendLines (allowed : List Byte → Bool) (lines : List (List Byte)) :
    ∀ s, Retains s (appendLines env allowed lines s).2 := by
  induction lines with
  | nil =>
      intro s
      exact Retains.refl s
  | cons line lines ih =>
      intro s
      rw [appendLines]
      split_ifs
      · exact retains_appendLine env (r := (curleOk, s)) line fun r => ih r.2
      · exact Retains.refl s

lemma retains_configHttpHeaders (s : Creation) : Retains s (configHttpHeaders env config s).2 := by
  simp only [configHttpHeaders]
  have hfirst := retains_appendLines env (fun _ => true) wsHeaders s
  split_ifs
  · exact hfirst.trans ((retains_appendLines env _ _ _).trans (retains_setopt env _ _))
  · exact hfirst.trans (retains_appendLines env _ _ _)
  · exact hfirst

/-- Options of the user change no pointer. -/
lemma retains_userConfigure (s : Creation) : Retains s (userConfigure env config s).2 := by
  rw [userConfigure]
  split_ifs
  · refine ⟨fun h => h.move ?_, rfl, rfl, rfl, rfl⟩
    rw [coe_blocks, coe_blocks]
    cases s.priv.easy with
    | none => rfl
    | some easy => rfl
  · exact Retains.refl s

/-- The pool, of an object without one. -/
lemma held_configMemory (hmem : s.priv.mem = none) (h : Holding t s) :
    Holding t (configMemory env config s).2 := by
  have hpriv := priv_malloc env s
  have hpool := h.malloc env
    (configMemorypool ℕ env.sizes s.priv.cfg config.maxPayloadSize).2
  exact hpool.setMem (by rw [hpriv, hmem]) _

/-- The address, of an object without one. -/
lemma held_configUrl (hurl : s.priv.url = none) (h : Holding t s) :
    Holding t (configUrl env config s).2 := by
  rw [configUrl]
  split
  · exact h
  · rename_i url _
    have hmalloc := h.mallocString env (rewriteUrl url)
    have hpriv := priv_mallocString env s (rewriteUrl url)
    have hassign := hmalloc.setUrl (by rw [hpriv, hurl])
    simp only [cwsRewriteUrl]
    split
    · exact hassign
    · exact (retains_setopt env _ _).held hassign

/-- The key that is expected, of an object without one. -/
lemma held_configKeyHeaders (hkey : s.priv.expectedKeyHeader = none)
    (send combined : Option (HeapBlock (List Byte))) (h : Holding t s) :
    Holding t (configKeyHeaders env send combined s).2 := by
  rw [configKeyHeaders.eq_def]
  split
  · rename_i send combined
    split
    · rename_i md _
      have happend := retains_slistAppend env s send.value
      have hmalloc := (happend.held h).mallocString env (env.b64Encode md)
      have hpriv := priv_mallocString env (s.slistAppend env send.value).2
        (env.b64Encode md)
      dsimp only
      split
      · exact hmalloc.setKey (by rw [hpriv, happend.key, hkey]) _
      · exact happend.held h
    · exact h
  · exact h

/-- The key, with three strings that are freed again. -/
lemma held_configWsKey (hkey : s.priv.expectedKeyHeader = none) (h : Holding t s) :
    Holding t (configWsKey env s).2 := by
  have hfirst := h.mallocString env (env.b64Encode ((List.range 16).map env.random))
  have hpriv := priv_mallocString env s (env.b64Encode ((List.range 16).map env.random))
  rcases hr : s.mallocString env (env.b64Encode ((List.range 16).map env.random)) with ⟨_ | key, s₁⟩
  all_goals
    rw [hr] at hfirst hpriv
    simp only [configWsKey, b64EncodeWithAlloc, hr]
  · rw [held_none, zero_add] at hfirst
    exact hfirst
  · have hsend := hfirst.mallocString env (keyPrefix ++ [0x20] ++ key.value)
    have hpriv' := priv_mallocString env s₁ (keyPrefix ++ [0x20] ++ key.value)
    have hcombined := hsend.mallocString env (key.value ++ wsGuid)
    have hpriv'' := priv_mallocString env
      (s₁.mallocString env (keyPrefix ++ [0x20] ++ key.value)).2 (key.value ++ wsGuid)
    have hnone := hpriv''.trans (hpriv'.trans hpriv)
    have hall := held_configKeyHeaders env (by rw [hnone, hkey])
      (s₁.mallocString env (keyPrefix ++ [0x20] ++ key.value)).1
      ((s₁.mallocString env (keyPrefix ++ [0x20] ++ key.value)).2.mallocString env
        (key.value ++ wsGuid)).1 hcombined
    -- the three strings are freed, whatever has become of them
    rw [add_left_comm (held _) (held (some key)), add_left_comm (held _) (held (some key))] at hall
    exact hall.free.free.free

/-- The protocols, of an object without them. -/
lemma held_configWsProtocols (hprotocols : s.priv.wsProtocolsRequested = none) (h : Holding t s) :
    Holding t (configWsProtocols env config s).2 := by
  cases hconfig : config.websocketProtocols with
  | none =>
      simp only [configWsProtocols, hconfig]
      exact h
  | some protocols =>
      have hbuf := h.mallocString env (protocolPrefix ++ [0x20] ++ protocols)
      have hpriv := priv_mallocString env s (protocolPrefix ++ [0x20] ++ protocols)
      rcases hr : s.mallocString env (protocolPrefix ++ [0x20] ++ protocols) with ⟨_ | b, s₁⟩
      all_goals
        rw [hr] at hbuf hpriv
        simp only [configWsProtocols, hconfig, cwsStrmerge, hr]
      · rw [held_none, zero_add] at hbuf
        exact hbuf
      · have happend := retains_slistAppend env s₁ b.value
        have hfree := (happend.held hbuf).free
        have hpriv' := priv_free (s₁.slistAppend env b.value).2 (some b)
        have hcopy := hfree.mallocString env protocols
        have hpriv'' := priv_mallocString env
          ((s₁.slistAppend env b.value).2.free (some b)) protocols
        split
        · exact hcopy.setProtocols (by rw [hpriv'', hpriv', happend.protocols, hpriv, hprotocols])
        · exact hfree

/-! ## The whole

In the order of `cws_create`. -/

/-- The object at the start. -/
lemma held_start : Holding 0 ⟨.calloc 0, [.obtained 0]⟩ := by
  rw [Holding, coe_blocks]
  exact settled_nil.obtained 0

lemma configMemory_pointers (s : Creation) :
    (configMemory env config s).2.priv.url = s.priv.url ∧
      (configMemory env config s).2.priv.expectedKeyHeader = s.priv.expectedKeyHeader ∧
      (configMemory env config s).2.priv.wsProtocolsRequested = s.priv.wsProtocolsRequested := by
  simp only [configMemory, priv_malloc]
  exact ⟨trivial, trivial, trivial⟩

lemma configUrl_pointers (s : Creation) :
    (configUrl env config s).2.priv.expectedKeyHeader = s.priv.expectedKeyHeader ∧
      (configUrl env config s).2.priv.wsProtocolsRequested = s.priv.wsProtocolsRequested := by
  cases hconfig : config.url with
  | none =>
      simp only [configUrl, hconfig]
      exact ⟨trivial, trivial⟩
  | some url =>
      have hpriv := priv_mallocString env s (rewriteUrl url)
      rcases hr : s.mallocString env (rewriteUrl url) with ⟨_ | b, s₁⟩
      all_goals
        rw [hr] at hpriv
        simp only [configUrl, hconfig, cwsRewriteUrl, hr]
      · exact ⟨congrArg _ hpriv, congrArg _ hpriv⟩
      · have hset := retains_setopt env
          { s₁ with priv := { s₁.priv with url := some b } } (.url b.value)
        have hkey := congrArg CwsObject.expectedKeyHeader hpriv
        have hprotocols := congrArg CwsObject.wsProtocolsRequested hpriv
        exact ⟨hset.key.trans hkey, hset.protocols.trans hprotocols⟩

lemma configKeyHeaders_protocols (send combined : Option (HeapBlock (List Byte))) (s : Creation) :
    (configKeyHeaders env send combined s).2.priv.wsProtocolsRequested =
      s.priv.wsProtocolsRequested := by
  rw [configKeyHeaders.eq_def]
  split
  · rename_i send combined
    split
    · have happend := retains_slistAppend env s send.value
      dsimp only
      split
      · simp only [b64EncodeWithAlloc, priv_mallocString]
        exact happend.protocols
      · exact happend.protocols
    · rfl
  · rfl

lemma configWsKey_protocols (s : Creation) :
    (configWsKey env s).2.priv.wsProtocolsRequested = s.priv.wsProtocolsRequested := by
  have hpriv := priv_mallocString env s (env.b64Encode ((List.range 16).map env.random))
  rcases hr : s.mallocString env (env.b64Encode ((List.range 16).map env.random)) with ⟨_ | key, s₁⟩
  all_goals
    rw [hr] at hpriv
    simp only [configWsKey, b64EncodeWithAlloc, hr]
  · exact congrArg _ hpriv
  · simp only [priv_free, configKeyHeaders_protocols, cwsStrmerge, priv_mallocString]
    exact congrArg _ hpriv

/-- What the functions do to memory, one after another. -/
theorem held_configurators (h : Holding 0 s) (hmem : s.priv.mem = none) (hurl : s.priv.url = none)
    (hkey : s.priv.expectedKeyHeader = none) (hprotocols : s.priv.wsProtocolsRequested = none) :
    Holding 0 ((configurators env config).foldl Creation.combine (curleOk, s)).2 := by
  have hmemory := held_configMemory env config hmem h
  obtain ⟨hurl', hkey', hprotocols'⟩ := configMemory_pointers env config s
  generalize hs₁ : (configMemory env config s).2 = s₁ at hmemory hurl' hkey' hprotocols'
  have haddress := held_configUrl env config (hurl'.trans hurl) hmemory
  obtain ⟨hkey'', hprotocols''⟩ := configUrl_pointers env config s₁
  generalize hs₂ : (configUrl env config s₁).2 = s₂ at haddress hkey'' hprotocols''
  -- the functions that touch none of the four pointers
  have hmiddle : Retains s₂ (configWsWorkarounds env config (configVerbosity env config
      (sendInit env (receiveInit env (headerInit env (configRedirects env config
        (configSecurity env s₂).2).2).2).2).2).2).2 :=
    (retains_setopt env s₂ _).trans <| (retains_configRedirects env config _).trans <|
      (retains_combine (retains_setopt env _ _) fun s => retains_setopt env s _).trans <|
      (retains_combine (retains_setopt env _ _) fun s => retains_setopt env s _).trans <|
      (retains_combine (retains_setopt env _ _) fun s => retains_setopt env s _).trans <|
      (retains_configVerbosity env config _).trans (retains_configWsWorkarounds env config _)
  generalize hs₃ : (configWsWorkarounds env config _).2 = s₃ at hmiddle
  have hkeyed := held_configWsKey env
    (hmiddle.key.trans (hkey''.trans (hkey'.trans hkey))) (hmiddle.held haddress)
  have hprotocols₃ := hmiddle.protocols.trans (hprotocols''.trans (hprotocols'.trans hprotocols))
  have hasked := held_configWsProtocols env config
    ((configWsKey_protocols env s₃).trans hprotocols₃) hkeyed
  have hlast := ((retains_configHttpHeaders env config _).trans
    (retains_userConfigure env config _)).held hasked
  subst hs₁ hs₂ hs₃
  exact hlast

/-- **Nothing is lost.**  Whatever is refused, `cws_create` frees only live blocks; if it returns
NULL there are none left, and otherwise the live blocks are those of the object, which `cws_destroy`
frees. -/
theorem create_settled (env : CreateEnv) (config : Option CwsConfig) :
    let r := cwsCreate env config
    (r.1 = none → Settled r.2 0) ∧
      ∀ priv ∈ r.1, Settled r.2 ↑priv.blocks ∧ Settled (priv.destroy r.2) 0 := by
  have hdestroy {s : Creation} (h : Holding 0 s) :
      Settled s.log ↑s.priv.blocks ∧ Settled (s.priv.destroy s.log) 0 := by
    rw [Holding, zero_add] at h
    exact ⟨h, settled_free _ (by rw [add_zero]; exact h)⟩
  cases config with
  | none => exact ⟨fun _ => settled_nil, fun _ hpriv => by cases hpriv⟩
  | some config =>
      simp only [cwsCreate]
      split_ifs with hversion hgranted
      · exact ⟨fun _ => settled_nil, fun _ hpriv => by cases hpriv⟩
      · have hmalloc := held_start.malloc env ([] : List CurlOption)
        have hpriv := priv_malloc env ⟨.calloc 0, [.obtained 0]⟩
        rcases hr : Creation.malloc env ⟨.calloc 0, [.obtained 0]⟩ with ⟨_ | p, s⟩
        all_goals
          rw [hr] at hmalloc hpriv
          dsimp only
        · exact ⟨fun _ => (hdestroy hmalloc).2, fun _ hpriv => by cases hpriv⟩
        · have hs : s.priv = .calloc 0 := hpriv
          have heasy : Holding 0 { s with priv := { s.priv with
              easy := some ⟨p, []⟩, cfg := { s.priv.cfg with cb := config.cb } } } := by
            refine hmalloc.move ?_
            rw [coe_blocks, coe_blocks, hs, Option.map_some]
            simp only [CwsObject.calloc, held_none]
            abel
          have hwhole := held_configurators env config heasy
            (congrArg CwsObject.mem hs) (congrArg CwsObject.url hs)
            (congrArg CwsObject.expectedKeyHeader hs) (congrArg CwsObject.wsProtocolsRequested hs)
          split_ifs with hstatus
          · exact ⟨fun _ => (hdestroy hwhole).2, fun _ hpriv => by cases hpriv⟩
          · refine ⟨False.elim, fun priv hpriv => ?_⟩
            obtain rfl := Option.some.inj hpriv
            exact hdestroy hwhole
      · exact ⟨fun _ => settled_nil.refused, fun _ hpriv => by cases hpriv⟩

end CurlWs
