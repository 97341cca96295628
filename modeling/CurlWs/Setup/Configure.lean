import CurlWs.Handshake.HashRuns
import CurlWs.Setup.Resources

/-!
# The functions that configure a connection

Each of them asks something of the configuration and changes what the object refers to (`Does`).
`_config_ws_key` and `_config_memorypool` succeed without the last block they ask for.

**What is looked at.**  The names of the blocks and the events are left out: `Contents` is what an
object says, apart from where it is in memory.  Memory is the subject of `Setup/Resources`, where on
the other hand nothing is said of what the blocks hold.

**What a function does** is stated in two halves.  If it returns success, then the configuration was
as it should be and the object has changed as the relation says, whatever was refused in between.
And if nothing is refused and the configuration is as it should be, it does return success.  The
relation is an equation for most of the functions; for the two that may leave a block out it says
so.

**Together.**  `cws_create` calls all functions and combines their codes, so that success means that
all have succeeded, and the changes are made one after another (`Does.combine`).

* `Does.combine` — one function after another.
* `does_configWsKey` — the key that is sent, and the one that is expected for it.
* `does_configHttpHeaders` — the headers of the request, as a list and as an option.
-/

namespace CurlWs

open Sha1 (bits)

/-! ## What the object refers to

The values in the blocks, and the options on the handle. -/

/-- The object without the names of its blocks. -/
structure Contents where
  cfg : Cfg
  url : Option (List Byte)
  verbose : ℤ
  protocols : Option (List Byte)
  options : Option (List CurlOption)
  headers : List (List Byte)
  key : Option (List Byte)
  mem : Option (MemPool ℕ)

/-- What is seen of an object. -/
def CwsObject.contents (priv : CwsObject) : Contents where
  cfg := priv.cfg
  url := priv.url.map (·.value)
  verbose := priv.verbose
  protocols := priv.wsProtocolsRequested.map (·.value)
  options := priv.easy.map (·.value)
  headers := priv.headers.map (·.value)
  key := priv.expectedKeyHeader.map (·.value)
  mem := priv.mem.map (·.value)

namespace Contents

/-- More options of the handle. -/
def set (v : Contents) (os : List CurlOption) : Contents :=
  { v with options := v.options.map (· ++ os) }

/-- More headers. -/
def add (v : Contents) (lines : List (List Byte)) : Contents :=
  { v with headers := v.headers ++ lines }

@[simp] lemma set_nil (v : Contents) : v.set [] = v := by
  simp only [set, List.append_nil, Option.map_id']

lemma set_set (v : Contents) (os os' : List CurlOption) :
    (v.set os).set os' = v.set (os ++ os') := by
  rw [set, set, set, Option.map_map]
  refine congrArg (fun x => { v with options := x }) (Option.map_congr fun x _ => ?_)
  exact List.append_assoc x os os'

lemma add_add (v : Contents) (ls ls' : List (List Byte)) :
    (v.add ls).add ls' = v.add (ls ++ ls') := by
  rw [add, add, add, List.append_assoc]

end Contents

/-! ## One function after another

The codes are combined with a bitwise or, which is zero only if both are. -/

/-- Nothing is refused. -/
structure CreateEnv.Grants (env : CreateEnv) : Prop where
  alloc : ∀ n, env.alloc n = true
  setopt : ∀ o, env.setopt o = curleOk

/-- A function that succeeds only if `P`, and then changes the object as `g` says; if nothing is
refused, `P` is all it takes. -/
structure Does (env : CreateEnv) (f : Creation → CURLcode × Creation) (P : Prop)
    (g : Contents → Contents → Prop) : Prop where
  ok : ∀ {s}, (f s).1 = curleOk → P ∧ g s.priv.contents (f s).2.priv.contents
  granted : env.Grants → P → ∀ s, (f s).1 = curleOk

variable {env : CreateEnv} {f f' : Creation → CURLcode × Creation}
  {P P' : Prop}

lemma or_ok {a b : CURLcode} : a ||| b = curleOk ↔ a = curleOk ∧ b = curleOk :=
  UInt32.or_eq_zero_iff

/-- The code of a failure is not that of success. -/
lemma not_ok : ~~~curleOk ≠ curleOk := by decide

/-- The codes are combined: both functions have to succeed. -/
lemma Does.combine {g g' : Contents → Contents → Prop} (h : Does env f P g)
    (h' : Does env f' P' g') :
    Does env (fun s => Creation.combine (f s) f') (P ∧ P') (Relation.Comp g g') := by
  refine ⟨fun hok => ?_, fun hgrants hP s => ?_⟩
  · obtain ⟨hfirst, hsecond⟩ := or_ok.mp hok
    exact ⟨⟨(h.ok hfirst).1, (h'.ok hsecond).1⟩, _, (h.ok hfirst).2, (h'.ok hsecond).2⟩
  · exact or_ok.mpr ⟨h.granted hgrants hP.1 s, h'.granted hgrants hP.2 _⟩

/-- Two functions that change the object in one way only. -/
lemma Does.then {G G' : Contents → Contents} (h : Does env f P fun v v' => v' = G v)
    (h' : Does env f' P' fun v v' => v' = G' v) :
    Does env (fun s => Creation.combine (f s) f') (P ∧ P') fun v v' => v' = G' (G v) := by
  refine ⟨fun hok => ?_, (h.combine h').granted⟩
  obtain ⟨hP, v', hG, hG'⟩ := (h.combine h').ok hok
  exact ⟨hP, hG'.trans (congrArg G' hG)⟩

lemma does_setopt (env : CreateEnv) (o : CurlOption) :
    Does env (fun s => s.setopt env o) True fun v v' => v' = v.set [o] := by
  refine ⟨fun {s} hok => ?_, fun hgrants _ s => ?_⟩
  · have hset : env.setopt o = curleOk := by
      rw [Creation.setopt] at hok
      split_ifs at hok with hset
      · exact hset
      · exact hok
    rw [Creation.setopt, if_pos hset]
    refine ⟨trivial, ?_⟩
    rw [CwsObject.contents, Contents.set, CwsObject.contents]
    cases s.priv.easy <;> rfl
  · rw [Creation.setopt, if_pos (hgrants.setopt o)]
    exact hgrants.setopt o

/-- Two options. -/
lemma does_setopt_setopt (env : CreateEnv) (o o' : CurlOption) :
    Does env (fun s => Creation.combine (s.setopt env o) fun s => s.setopt env o') True
      fun v v' => v' = v.set [o, o'] := by
  have hboth := (does_setopt env o).then (does_setopt env o')
  refine ⟨fun hok => ⟨trivial, ?_⟩, fun hgrants _ => hboth.granted hgrants ⟨trivial, trivial⟩⟩
  rw [(hboth.ok hok).2, Contents.set_set]
  rfl

/-! ## Memory

What is obtained holds what was asked for, and if nothing is refused, it is obtained. -/

lemma mallocString_value {s : Creation} {x : List Byte} {b : HeapBlock (List Byte)}
    (h : (s.mallocString env x).1 = some b) : b.value = x := by
  obtain ⟨p, -, hb⟩ := Option.map_eq_some_iff.mp h
  rw [← hb]

lemma malloc_granted (hgrants : env.Grants) (s : Creation) :
    (s.malloc env).1 = some s.log.length := by
  rw [Creation.malloc, if_pos (hgrants.alloc _)]

lemma mallocString_granted (hgrants : env.Grants) (s : Creation) (x : List Byte) :
    ∃ b, (s.mallocString env x).1 = some b := by
  rw [Creation.mallocString, malloc_granted hgrants]
  exact ⟨_, rfl⟩

lemma slistAppend_ok {s : Creation} {line : List Byte} (h : (s.slistAppend env line).1 = true) :
    (s.slistAppend env line).2.priv.contents = s.priv.contents.add [line] := by
  have hpriv := priv_mallocString env s line
  rcases hr : s.mallocString env line with ⟨_ | b, s₁⟩
  · simp only [Creation.slistAppend, hr, Bool.false_eq_true] at h
  · have hvalue : b.value = line := mallocString_value (congrArg Prod.fst hr)
    rw [hr] at hpriv
    simp only [Creation.slistAppend, hr]
    rw [CwsObject.contents, Contents.add, CwsObject.contents, List.map_append, List.map_singleton,
      hvalue]
    have hs : s₁.priv = s.priv := hpriv
    simp only [hs]

/-- There is memory for it, if nothing is refused. -/
lemma slistAppend_granted (hgrants : env.Grants) (s : Creation) (line : List Byte) :
    (s.slistAppend env line).1 = true := by
  obtain ⟨b, hb⟩ := mallocString_granted hgrants s line
  rw [Creation.slistAppend, hb]

/-- A header has been added, and what comes after it has succeeded. -/
lemma appendLine_ok {line : List Byte} {r : CURLcode × Creation}
    {next : CURLcode × Creation → CURLcode × Creation}
    (h : (appendLine env line r next).1 = curleOk) :
    ∃ s, s.priv.contents = r.2.priv.contents.add [line] ∧ (next (r.1, s)).1 = curleOk ∧
      (appendLine env line r next).2 = (next (r.1, s)).2 := by
  simp only [appendLine] at h ⊢
  split_ifs at h ⊢ with happend
  · exact ⟨_, slistAppend_ok happend, h, rfl⟩
  · exact absurd h not_ok

/-- Both succeed, if nothing is refused. -/
lemma appendLine_granted (hgrants : env.Grants) (line : List Byte) {r : CURLcode × Creation}
    {next : CURLcode × Creation → CURLcode × Creation}
    (h : ∀ s, (next (r.1, s)).1 = curleOk) : (appendLine env line r next).1 = curleOk := by
  rw [appendLine, if_pos (slistAppend_granted hgrants r.2 line)]
  exact h _

/-! ## The functions

In the order of the source, except that the loops over headers come first. -/

variable (env) (config : CwsConfig)

/-- The headers of a list, if each of them is allowed. -/
lemma does_appendLines (allowed : List Byte → Bool) (lines : List (List Byte)) :
    Does env (appendLines env allowed lines) (∀ line ∈ lines, allowed line = true)
      fun v v' => v' = v.add lines := by
  induction lines with
  | nil =>
      refine ⟨fun {s} _ => ⟨List.forall_mem_nil _, ?_⟩, fun _ _ _ => rfl⟩
      rw [Contents.add, List.append_nil]
      rfl
  | cons line lines ih =>
      refine ⟨fun {s} hok => ?_, fun hgrants hP s => ?_⟩
      · rw [appendLines] at hok ⊢
        split_ifs at hok ⊢ with hallowed
        · obtain ⟨s₁, hcontents, hrest, heq⟩ := appendLine_ok hok
          obtain ⟨hlines, hadd⟩ := ih.ok hrest
          refine ⟨List.forall_mem_cons.mpr ⟨hallowed, hlines⟩, ?_⟩
          rw [heq, hadd, hcontents, Contents.add_add]
          rfl
        · exact absurd hok not_ok
      · obtain ⟨hline, hlines⟩ := List.forall_mem_cons.mp hP
        rw [appendLines, if_pos hline]
        exact appendLine_granted hgrants line fun s => ih.granted hgrants hlines s

/-- The address, rewritten, is kept and set. -/
lemma does_configUrl : Does env (configUrl env config) (config.url.isSome = true) fun v v' =>
    v' = { v with url := config.url.map rewriteUrl }.set
      (config.url.map fun url => CurlOption.url (rewriteUrl url)).toList := by
  cases hconfig : config.url with
  | none =>
      refine ⟨fun {s} hok => ?_, fun _ hP => absurd hP Bool.false_ne_true⟩
      simp only [configUrl, hconfig] at hok
      exact absurd hok not_ok
  | some url =>
      refine ⟨fun {s} hok => ⟨rfl, ?_⟩, fun hgrants _ s => ?_⟩
      · have hpriv := priv_mallocString env s (rewriteUrl url)
        rcases hr : s.mallocString env (rewriteUrl url) with ⟨_ | b, s₁⟩
        · simp only [configUrl, hconfig, cwsRewriteUrl, hr] at hok
          exact absurd hok not_ok
        · have hvalue : b.value = rewriteUrl url := mallocString_value (congrArg Prod.fst hr)
          rw [hr] at hpriv
          simp only [configUrl, hconfig, cwsRewriteUrl, hr] at hok ⊢
          have hs : s₁.priv = s.priv := hpriv
          rw [((does_setopt env (.url b.value)).ok hok).2, hvalue]
          simp only [CwsObject.contents, hs, Option.map_some, hvalue, Option.toList_some]
      · obtain ⟨b, hb⟩ := mallocString_granted hgrants s (rewriteUrl url)
        simp only [configUrl, hconfig, cwsRewriteUrl, hb]
        exact (does_setopt env _).granted hgrants trivial _

/-- What `_config_redirects` sets. -/
def Contents.redirect (config : CwsConfig) (v : Contents) : Contents :=
  if config.maxRedirects = 0 then v
  else
    { v with cfg := { v.cfg with followRedirects := true } }.set
      [.followLocation, .maxRedirs config.maxRedirects]

lemma does_configRedirects :
    Does env (configRedirects env config) (-1 ≤ config.maxRedirects)
      fun v v' => v' = v.redirect config := by
  by_cases hlow : config.maxRedirects < -1
  · refine ⟨fun {s} hok => ?_, fun _ hP => absurd hlow (not_lt.mpr hP)⟩
    rw [configRedirects, if_pos hlow] at hok
    exact absurd hok not_ok
  have hP := not_lt.mp hlow
  by_cases hzero : config.maxRedirects = 0
  · have hnot := not_not.mpr hzero
    refine ⟨fun {s} _ => ⟨hP, ?_⟩, fun _ _ s => ?_⟩
    · rw [configRedirects, if_neg hlow, if_neg hnot, Contents.redirect, if_pos hzero]
    · rw [configRedirects, if_neg hlow, if_neg hnot]
  · have hboth := does_setopt_setopt env .followLocation (.maxRedirs config.maxRedirects)
    refine ⟨fun {s} hok => ⟨hP, ?_⟩, fun hgrants _ s => ?_⟩
    · rw [configRedirects, if_neg hlow, if_pos hzero] at hok ⊢
      rw [Contents.redirect, if_neg hzero]
      exact congrArg (fun v : Contents => { v with cfg := { v.cfg with followRedirects := true } })
        (hboth.ok hok).2
    · rw [configRedirects, if_neg hlow, if_pos hzero]
      exact hboth.granted hgrants trivial s

/-- The options of `_config_verbosity`. -/
def verboseOptions (config : CwsConfig) : List CurlOption :=
  if 1 < config.verbose then .verbose :: (config.verboseStream.map CurlOption.stderr).toList else []

lemma does_configVerbosity : Does env (configVerbosity env config) (0 ≤ config.verbose)
    fun v v' => v' = { v with verbose := min config.verbose 3 }.set (verboseOptions config) := by
  by_cases hneg : config.verbose < 0
  · refine ⟨fun {s} hok => ?_, fun _ hP => absurd hneg (not_lt.mpr hP)⟩
    rw [configVerbosity, if_pos hneg] at hok
    exact absurd hok not_ok
  have hP := not_lt.mp hneg
  by_cases hloud : 1 < config.verbose
  · cases hstream : config.verboseStream with
    | none =>
        have hset := does_setopt env .verbose
        refine ⟨fun {s} hok => ⟨hP, ?_⟩, fun hgrants _ s => ?_⟩
        · simp only [configVerbosity, if_neg hneg, if_pos hloud, hstream] at hok ⊢
          simp only [verboseOptions, if_pos hloud, hstream]
          exact congrArg (fun v : Contents => { v with verbose := min config.verbose 3 })
            (hset.ok hok).2
        · simp only [configVerbosity, if_neg hneg, if_pos hloud, hstream]
          exact hset.granted hgrants trivial s
    | some stream =>
        have hset := does_setopt_setopt env .verbose (.stderr stream)
        refine ⟨fun {s} hok => ⟨hP, ?_⟩, fun hgrants _ s => ?_⟩
        · simp only [configVerbosity, if_neg hneg, if_pos hloud, hstream] at hok ⊢
          simp only [verboseOptions, if_pos hloud, hstream]
          exact congrArg (fun v : Contents => { v with verbose := min config.verbose 3 })
            (hset.ok hok).2
        · simp only [configVerbosity, if_neg hneg, if_pos hloud, hstream]
          exact hset.granted hgrants trivial s
  · refine ⟨fun {s} _ => ⟨hP, ?_⟩, fun _ _ s => ?_⟩
    · simp only [configVerbosity, if_neg hneg, if_neg hloud, verboseOptions, Contents.set_nil]
      rfl
    · simp only [configVerbosity, if_neg hneg, if_neg hloud]

/-- The headers of `_config_ws_workarounds`. -/
def workaroundLines (config : CwsConfig) : List (List Byte) :=
  (if config.expect = 1 then [expectLine] else []) ++ [transferEncodingLine]

/-- The options of `_config_ws_workarounds`. -/
def workaroundOptions : List CurlOption :=
  [.httpVersion11, .upload, .customRequest (ascii ['G', 'E', 'T']), .forbidReuse, .freshConnect]

/-- The five options of the workarounds. -/
lemma does_workaroundOptions : Does env (fun s =>
    Creation.combine (Creation.combine (Creation.combine (Creation.combine
      (s.setopt env .httpVersion11) fun s => s.setopt env .upload)
      fun s => s.setopt env (.customRequest (ascii ['G', 'E', 'T'])))
      fun s => s.setopt env .forbidReuse) fun s => s.setopt env .freshConnect) True
    fun v v' => v' = v.set workaroundOptions := by
  have hall := ((((does_setopt env .httpVersion11).then (does_setopt env .upload)).then
    (does_setopt env (.customRequest (ascii ['G', 'E', 'T'])))).then
    (does_setopt env .forbidReuse)).then (does_setopt env .freshConnect)
  refine ⟨fun hok => ⟨trivial, ?_⟩, fun hgrants _ => hall.granted hgrants (by tauto)⟩
  rw [(hall.ok hok).2, Contents.set_set, Contents.set_set, Contents.set_set, Contents.set_set]
  rfl

/-- The workarounds, with their headers. -/
lemma does_configWsWorkarounds : Does env (configWsWorkarounds env config)
    (config.expect = 0 ∨ config.expect = 1)
    fun v v' => v' = (v.set workaroundOptions).add (workaroundLines config) := by
  have hset := does_workaroundOptions env
  by_cases hone : config.expect = 1
  · refine ⟨fun {s} hok => ⟨.inr hone, ?_⟩, fun hgrants _ s => ?_⟩
    · simp only [configWsWorkarounds, if_pos hone] at hok ⊢
      obtain ⟨s₁, hcontents₁, hok₁, heq₁⟩ := appendLine_ok hok
      obtain ⟨s₂, hcontents₂, hok₂, heq₂⟩ := appendLine_ok hok₁
      have hcontents := (hset.ok hok₂).2
      rw [heq₁, heq₂, workaroundLines, if_pos hone]
      exact hcontents₂.trans (by rw [hcontents₁, hcontents, Contents.add_add])
    · simp only [configWsWorkarounds, if_pos hone]
      refine appendLine_granted hgrants _ fun s₁ => appendLine_granted hgrants _ fun s₂ => ?_
      exact hset.granted hgrants trivial s
  · by_cases hzero : config.expect = 0
    · have hnot := not_not.mpr hzero
      refine ⟨fun {s} hok => ⟨.inl hzero, ?_⟩, fun hgrants _ s => ?_⟩
      · simp only [configWsWorkarounds, if_neg hone, if_neg hnot] at hok ⊢
        obtain ⟨s₁, hcontents₁, hok₁, heq₁⟩ := appendLine_ok hok
        have hcontents := (hset.ok hok₁).2
        rw [heq₁, workaroundLines, if_neg hone]
        exact hcontents₁.trans (by rw [hcontents]; rfl)
      · simp only [configWsWorkarounds, if_neg hone, if_neg hnot]
        exact appendLine_granted hgrants _ fun s₁ => hset.granted hgrants trivial s
    · refine ⟨fun {s} hok => ?_, fun _ hP => absurd hP (not_or.mpr ⟨hzero, hone⟩)⟩
      simp only [configWsWorkarounds, if_neg hone, if_pos hzero] at hok
      exact absurd hok not_ok

lemma does_configMemory : Does env (configMemory env config) True fun v v' =>
    let r := configMemorypool ℕ env.sizes v.cfg config.maxPayloadSize
    v' = { v with cfg := r.1, mem := v'.mem } ∧ (∀ m ∈ v'.mem, m = r.2) ∧
      (env.Grants → v'.mem.isSome = true) := by
  refine ⟨fun {s} _ => ⟨trivial, ?_⟩, fun _ _ _ => rfl⟩
  have hpriv := priv_malloc env s
  have hgranted (hgrants : env.Grants) := malloc_granted hgrants s
  rcases hr : s.malloc env with ⟨_ | p, s₁⟩
  all_goals
    rw [hr] at hpriv hgranted
    have hs : s₁.priv = s.priv := hpriv
    simp only [configMemory, hr, CwsObject.contents, hs, Option.map_none, Option.map_some]
  · refine ⟨trivial, fun m hm => ?_, fun hgrants => ?_⟩
    · cases hm
    · cases hgranted hgrants
  · exact ⟨trivial, fun m hm => (Option.some.inj hm).symm, fun _ => rfl⟩

/-- The key of the request. -/
def clientKey (env : CreateEnv) : List Byte := env.b64Encode ((List.range 16).map env.random)

/-- What a server makes of a key. -/
def AnswersKey (b64Encode : List Byte → List Byte) (key answer : List Byte) : Prop :=
  ∃ md, bits md = Sha1.digest (bits (key ++ wsGuid)) ∧ answer = b64Encode md

/-- The key becomes known once the two strings are there. -/
lemma does_configKeyHeaders (send combined : HeapBlock (List Byte))
    (hlen : combined.value.length < 2 ^ 32) :
    Does env (configKeyHeaders env (some send) (some combined)) True fun v v' =>
      v' = { v.add [send.value] with
        cfg := { v.cfg with expectedKeyHeader := v'.key.getD [] }, key := v'.key } ∧
      (∀ answer ∈ v'.key, ∃ md, bits md = Sha1.digest (bits combined.value) ∧
        answer = env.b64Encode md) ∧ (env.Grants → v'.key.isSome = true) := by
  obtain ⟨md, hsha1, hmd⟩ := cwsSha1_eq combined.value combined.value.length
  rw [Nat.mod_eq_of_lt hlen, List.take_length] at hmd
  have hcode : ~~~curleOk ≠ curleOk := not_ok
  refine ⟨fun {s} hok => ⟨trivial, ?_⟩, fun hgrants _ s => ?_⟩
  · simp only [configKeyHeaders, hsha1] at hok ⊢
    split_ifs at hok ⊢ with happend
    · have hcontents := slistAppend_ok happend
      have hpriv := priv_mallocString env (s.slistAppend env send.value).2
        (env.b64Encode md)
      have hvalue {b : HeapBlock (List Byte)} := @mallocString_value env
        (s.slistAppend env send.value).2 (env.b64Encode md) b
      simp only [b64EncodeWithAlloc]
      refine ⟨?_, fun answer hanswer => ⟨md, hmd, ?_⟩, fun hgrants => ?_⟩
      · have hset (key : Option (List Byte)) := congrArg (fun v : Contents =>
          { v with cfg := { v.cfg with expectedKeyHeader := key.getD [] }, key := key }) hcontents
        refine Eq.trans ?_ (hset _)
        simp only [CwsObject.contents, hpriv]
      · obtain ⟨b, hb, rfl⟩ := Option.map_eq_some_iff.mp hanswer
        exact hvalue hb
      · obtain ⟨b, hb⟩ := mallocString_granted hgrants (s.slistAppend env send.value).2
          (env.b64Encode md)
        simp only [CwsObject.contents, hb, Option.map_some, Option.isSome_some]
    · exact absurd hok hcode
  · simp only [configKeyHeaders, hsha1, slistAppend_granted hgrants, if_true]

/-- **The key.** It is sent, and what is expected for it may be missing. -/
lemma does_configWsKey (hlen : (clientKey env ++ wsGuid).length < 2 ^ 32) :
    Does env (configWsKey env) True fun v v' =>
      v' = { v.add [keyPrefix ++ [0x20] ++ clientKey env] with
        cfg := { v.cfg with expectedKeyHeader := v'.key.getD [] }, key := v'.key } ∧
      (∀ answer ∈ v'.key, AnswersKey env.b64Encode (clientKey env) answer) ∧
        (env.Grants → v'.key.isSome = true) := by
  have hdef : env.b64Encode ((List.range 16).map env.random) = clientKey env := rfl
  refine ⟨fun {s} hok => ⟨trivial, ?_⟩, fun hgrants _ s => ?_⟩
  · have hpriv := priv_mallocString env s (clientKey env)
    rcases hr : s.mallocString env (clientKey env) with ⟨_ | key, s₁⟩
    · simp only [configWsKey, b64EncodeWithAlloc, hdef, hr] at hok
      exact absurd hok not_ok
    have hkey : key.value = clientKey env := mallocString_value (congrArg Prod.fst hr)
    rw [hr] at hpriv
    have hs₁ : s₁.priv = s.priv := hpriv
    have hpriv₂ := priv_mallocString env s₁ (keyPrefix ++ [0x20] ++ key.value)
    rcases hr₂ : s₁.mallocString env (keyPrefix ++ [0x20] ++ key.value) with ⟨_ | send, s₂⟩
    · simp only [configWsKey, b64EncodeWithAlloc, hdef, hr, cwsStrmerge, hr₂,
        configKeyHeaders] at hok
      exact absurd hok not_ok
    have hsend := mallocString_value (congrArg Prod.fst hr₂)
    rw [hr₂] at hpriv₂
    have hs₂ : s₂.priv = s₁.priv := hpriv₂
    have hpriv₃ := priv_mallocString env s₂ (key.value ++ wsGuid)
    rcases hr₃ : s₂.mallocString env (key.value ++ wsGuid) with ⟨_ | combined, s₃⟩
    · simp only [configWsKey, b64EncodeWithAlloc, hdef, hr, cwsStrmerge, hr₂, hr₃,
        configKeyHeaders] at hok
      exact absurd hok not_ok
    have hcombined := mallocString_value (congrArg Prod.fst hr₃)
    rw [hr₃] at hpriv₃
    have hs₃ : s₃.priv = s₂.priv := hpriv₃
    rw [hkey] at hsend hcombined
    have hdoes := does_configKeyHeaders env send combined (hcombined ▸ hlen)
    simp only [configWsKey, b64EncodeWithAlloc, hdef, hr, cwsStrmerge, hr₂, hr₃,
      priv_free] at hok ⊢
    have hcontents := (hdoes.ok hok).2
    rw [hs₃, hs₂, hs₁, hsend, hcombined] at hcontents
    exact hcontents
  · obtain ⟨key, hkey⟩ := mallocString_granted hgrants s (clientKey env)
    have hvalue := mallocString_value hkey
    obtain ⟨send, hsend⟩ := mallocString_granted hgrants (s.mallocString env (clientKey env)).2
      (keyPrefix ++ [0x20] ++ key.value)
    obtain ⟨combined, hcombined⟩ := mallocString_granted hgrants
      (Creation.mallocString env (s.mallocString env (clientKey env)).2
        (keyPrefix ++ [0x20] ++ key.value)).2 (key.value ++ wsGuid)
    have hlen' : combined.value.length < 2 ^ 32 := by
      rw [mallocString_value hcombined, hvalue]
      exact hlen
    simp only [configWsKey, b64EncodeWithAlloc, hdef, hkey, cwsStrmerge, hsend, hcombined]
    exact (does_configKeyHeaders env send combined hlen').granted hgrants trivial _

/-- What `_config_ws_protocols` sets. -/
def Contents.ask (config : CwsConfig) (v : Contents) : Contents :=
  match config.websocketProtocols with
  | none => v
  | some protocols =>
      { v.add [protocolPrefix ++ [0x20] ++ protocols] with protocols := some protocols }

/-- The protocols, if any are asked for. -/
lemma does_configWsProtocols : Does env (configWsProtocols env config) True
    fun v v' => v' = v.ask config := by
  cases hconfig : config.websocketProtocols with
  | none =>
      refine ⟨fun {s} _ => ⟨trivial, ?_⟩, fun _ _ s => ?_⟩
      · simp only [configWsProtocols, Contents.ask, hconfig]
      · simp only [configWsProtocols, hconfig]
  | some protocols =>
      refine ⟨fun {s} hok => ⟨trivial, ?_⟩, fun hgrants _ s => ?_⟩
      · have hpriv := priv_mallocString env s (protocolPrefix ++ [0x20] ++ protocols)
        rcases hr : s.mallocString env (protocolPrefix ++ [0x20] ++ protocols) with ⟨_ | b, s₁⟩
        · simp only [configWsProtocols, hconfig, cwsStrmerge, hr] at hok
          exact absurd hok not_ok
        · have hvalue := mallocString_value (congrArg Prod.fst hr)
          rw [hr] at hpriv
          have hs : s₁.priv = s.priv := hpriv
          simp only [configWsProtocols, hconfig, cwsStrmerge, hr, cwsStrdup] at hok ⊢
          by_cases happend : (s₁.slistAppend env b.value).1 = true
          · have hcontents := slistAppend_ok happend
            rw [if_pos happend] at hok ⊢
            have hfree := priv_free (s₁.slistAppend env b.value).2 (some b)
            have hpriv' := priv_mallocString env
              ((s₁.slistAppend env b.value).2.free (some b)) protocols
            rcases hr' : Creation.mallocString env ((s₁.slistAppend env b.value).2.free (some b))
              protocols with ⟨_ | b', s₂⟩
            · simp only [hr', Option.isSome_none, Bool.false_eq_true, if_false] at hok
              exact absurd hok not_ok
            · have hvalue' := mallocString_value (congrArg Prod.fst hr')
              rw [hr', hfree] at hpriv'
              have hs' : s₂.priv = (s₁.slistAppend env b.value).2.priv := hpriv'
              simp only [Contents.ask, hconfig]
              rw [hvalue, hs] at hcontents
              rw [← hcontents, CwsObject.contents, hs', CwsObject.contents, hvalue]
              simp only [Option.map_some, hvalue']
          · rw [if_neg happend] at hok
            exact absurd hok not_ok
      · obtain ⟨b, hb⟩ := mallocString_granted hgrants s (protocolPrefix ++ [0x20] ++ protocols)
        simp only [configWsProtocols, hconfig, cwsStrmerge, hb, slistAppend_granted hgrants,
          if_true, cwsStrdup]
        refine if_pos ?_
        obtain ⟨b', hb'⟩ := mallocString_granted hgrants
          (((s.mallocString env (protocolPrefix ++ [0x20] ++ protocols)).2.slistAppend env
            b.value).2.free (some b)) protocols
        rw [hb']
        rfl

/-- An extra header must not have one of the names. -/
def CwsConfig.Allows (config : CwsConfig) : Prop :=
  ∀ line ∈ config.extraHeaders, ∀ name ∈ disallowed, cwsHasPrefix line name = false

/-- **The headers.** Those of the library come before those of the user, and all of them are set. -/
lemma does_configHttpHeaders : Does env (configHttpHeaders env config) config.Allows
    fun v v' => v' = (v.add (wsHeaders ++ config.extraHeaders)).set
      [.httpHeader (v.headers ++ (wsHeaders ++ config.extraHeaders))] := by
  have hallowed (line : List Byte) : (!disallowed.any (cwsHasPrefix line)) = true ↔
      ∀ name ∈ disallowed, cwsHasPrefix line name = false := by
    rw [Bool.not_eq_true', List.any_eq_false]
    exact forall₂_congr fun name _ => iff_of_eq (Bool.not_eq_true _)
  have hfirst := does_appendLines env (fun _ => true) wsHeaders
  have hextra := does_appendLines env
    (fun line => !disallowed.any (cwsHasPrefix line)) config.extraHeaders
  refine ⟨fun {s} hok => ?_, fun hgrants hP s => ?_⟩
  · simp only [configHttpHeaders] at hok ⊢
    split_ifs at hok ⊢ with hok₁ hok₂
    · have hset := does_setopt env (.httpHeader
        ((appendLines env (fun line => !disallowed.any (cwsHasPrefix line)) config.extraHeaders
          (appendLines env (fun _ => true) wsHeaders s).2).2.priv.headers.map (·.value)))
      obtain ⟨hlines, hcontents₂⟩ := hextra.ok hok₂
      have hcontents₁ := (hfirst.ok hok₁).2
      rw [hcontents₁, Contents.add_add] at hcontents₂
      refine ⟨fun line hline => (hallowed line).mp (hlines line hline), ?_⟩
      have hheaders := congrArg Contents.headers hcontents₂
      rw [(hset.ok hok).2, hcontents₂]
      exact congrArg (fun lines => Contents.set _ [CurlOption.httpHeader lines]) hheaders
    · exact absurd hok hok₂
    · exact absurd hok hok₁
  · have hok₁ := hfirst.granted hgrants (fun _ _ => rfl) s
    have hok₂ := hextra.granted hgrants (fun line hline => (hallowed line).mpr (hP line hline))
      (appendLines env (fun _ => true) wsHeaders s).2
    simp only [configHttpHeaders, if_pos hok₁, if_pos hok₂]
    exact (does_setopt env _).granted hgrants trivial _

/-- The options of the user's `configure`, if there is one. -/
def userOptions : List CurlOption := if config.configure then env.configured else []

/-- The function of the user comes last. -/
lemma does_userConfigure : Does env (userConfigure env config)
    (config.configure = true → env.configure = curleOk)
    fun v v' => v' = v.set (userOptions env config) := by
  by_cases hconfigure : config.configure = true
  · refine ⟨fun {s} hok => ⟨fun _ => ?_, ?_⟩, fun _ hP s => ?_⟩
    · rw [userConfigure, if_pos hconfigure] at hok
      exact hok
    · rw [userConfigure, if_pos hconfigure, userOptions, if_pos hconfigure, Creation.setAll,
        CwsObject.contents, Contents.set, CwsObject.contents]
      cases s.priv.easy <;> rfl
    · rw [userConfigure, if_pos hconfigure]
      exact hP hconfigure
  · refine ⟨fun {s} _ => ⟨fun h => absurd h hconfigure, ?_⟩, fun _ _ s => ?_⟩
    · rw [userConfigure, if_neg hconfigure, userOptions, if_neg hconfigure, Contents.set_nil]
    · rw [userConfigure, if_neg hconfigure]

end CurlWs
