import CurlWs.Handshake.Words
import CurlWs.Library.Base64
import CurlWs.Setup.Configure

/-!
# The request

What a connection has been set up with once `cws_create` has returned it.

**What is asked for.**  A configuration determines the connection (`CwsConfig.requested`): the
options of the handle in their order, the header lines, the address with a scheme that curl knows,
and the configuration of the runs.  Only two parts may be missing from what is returned, the pool
and the key that is expected, because the code does not notice when the last block for either is
refused.  If they are there, they are the right ones.

**Names.**  The user's headers are checked against ten names, in any letters, and the library's own
have seven of these names, each a different one.  So a line that the library sends is the only one
of its name in the request.  It is the code's own comparison that is used here on both sides; how it
compares to the standard's is in `Handshake/CaseCompare`.

* **`create_request`** — an object is only returned for a valid configuration, with all its options
  and headers; and if nothing is refused, every valid configuration gives one.
* **`request_names`** — each header of the library is in the request once.
-/

namespace CurlWs

variable (env : CreateEnv) (config : CwsConfig)

/-! ## What is asked for

The demands on a configuration, and the connection that it stands for. -/

/-- What `cws_create` asks of a configuration. -/
structure CwsConfig.Valid : Prop where
  version : curlwsMinVersion ≤ env.versionNum
  url : config.url.isSome = true
  redirects : -1 ≤ config.maxRedirects
  verbose : 0 ≤ config.verbose
  expect : config.expect = 0 ∨ config.expect = 1
  headers : config.Allows
  configure : config.configure = true → env.configure = curleOk

/-- An address with the scheme that curl knows. -/
def address (url : List Byte) : List Byte :=
  if wsScheme.isPrefixOf url then httpScheme ++ url.drop wsScheme.length
  else if wssScheme.isPrefixOf url then httpsScheme ++ url.drop wssScheme.length
  else url

/-- The headers that the library adds. -/
def ownLines : List (List Byte) :=
  workaroundLines config ++ [keyPrefix ++ [0x20] ++ clientKey env] ++
    (config.websocketProtocols.map fun protocols =>
      protocolPrefix ++ [0x20] ++ protocols).toList ++ wsHeaders

/-- The options that are set, in order: those of the library, and behind them those of the user's
`configure`. -/
def requestOptions : List CurlOption :=
  (config.url.map fun url => CurlOption.url (address url)).toList ++ [.sslVersionMaxDefault] ++
    (if config.maxRedirects = 0 then []
      else [.followLocation, .maxRedirs config.maxRedirects]) ++
    [.headerFunction, .headerData, .writeFunction, .writeData, .readFunction, .readData] ++
    verboseOptions config ++ workaroundOptions ++
    [.httpHeader (ownLines env config ++ config.extraHeaders)] ++ userOptions env config

/-- The object before it is configured. -/
def CwsConfig.start : Contents where
  cfg := { (CwsObject.calloc 0).cfg with cb := config.cb }
  url := none
  verbose := 0
  protocols := none
  options := some []
  headers := []
  key := none
  mem := none

/-- The connection that is asked for, with the key that is expected and the pool. -/
def CwsConfig.requested (key : Option (List Byte)) (mem : Option (MemPool ℕ)) : Contents where
  cfg :=
    { (configMemorypool ℕ env.sizes config.start.cfg config.maxPayloadSize).1 with
      followRedirects := config.maxRedirects ≠ 0
      expectedKeyHeader := key.getD [] }
  url := config.url.map address
  verbose := min config.verbose 3
  protocols := config.websocketProtocols
  options := some (requestOptions env config)
  headers := ownLines env config ++ config.extraHeaders
  key := key
  mem := mem

/-- The object is the one that is asked for.  Only the pool and the key may be missing. -/
structure CwsConfig.Serves (v : Contents) : Prop where
  eq : v = config.requested env v.key v.mem
  answer : ∀ answer ∈ v.key, AnswersKey env.b64Encode (clientKey env) answer
  pool : ∀ m ∈ v.mem, m = (configMemorypool ℕ env.sizes config.start.cfg config.maxPayloadSize).2
  whole : env.Grants → v.key.isSome = true ∧ v.mem.isSome = true

/-! ## All functions

The thirteen functions of `cws_create`, with the results about each put together. -/

/-- The block of `cws_rewrite_url` is large enough. -/
lemma rewriteUrl_eq (url : List Byte) : rewriteUrl url = address url := by
  have hcut {pre new : List Byte} (h : pre.isPrefixOf url = true)
      (hnew : new.length = pre.length + 2) :
      snprintf (url.length + 3) (new ++ url.drop pre.length) = new ++ url.drop pre.length := by
    obtain ⟨rest, rfl⟩ := List.isPrefixOf_iff_prefix.mp h
    rw [snprintf, List.drop_left]
    refine List.take_of_length_le ?_
    rw [List.length_append, List.length_append, hnew]
    omega
  simp only [rewriteUrl, address]
  split_ifs with hws hwss
  · exact hcut hws rfl
  · exact hcut hwss rfl
  · rfl

lemma does_nothing : Does env (fun s => (curleOk, s)) True fun v v' => v' = v :=
  ⟨fun _ => ⟨trivial, rfl⟩, fun _ _ _ => rfl⟩

variable {env config}

/-- The connection that is asked for, if the pool and the key are as they should be. -/
lemma serves_requested {key : Option (List Byte)} {mem : Option (MemPool ℕ)}
    (hanswer : ∀ answer ∈ key, AnswersKey env.b64Encode (clientKey env) answer)
    (hkey : env.Grants → key.isSome = true)
    (hpool : ∀ m ∈ mem, m = (configMemorypool ℕ env.sizes config.start.cfg config.maxPayloadSize).2)
    (hmem : env.Grants → mem.isSome = true) : config.Serves env (config.requested env key mem) :=
  ⟨rfl, hanswer, hpool, fun hgrants => ⟨hkey hgrants, hmem hgrants⟩⟩

/-- What the functions ask for, and what they do to an object that is new. -/
lemma does_configurators (config : CwsConfig) (hversion : curlwsMinVersion ≤ env.versionNum)
    (hlen : (clientKey env ++ wsGuid).length < 2 ^ 32) :
    Does env (fun s => (configurators env config).foldl Creation.combine (curleOk, s))
      (config.Valid env) fun v v' => v = config.start → config.Serves env v' := by
  have hall := (does_nothing env).combine (does_configMemory env config)
    |>.combine (does_configUrl env config)
    |>.combine (does_setopt env .sslVersionMaxDefault)
    |>.combine (does_configRedirects env config)
    |>.combine (does_setopt_setopt env .headerFunction .headerData)
    |>.combine (does_setopt_setopt env .writeFunction .writeData)
    |>.combine (does_setopt_setopt env .readFunction .readData)
    |>.combine (does_configVerbosity env config)
    |>.combine (does_configWsWorkarounds env config)
    |>.combine (does_configWsKey env hlen)
    |>.combine (does_configWsProtocols env config)
    |>.combine (does_configHttpHeaders env config)
    |>.combine (does_userConfigure env config)
  refine ⟨fun hok => ?_, fun hgrants hvalid s => hall.granted hgrants ?_ s⟩
  · obtain ⟨hasked, hdone⟩ := hall.ok hok
    obtain ⟨⟨⟨⟨⟨⟨⟨⟨⟨⟨⟨⟨⟨-, -⟩, hurl⟩, -⟩, hredirects⟩, -⟩, -⟩, -⟩, hverbose⟩, hexpect⟩, -⟩, -⟩,
      hheaders⟩, hconfigure⟩ := hasked
    refine ⟨⟨hversion, hurl, hredirects, hverbose, hexpect, hheaders, hconfigure⟩, ?_⟩
    obtain ⟨_, ⟨_, ⟨v₂, ⟨_, ⟨_, ⟨_, ⟨_, ⟨_, ⟨_, ⟨_, ⟨_, ⟨v₁, ⟨_, rfl, hmemory, hpool, hmem⟩, rfl⟩,
      rfl⟩, rfl⟩, rfl⟩, rfl⟩, rfl⟩, rfl⟩, rfl⟩, hkey, hanswer, hwhole⟩, rfl⟩, rfl⟩, hlast⟩ := hdone
    intro hfresh
    refine Eq.mpr (congrArg (config.Serves env) hlast) ?_
    rw [hfresh] at hmemory hpool
    generalize v₁.mem = mem at hmemory hpool hmem
    generalize v₂.key = key at hkey hanswer hwhole
    clear hlast hok hall
    subst hmemory hkey
    refine Eq.mpr (congrArg (config.Serves env) ?_) (serves_requested hanswer hwhole hpool hmem)
    have hurls : rewriteUrl = address := funext rewriteUrl_eq
    by_cases hzero : config.maxRedirects = 0
    all_goals
      cases hasks : config.websocketProtocols
      all_goals simp [CwsConfig.requested, CwsConfig.start, CwsObject.calloc, requestOptions,
        ownLines, configMemorypool, Contents.ask, Contents.redirect, Contents.set, Contents.add,
        hasks, hzero, hurls]
  · have h := hvalid
    exact ⟨⟨⟨⟨⟨⟨⟨⟨⟨⟨⟨⟨⟨trivial, trivial⟩, h.url⟩, trivial⟩, h.redirects⟩, trivial⟩, trivial⟩,
      trivial⟩, h.verbose⟩, h.expect⟩, trivial⟩, trivial⟩, h.headers⟩, h.configure⟩

lemma checkCurlVersion_eq : checkCurlVersion env ≠ 0 ↔ env.versionNum < curlwsMinVersion := by
  rw [checkCurlVersion]
  split_ifs with hlow <;> simp [hlow]

/-- The object that `cws_create` configures. -/
def fresh (config : CwsConfig) (p : ℕ) (s : Creation) : Creation :=
  { s with priv :=
    { s.priv with
      easy := some ⟨p, []⟩, cfg := { s.priv.cfg with cb := config.cb } } }

lemma contents_fresh {s : Creation} (hs : s.priv = .calloc 0) (p : ℕ) :
    (fresh config p s).priv.contents = config.start := by
  simp only [fresh, hs, CwsObject.contents]
  rfl

/-- **What is returned is what was asked for.** -/
theorem create_serves (hlen : (clientKey env ++ wsGuid).length < 2 ^ 32) {priv : CwsObject}
    (hcreate : priv ∈ (cwsCreate env (some config)).1) :
    config.Valid env ∧ config.Serves env priv.contents := by
  have hpriv := priv_malloc env ⟨.calloc 0, [.obtained 0]⟩
  simp only [cwsCreate, checkCurlVersion_eq] at hcreate
  split_ifs at hcreate with hversion halloc
  · cases hcreate
  · rcases hr : Creation.malloc env ⟨.calloc 0, [.obtained 0]⟩ with ⟨_ | p, s⟩
    all_goals
      rw [hr] at hpriv hcreate
      dsimp only at hcreate
    · cases hcreate
    · split_ifs at hcreate with hstatus
      · cases hcreate
      · obtain rfl := Option.some.inj hcreate
        have hdoes := does_configurators config (not_lt.mp hversion) hlen
        have hdone := hdoes.ok (s := fresh config p s) (not_not.mp hstatus)
        exact ⟨hdone.1, hdone.2 (contents_fresh hpriv p)⟩
  · cases hcreate

/-- **What can be returned is returned.** -/
theorem create_granted (hlen : (clientKey env ++ wsGuid).length < 2 ^ 32) (hgrants : env.Grants)
    (hvalid : config.Valid env) : (cwsCreate env (some config)).1.isSome = true := by
  have hgranted := malloc_granted hgrants ⟨.calloc 0, [.obtained 0]⟩
  have hdoes := does_configurators config hvalid.version hlen
  simp only [cwsCreate, checkCurlVersion_eq]
  rw [if_neg (not_lt.mpr hvalid.version), if_pos (hgrants.alloc 0)]
  rcases hr : Creation.malloc env ⟨.calloc 0, [.obtained 0]⟩ with ⟨_ | p, s⟩
  · rw [hr] at hgranted
    cases hgranted
  · have hok := hdoes.granted hgrants hvalid (fresh config p s)
    dsimp only
    exact congrArg (fun r : Option CwsObject × List (Ledger.HeapEvent ℕ) =>
      r.1.isSome)
      (if_neg (not_not.mpr hok))

/-- **The request.**  An object is only returned for a valid configuration, and it is the connection
that is asked for; if nothing is refused, there is one for every valid configuration. -/
theorem create_request (hlen : (clientKey env ++ wsGuid).length < 2 ^ 32) :
    (∀ priv ∈ (cwsCreate env (some config)).1,
        config.Valid env ∧ config.Serves env priv.contents) ∧
      (env.Grants → config.Valid env → (cwsCreate env (some config)).1.isSome = true) :=
  ⟨fun _ => create_serves hlen, create_granted hlen⟩

/-- Surroundings that refuse nothing. -/
def CreateEnv.plain : CreateEnv where
  alloc _ := true
  setopt _ := curleOk
  random i := .ofNat i
  b64Encode := Base64.encode
  versionNum := curlwsMinVersion
  configure := curleOk
  configured := [.other 13]
  sizes := .lp64

lemma plain_grants : CreateEnv.plain.Grants := ⟨fun _ => rfl, fun _ => rfl⟩

lemma length_clientKey_plain : (clientKey .plain ++ wsGuid).length < 2 ^ 32 := by
  have hlen : (clientKey .plain).length = 24 := Base64.length_encode _
  rw [List.length_append, hlen]
  decide

/-- A secure address, protocols, a header and an option of the user. -/
def CwsConfig.chat : CwsConfig where
  url := some (wssScheme ++ ascii ['h'])
  maxRedirects := -1
  expect := 1
  websocketProtocols := some (ascii ['c', 'h', 'a', 't'])
  extraHeaders := [ascii ['O', 'r', 'i', 'g', 'i', 'n', ':', ' ', 'o']]
  configure := true
  cb := { onConnect := true }

lemma chat_valid : CwsConfig.chat.Valid .plain where
  version := le_rfl
  url := rfl
  redirects := le_rfl
  verbose := le_rfl
  expect := .inr rfl
  headers := by
    rw [CwsConfig.Allows]
    decide +kernel
  configure _ := rfl

/-- There is a connection for it. -/
theorem create_request_chat : (cwsCreate .plain (some .chat)).1.isSome = true :=
  (create_request length_clientKey_plain).2 plain_grants chat_valid

/-! ## Names

The headers of the library as pairs of a name and a value. -/

variable (env config) in
/-- The headers that the library adds, name and value. -/
def ownFields : List (List Byte × List Byte) :=
  (if config.expect = 1 then [(ascii ['E', 'x', 'p', 'e', 'c', 't', ':'],
      ascii [' ', '1', '0', '1'])] else []) ++
    [(transferEncodingLine, []), (keyPrefix, 0x20 :: clientKey env)] ++
    (config.websocketProtocols.map fun protocols => (protocolPrefix, 0x20 :: protocols)).toList ++
    [(connectionPrefix, ascii [' ', 'U', 'p', 'g', 'r', 'a', 'd', 'e']),
      (upgradePrefix, ascii [' ', 'w', 'e', 'b', 's', 'o', 'c', 'k', 'e', 't']),
      (ascii ['S', 'e', 'c', '-', 'W', 'e', 'b', 'S', 'o', 'c', 'k', 'e', 't', '-', 'V', 'e', 'r',
        's', 'i', 'o', 'n', ':'], ascii [' ', '1', '3'])]

/-- The lines are these names and values. -/
lemma ownLines_eq :
    ownLines env config = (ownFields env config).map fun field => field.1 ++ field.2 := by
  rw [ownLines, ownFields, workaroundLines]
  split_ifs <;> cases config.websocketProtocols <;> simp [wsHeaders, expectLine, ascii]

/-- Each of them has a name of its own, and an extra header must not have it. -/
lemma ownFields_names (env : CreateEnv) (config : CwsConfig) :
    ((ownFields env config).map Prod.fst).Nodup ∧
    ∀ field ∈ ownFields env config, field.1 ∈ disallowed := by
  rw [ownFields]
  split_ifs <;> cases config.websocketProtocols
  all_goals
    refine ⟨?_, ?_⟩
    · simp only [List.map_append, List.map_cons, List.map_nil, Option.map_none, Option.map_some,
        Option.toList_none, Option.toList_some]
      decide +kernel
    · simp [disallowed, ascii, transferEncodingLine]

/-- Two names that both have a letter where they differ, unless they are the same. -/
lemma disallowed_differ : ∀ p ∈ disallowed, ∀ name ∈ disallowed, p ≠ name →
    ∃ i ∈ List.range (min p.length name.length),
      lowerCase (stored p i) ≠ lowerCase (stored name i) := by
  decide +kernel

/-- Nothing is trimmed off a name. -/
lemma disallowed_tight : ∀ p ∈ disallowed,
    p ≠ [] ∧ p.dropWhile isSpace = p ∧ p.rdropWhile isSpace = p := by
  decide +kernel

/-- A header has its own name and no other. -/
lemma hasPrefix_field {p name : List Byte} (hp : p ∈ disallowed) (hname : name ∈ disallowed)
    (v : List Byte) : cwsHasPrefix (p ++ v) name = decide (p = name) := by
  obtain ⟨hne, hfront, hback⟩ := disallowed_tight p hp
  obtain ⟨u, htrim⟩ := cwsTrim_append hne hfront hback v
  simp only [cwsHasPrefix, htrim]
  by_cases hsame : p = name
  · subst hsame
    rw [if_neg (by rw [List.length_append]; omega), decide_eq_true rfl, decide_eq_true_eq,
      cwsStrncasecmp_eq_zero_iff]
    intro i hi
    rw [stored_append hi]
  · obtain ⟨i, hi, hdiffer⟩ := disallowed_differ p hp name hname hsame
    rw [List.mem_range, lt_min_iff] at hi
    rw [decide_eq_false hsame]
    split_ifs with hlen
    · rfl
    · rw [decide_eq_false_iff_not, cwsStrncasecmp_eq_zero_iff]
      intro hall
      have hequal := hall i hi.2
      rw [stored_append hi.1] at hequal
      exact hdiffer hequal

/-- Among all headers, the one with a name of the library's is the library's. -/
lemma filter_lines (hallows : config.Allows) {field : List Byte × List Byte}
    (hfield : field ∈ ownFields env config) :
    (ownLines env config ++ config.extraHeaders).filter (fun line => cwsHasPrefix line field.1) =
      [field.1 ++ field.2] := by
  obtain ⟨hnodup, hnames⟩ := ownFields_names env config
  have hname := hnames field hfield
  have hextra : config.extraHeaders.filter (fun line => cwsHasPrefix line field.1) = [] := by
    rw [List.filter_eq_nil_iff]
    intro line hline
    rw [hallows line hline field.1 hname]
    exact Bool.false_ne_true
  have hown : (ownFields env config).filter
      ((fun line => cwsHasPrefix line field.1) ∘ fun field => field.1 ++ field.2) =
        (ownFields env config).filter (· == field) := by
    refine List.filter_congr fun other hother => ?_
    rw [Function.comp_apply, hasPrefix_field (hnames other hother) hname, Bool.eq_iff_iff,
      decide_eq_true_eq, beq_iff_eq]
    exact ⟨fun h => List.inj_on_of_nodup_map hnodup hother hfield h, congrArg Prod.fst⟩
  rw [List.filter_append, hextra, List.append_nil, ownLines_eq, List.filter_map, hown,
    List.filter_beq, List.count_eq_one_of_mem hnodup.of_map hfield]
  rfl

/-- **Each header once.**  A header of the library is the only one with its name in the request, and
no other header has such a name, in whatever letters it is written. -/
theorem request_names (hlen : (clientKey env ++ wsGuid).length < 2 ^ 32) {priv : CwsObject}
    (hcreate : priv ∈ (cwsCreate env (some config)).1) :
    (∀ line ∈ ownLines env config, ∃ name ∈ disallowed,
        (priv.headers.map (·.value)).filter (fun line => cwsHasPrefix line name) = [line]) ∧
      ∀ name ∈ disallowed, ∀ line ∈ priv.headers.map (·.value), cwsHasPrefix line name = true →
        line ∈ ownLines env config := by
  obtain ⟨hvalid, hserves⟩ := create_serves hlen hcreate
  rw [show priv.headers.map (·.value) = ownLines env config ++ config.extraHeaders from
    congrArg Contents.headers hserves.eq]
  refine ⟨fun line hline => ?_, fun name hname line hline hprefix => ?_⟩
  · rw [ownLines_eq, List.mem_map] at hline
    obtain ⟨field, hfield, rfl⟩ := hline
    exact ⟨field.1, (ownFields_names env config).2 field hfield, filter_lines hvalid.headers hfield⟩
  · rcases List.mem_append.mp hline with hown | huser
    · exact hown
    · rw [hvalid.headers line huser name hname] at hprefix
      cases hprefix

/-- The request for a chat. -/
theorem request_names_chat : ∃ priv ∈ (cwsCreate .plain (some .chat)).1,
    ∀ name ∈ disallowed, ∀ line ∈ priv.headers.map (·.value), cwsHasPrefix line name = true →
      line ∈ ownLines .plain .chat := by
  have hsome := create_granted length_clientKey_plain plain_grants chat_valid
  obtain ⟨priv, hpriv⟩ := Option.isSome_iff_exists.mp hsome
  exact ⟨priv, hpriv, (request_names length_clientKey_plain hpriv).2⟩

end CurlWs
