import CurlWs.Library.Ledger
import CurlWs.Model.Config
import CurlWs.Model.Header
import CurlWs.Model.Sha1

/-!
# Creating a connection

`cws_create` and `cws_destroy` of `curlws.c` with the functions that configure a connection, and
what they use of `utils.c` and `random.c`.  A string is the bytes in front of its NUL.

**Memory.**  What `malloc`, `calloc` and the functions of curl and of trower-base64 that allocate
return is up to `CreateEnv`, by the number of events so far; a block is named by that number.  What
was obtained and freed is recorded, in the order of the calls, and a message that is only printed is
left out.  `free` is called for a pointer that may be NULL, in which case nothing is recorded.

**Codes.**  The functions return a `CURLcode`, and `cws_create` combines them with a bitwise or: all
of them are called, even after one has failed, and the object is only returned if all have
succeeded.  A failure inside a function is `~CURLE_OK`.

**Curl.**  Of a handle nothing is kept but the options that were set on it, in their order.  An
option that curl refuses is not set.  The function `configure` of the user comes last; it is a
return code and the options it sets, and whatever else it does with the handle is not in the model.

**Headers.**  The list that goes to `CURLOPT_HTTPHEADER` is built up in five places: the
workarounds, the key, the protocols, the fixed headers and those of the user, who must not use one
of ten names. -/

namespace CurlWs

open Ledger

/-! ## Surroundings

What comes from outside: memory, random bytes, the version of curl, and the functions of curl and of
trower-base64.  The text of `b64_encode_with_alloc` is a parameter, since the library is not part of
the source. -/

/-- `CURLcode`. -/
abbrev CURLcode := UInt32

/-- `CURLE_OK`. -/
def curleOk : CURLcode := 0

/-- An option that `curl_easy_setopt` sets on a handle, with its value. -/
inductive CurlOption where
  | url (url : List Byte)
  /-- `CURL_SSLVERSION_MAX_DEFAULT` -/
  | sslVersionMaxDefault
  | followLocation
  | maxRedirs (max : ℤ)
  | headerFunction
  | headerData
  | writeFunction
  | writeData
  | readFunction
  | readData
  | verbose
  | stderr (stream : ℕ)
  /-- `CURL_HTTP_VERSION_1_1` -/
  | httpVersion11
  | upload
  | customRequest (method : List Byte)
  | forbidReuse
  | freshConnect
  | httpHeader (lines : List (List Byte))
  /-- An option that the library does not set, by its number. -/
  | other (option : ℕ)
  deriving DecidableEq, Repr

/-- What the library is given by others while it creates a connection. -/
structure CreateEnv where
  /-- Whether a request for memory or a handle is granted. -/
  alloc : ℕ → Bool
  /-- What `curl_easy_setopt` returns. -/
  setopt : CurlOption → CURLcode
  /-- The bytes `cws_random` produces. -/
  random : ℕ → Byte
  /-- The text of `b64_encode_with_alloc`. -/
  b64Encode : List Byte → List Byte
  /-- `version_num` of `curl_version_info`. -/
  versionNum : ℕ
  /-- What the user's `configure` returns. -/
  configure : CURLcode
  /-- The options that it sets on the handle, those of the library included if it sets them again.
  What else it does is left out: it is given a handle that is not in use yet. -/
  configured : List CurlOption
  /-- `sizeof` of the structures in a block. -/
  sizes : StructSizes

/-- `struct cws_config`. -/
structure CwsConfig where
  url : Option (List Byte) := none
  extraHeaders : List (List Byte) := []
  maxRedirects : ℤ := 0
  verbose : ℤ := 0
  verboseStream : Option ℕ := none
  websocketProtocols : Option (List Byte) := none
  expect : ℤ := 0
  maxPayloadSize : ℕ := 0
  /-- Whether there is a function `configure`. -/
  configure : Bool := false
  /-- The other functions. -/
  cb : Callbacks := {}
  deriving DecidableEq, Repr

/-! ## The object

While it is created, an object is a record of the blocks it refers to.  What a run of the connection
depends on, `Cfg`, is one of its fields. -/

/-- A block of memory or a handle, with what it holds. -/
structure HeapBlock (σ : Type*) where
  name : ℕ
  value : σ
  deriving DecidableEq, Repr

/-- `struct cws_object` as it is while it is created, with what it refers to.  `cfg` holds what runs
of the connection depend on, and the key that is expected. -/
structure CwsObject where
  /-- The block of the object itself. -/
  name : ℕ
  cfg : Cfg := {}
  url : Option (HeapBlock (List Byte)) := none
  verbose : ℤ := 0
  wsProtocolsRequested : Option (HeapBlock (List Byte)) := none
  /-- The handle, with the options that are set. -/
  easy : Option (HeapBlock (List CurlOption)) := none
  headers : List (HeapBlock (List Byte)) := []
  expectedKeyHeader : Option (HeapBlock (List Byte)) := none
  mem : Option (HeapBlock (MemPool ℕ)) := none
  wsProtocolsReceived : Option (HeapBlock (List Byte)) := none
  streamBuffer : Option (HeapBlock (List Byte)) := none

/-- What `calloc` returns. -/
def CwsObject.calloc (name : ℕ) : CwsObject := { name := name }

/-- The object and what has happened so far. -/
structure Creation where
  priv : CwsObject
  log : List (HeapEvent ℕ)

namespace Creation

/-- A request for a block. -/
def malloc (env : CreateEnv) (s : Creation) : Option ℕ × Creation :=
  let n := s.log.length
  if env.alloc n then (some n, { s with log := s.log ++ [.obtained n] })
  else (none, { s with log := s.log ++ [.refused] })

/-- A block for a string. -/
def mallocString (env : CreateEnv) (s : Creation) (x : List Byte) :
    Option (HeapBlock (List Byte)) × Creation :=
  let r := s.malloc env
  (r.1.map fun p => ⟨p, x⟩, r.2)

/-- `free`, of a pointer that may be NULL. -/
def free {σ : Type*} (s : Creation) (b : Option (HeapBlock σ)) : Creation :=
  match b with
  | none => s
  | some b => { s with log := s.log ++ [.freed b.name] }

/-- `curl_easy_setopt`, of the handle. -/
def setopt (env : CreateEnv) (s : Creation) (o : CurlOption) : CURLcode × Creation :=
  let rv := env.setopt o
  if rv = curleOk then
    (rv, { s with priv := { s.priv with
      easy := s.priv.easy.map fun easy => { easy with value := easy.value ++ [o] } } })
  else (rv, s)

/-- Options that someone else sets on the handle. -/
def setAll (s : Creation) (os : List CurlOption) : Creation :=
  { s with priv := { s.priv with
    easy := s.priv.easy.map fun easy => { easy with value := easy.value ++ os } } }

/-- `curl_slist_append` to the headers, and whether there was memory. -/
def slistAppend (env : CreateEnv) (s : Creation) (line : List Byte) : Bool × Creation :=
  let r := s.mallocString env line
  match r.1 with
  | none => (false, r.2)
  | some b => (true, { r.2 with priv := { r.2.priv with headers := r.2.priv.headers ++ [b] } })

/-- One call after another, with the codes that they return combined. -/
def combine (r : CURLcode × Creation) (f : Creation → CURLcode × Creation) : CURLcode × Creation :=
  let r' := f r.2
  (r.1 ||| r'.1, r'.2)

end Creation

/-! ## `utils.c`

The functions that make strings.  `cws_rewrite_url` asks for three bytes more than the address has,
for the longer scheme and the NUL. -/

/-- `snprintf`, of a text that is `size` bytes with its NUL, or cut off. -/
def snprintf (size : ℕ) (text : List Byte) : List Byte := text.take (size - 1)

/-- "ws://" -/
def wsScheme : List Byte := ascii ['w', 's', ':', '/', '/']

/-- "wss://" -/
def wssScheme : List Byte := ascii ['w', 's', 's', ':', '/', '/']

/-- "http://" -/
def httpScheme : List Byte := ascii ['h', 't', 't', 'p', ':', '/', '/']

/-- "https://" -/
def httpsScheme : List Byte := ascii ['h', 't', 't', 'p', 's', ':', '/', '/']

/-- What `cws_rewrite_url` writes to the block. -/
def rewriteUrl (url : List Byte) : List Byte :=
  let size := url.length + 3
  if wsScheme.isPrefixOf url then snprintf size (httpScheme ++ url.drop wsScheme.length)
  else if wssScheme.isPrefixOf url then snprintf size (httpsScheme ++ url.drop wssScheme.length)
  else url

/-- `cws_rewrite_url`. -/
def cwsRewriteUrl (env : CreateEnv) (s : Creation) (url : List Byte) :
    Option (HeapBlock (List Byte)) × Creation := s.mallocString env (rewriteUrl url)

/-- `cws_strdup`. -/
def cwsStrdup (env : CreateEnv) (s : Creation) (x : List Byte) :
    Option (HeapBlock (List Byte)) × Creation := s.mallocString env x

/-- `cws_strmerge`. -/
def cwsStrmerge (env : CreateEnv) (s : Creation) (s1 s2 : List Byte) :
    Option (HeapBlock (List Byte)) × Creation := s.mallocString env (s1 ++ s2)

/-! ## The configuration

The functions in the order of the source.  Each is given the environment, the configuration, and the
object with the events so far, and returns a code together with what has become of them. -/

/-- `_config_url`. -/
def configUrl (env : CreateEnv) (config : CwsConfig) (s : Creation) : CURLcode × Creation :=
  match config.url with
  | none => (~~~curleOk, s)
  | some url =>
      let r := cwsRewriteUrl env s url
      let s := { r.2 with priv := { r.2.priv with url := r.1 } }
      match r.1 with
      | none => (~~~curleOk, s)
      | some b => s.setopt env (.url b.value)

/-- `_config_redirects`. -/
def configRedirects (env : CreateEnv) (config : CwsConfig) (s : Creation) : CURLcode × Creation :=
  if config.maxRedirects < -1 then (~~~curleOk, s)
  else if config.maxRedirects ≠ 0 then
    let r := Creation.combine (s.setopt env .followLocation)
      fun s => s.setopt env (.maxRedirs config.maxRedirects)
    let priv := r.2.priv
    (r.1, { r.2 with priv := { priv with cfg := { priv.cfg with followRedirects := true } } })
  else (curleOk, s)

/-- `_config_security`. -/
def configSecurity (env : CreateEnv) (s : Creation) : CURLcode × Creation :=
  s.setopt env .sslVersionMaxDefault

/-- `header_init`. -/
def headerInit (env : CreateEnv) (s : Creation) : CURLcode × Creation :=
  Creation.combine (s.setopt env .headerFunction) fun s => s.setopt env .headerData

/-- `receive_init`. -/
def receiveInit (env : CreateEnv) (s : Creation) : CURLcode × Creation :=
  Creation.combine (s.setopt env .writeFunction) fun s => s.setopt env .writeData

/-- `send_init`. -/
def sendInit (env : CreateEnv) (s : Creation) : CURLcode × Creation :=
  Creation.combine (s.setopt env .readFunction) fun s => s.setopt env .readData

/-- `_config_verbosity`. -/
def configVerbosity (env : CreateEnv) (config : CwsConfig) (s : Creation) : CURLcode × Creation :=
  if config.verbose < 0 then (~~~curleOk, s)
  else
    let r :=
      if 1 < config.verbose then
        let r := s.setopt env .verbose
        match config.verboseStream with
        | none => r
        | some stream => Creation.combine r fun s => s.setopt env (.stderr stream)
      else (curleOk, s)
    (r.1, { r.2 with priv := { r.2.priv with verbose := min config.verbose 3 } })

/-- "Expect: 101" -/
def expectLine : List Byte := ascii ['E', 'x', 'p', 'e', 'c', 't', ':', ' ', '1', '0', '1']

/-- "Transfer-Encoding:" -/
def transferEncodingLine : List Byte :=
  ascii ['T', 'r', 'a', 'n', 's', 'f', 'e', 'r', '-', 'E', 'n', 'c', 'o', 'd', 'i', 'n', 'g', ':']

/-- A line more.  Without memory the function returns at once, whatever its code was so far. -/
def appendLine (env : CreateEnv) (line : List Byte) (r : CURLcode × Creation)
    (next : CURLcode × Creation → CURLcode × Creation) : CURLcode × Creation :=
  let appended := r.2.slistAppend env line
  if appended.1 then next (r.1, appended.2) else (~~~curleOk, appended.2)

/-- `_config_ws_workarounds`. -/
def configWsWorkarounds (env : CreateEnv) (config : CwsConfig) (s : Creation) :
    CURLcode × Creation :=
  let r := s.setopt env .httpVersion11
  let r := Creation.combine r fun s => s.setopt env .upload
  let r := Creation.combine r fun s => s.setopt env (.customRequest (ascii ['G', 'E', 'T']))
  let r := Creation.combine r fun s => s.setopt env .forbidReuse
  let r := Creation.combine r fun s => s.setopt env .freshConnect
  if config.expect = 1 then
    appendLine env expectLine r fun r => appendLine env transferEncodingLine r id
  else if config.expect ≠ 0 then (~~~curleOk, r.2)
  else appendLine env transferEncodingLine r id

/-- `_config_memorypool`. -/
def configMemory (env : CreateEnv) (config : CwsConfig) (s : Creation) : CURLcode × Creation :=
  let r := configMemorypool ℕ env.sizes s.priv.cfg config.maxPayloadSize
  let pool := s.malloc env
  (curleOk, { pool.2 with priv :=
    { pool.2.priv with cfg := r.1, mem := pool.1.map fun p => ⟨p, r.2⟩ } })

/-- "258EAFA5-E914-47DA-95CA-C5AB0DC85B11" -/
def wsGuid : List Byte :=
  ascii ['2', '5', '8', 'E', 'A', 'F', 'A', '5', '-', 'E', '9', '1', '4', '-', '4', '7', 'D', 'A',
    '-', '9', '5', 'C', 'A', '-', 'C', '5', 'A', 'B', '0', 'D', 'C', '8', '5', 'B', '1', '1']

/-- "Sec-WebSocket-Key:" -/
def keyPrefix : List Byte :=
  ascii ['S', 'e', 'c', '-', 'W', 'e', 'b', 'S', 'o', 'c', 'k', 'e', 't', '-', 'K', 'e', 'y', ':']

/-- `b64_encode_with_alloc`. -/
def b64EncodeWithAlloc (env : CreateEnv) (s : Creation) (x : List Byte) :
    Option (HeapBlock (List Byte)) × Creation := s.mallocString env (env.b64Encode x)

/-- The part of `_config_ws_key` between the two strings and the label `err`. -/
def configKeyHeaders (env : CreateEnv) (send combined : Option (HeapBlock (List Byte)))
    (s : Creation) : CURLcode × Creation :=
  match send, combined with
  | some send, some combined =>
      match cwsSha1 (some combined.value) combined.value.length with
      | (0, some md) =>
          let appended := s.slistAppend env send.value
          if appended.1 then
            let r := b64EncodeWithAlloc env appended.2 md
            -- without memory the code is the same, and the length of the key stays zero
            let priv := r.2.priv
            let key := (r.1.map (·.value)).getD []
            (curleOk, { r.2 with priv :=
              { priv with
                expectedKeyHeader := r.1, cfg := { priv.cfg with expectedKeyHeader := key } } })
          else (~~~curleOk, appended.2)
      | _ => (~~~curleOk, s)
  | _, _ => (~~~curleOk, s)

/-- `_config_ws_key`. -/
def configWsKey (env : CreateEnv) (s : Creation) : CURLcode × Creation :=
  let randomValue := (List.range 16).map env.random
  let b64Key := b64EncodeWithAlloc env s randomValue
  match b64Key.1 with
  | none => (~~~curleOk, b64Key.2)
  | some key =>
      let send := cwsStrmerge env b64Key.2 (keyPrefix ++ [0x20]) key.value
      let combined := cwsStrmerge env send.2 key.value wsGuid
      let r := configKeyHeaders env send.1 combined.1 combined.2
      (r.1, ((r.2.free (some key)).free combined.1).free send.1)

/-- `_config_ws_protocols`. -/
def configWsProtocols (env : CreateEnv) (config : CwsConfig) (s : Creation) : CURLcode × Creation :=
  match config.websocketProtocols with
  | none => (curleOk, s)
  | some protocols =>
      let buf := cwsStrmerge env s (protocolPrefix ++ [0x20]) protocols
      match buf.1 with
      | none => (~~~curleOk, buf.2)
      | some b =>
          let appended := buf.2.slistAppend env b.value
          let s := appended.2.free (some b)
          if appended.1 then
            let r := cwsStrdup env s protocols
            let s := { r.2 with priv := { r.2.priv with wsProtocolsRequested := r.1 } }
            (if r.1.isSome then curleOk else ~~~curleOk, s)
          else (~~~curleOk, s)

/-- The names of `disallowed`. -/
def disallowed : List (List Byte) :=
  [connectionPrefix,
    ascii ['C', 'o', 'n', 't', 'e', 'n', 't', '-', 'L', 'e', 'n', 'g', 't', 'h', ':'],
    ascii ['C', 'o', 'n', 't', 'e', 'n', 't', '-', 'T', 'y', 'p', 'e', ':'],
    ascii ['E', 'x', 'p', 'e', 'c', 't', ':'],
    acceptPrefix,
    keyPrefix,
    protocolPrefix,
    ascii ['S', 'e', 'c', '-', 'W', 'e', 'b', 'S', 'o', 'c', 'k', 'e', 't', '-', 'V', 'e', 'r', 's',
      'i', 'o', 'n', ':'],
    transferEncodingLine,
    upgradePrefix]

/-- The lines of `ws_headers`. -/
def wsHeaders : List (List Byte) :=
  [connectionPrefix ++ ascii [' ', 'U', 'p', 'g', 'r', 'a', 'd', 'e'],
    upgradePrefix ++ ascii [' ', 'w', 'e', 'b', 's', 'o', 'c', 'k', 'e', 't'],
    ascii ['S', 'e', 'c', '-', 'W', 'e', 'b', 'S', 'o', 'c', 'k', 'e', 't', '-', 'V', 'e', 'r', 's',
      'i', 'o', 'n', ':', ' ', '1', '3']]

/-- The loops of `_config_http_headers`: the lines are added one by one, as long as they are allowed
and there is memory. -/
def appendLines (env : CreateEnv) (allowed : List Byte → Bool) :
    List (List Byte) → Creation → CURLcode × Creation
  | [], s => (curleOk, s)
  | line :: lines, s =>
      if allowed line then
        appendLine env line (curleOk, s) fun r => appendLines env allowed lines r.2
      else (~~~curleOk, s)

/-- `_config_http_headers`. -/
def configHttpHeaders (env : CreateEnv) (config : CwsConfig) (s : Creation) : CURLcode × Creation :=
  let r := appendLines env (fun _ => true) wsHeaders s
  if r.1 = curleOk then
    let allowed (line : List Byte) : Bool := !disallowed.any (cwsHasPrefix line)
    let r := appendLines env allowed config.extraHeaders r.2
    if r.1 = curleOk then r.2.setopt env (.httpHeader (r.2.priv.headers.map (·.value))) else r
  else r

/-- The call of the user's `configure`, if there is one.  It comes last, so that it can overwrite
what the library has set. -/
def userConfigure (env : CreateEnv) (config : CwsConfig) (s : Creation) : CURLcode × Creation :=
  if config.configure then (env.configure, s.setAll env.configured) else (curleOk, s)

/-! ## The life of the object

From the first block to the last.  `cws_destroy` is called for an object that is not complete, too,
whenever a part of it is missing. -/

/-- `CURLWS_MIN_VERSION`. -/
def curlwsMinVersion : ℕ := 0x073202

/-- `_check_curl_version`. -/
def checkCurlVersion (env : CreateEnv) : ℤ := if env.versionNum < curlwsMinVersion then -1 else 0

/-- The functions whose codes `cws_create` combines, in their order. -/
def configurators (env : CreateEnv) (config : CwsConfig) : List (Creation → CURLcode × Creation) :=
  [configMemory env config, configUrl env config, configSecurity env, configRedirects env config,
    headerInit env, receiveInit env, sendInit env, configVerbosity env config,
    configWsWorkarounds env config, configWsKey env, configWsProtocols env config,
    configHttpHeaders env config, userConfigure env config]

/-- The blocks `cws_destroy` frees, in its order.  `send_destroy` and the blocks of the pool are for
a connection that has been used. -/
def CwsObject.blocks (priv : CwsObject) : List ℕ :=
  (priv.url.map (·.name)).toList ++ (priv.easy.map (·.name)).toList ++ priv.headers.map (·.name) ++
    (priv.wsProtocolsRequested.map (·.name)).toList ++
    (priv.wsProtocolsReceived.map (·.name)).toList ++
    (priv.expectedKeyHeader.map (·.name)).toList ++ (priv.mem.map (·.name)).toList ++
    (priv.streamBuffer.map (·.name)).toList ++ [priv.name]

/-- `cws_destroy`, outside of callbacks: what becomes of the blocks. -/
def CwsObject.destroy (priv : CwsObject) (log : List (HeapEvent ℕ)) : List (HeapEvent ℕ) :=
  log ++ priv.blocks.map .freed

/-- `cws_create`: the object, or what has happened on the way to NULL. -/
def cwsCreate (env : CreateEnv) (config : Option CwsConfig) :
    Option CwsObject × List (HeapEvent ℕ) :=
  match config with
  | none => (none, [])
  | some config =>
      if checkCurlVersion env ≠ 0 then (none, [])
      else if env.alloc 0 then
        let s : Creation := ⟨.calloc 0, [.obtained 0]⟩
        let easy := s.malloc env
        match easy.1 with
        | none => (none, easy.2.priv.destroy easy.2.log)
        | some p =>
            let s := { easy.2 with priv :=
              { easy.2.priv with
                easy := some ⟨p, []⟩, cfg := { easy.2.priv.cfg with cb := config.cb } } }
            let r := (configurators env config).foldl Creation.combine (curleOk, s)
            if r.1 ≠ curleOk then (none, r.2.priv.destroy r.2.log) else (some r.2.priv, r.2.log)
      else (none, [.refused])

end CurlWs
